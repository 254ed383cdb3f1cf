import CatalogSync.Proofs.Harvest.Tracking
import CatalogSync.Proofs.Listener.Ledger

namespace CatalogSync

open Site (never Calls)

theorem Site.snapshots_of_callback {fails : Nat → Bool} {site : Site} {location : String}
    {kind : ChangeKind} {answer : Outcome ListenerError Unit × Site}
    (hstep : Callback fails site location kind answer) : answer.2.snapshots = site.snapshots := by
  have hwrite : ∀ (middle : Site) (key : String) (wanted : Option Correlation),
      middle.snapshots = site.snapshots →
        (middle.write fails key wanted).2.snapshots = site.snapshots := by
    intro middle key wanted hsame
    unfold write
    split <;> exact hsame
  cases hstep with
  | known | unknown | refusedCreate | refusedUpdate | refusedDelete => rfl
  | created | updated | reissued | deleted => exact hwrite _ _ _ rfl

namespace Engine

variable {locate : String → String → String} {clock : Site → Time.Timestamp}

/-- What deliveries come to while adapter and map work. -/
structure Delivered (locate : String → String → String) (root : String) (changes : List Change)
    (site last : Site) : Prop where
  wellFormed : last.WellFormed
  mirrors : last.Mirrors
  ledger : last.ledger = site.ledger.afterAll locate root changes
  calls : Calls site last (site.ledger.calls locate root changes)
  snapshots : last.snapshots = site.snapshots

theorem keys_injOn {root : String} {paths : Set String}
    (hlocate : Function.Injective (locate root))
    (hcollisions : Set.InjOn correlationId (locate root '' paths)) :
    Set.InjOn (fun path => correlationId (locate root path)) paths :=
  hcollisions.comp hlocate.injOn (Set.mapsTo_image _ _)

theorem nodup_keys_diff {root : String} {paths : Set String} (before : Option Snapshot)
    (listing : List ListingEntry)
    (hkeys : Set.InjOn (fun path => correlationId (locate root path)) paths)
    (hmem : ∀ change ∈ (diff before listing).changes, change.path ∈ paths) :
    ((diff before listing).changes.map (Ledger.keyOf locate root)).Nodup := by
  have hpaths := nodup_paths_diff before listing
  rw [List.Nodup, List.pairwise_map] at hpaths ⊢
  refine hpaths.imp_of_mem ?_
  intro one other hone hother hne hsame
  apply hne
  exact hkeys (hmem one hone) (hmem other hother) hsame

section Deliveries

variable {root : String} {changes : List Change} {site last : Site}
  {result : Except StoreError Unit}

theorem Deliveries.isOk_of_never (h : Deliveries locate never root changes site result last) :
    result = .ok () := by
  induction h with
  | done => rfl
  | aborted _ _ _ _ _ hcall => cases Site.ok_of_callback_never hcall
  | next _ _ _ _ _ _ _ _ ih => exact ih

theorem deliverAll_never (hclock : ∀ site, (clock site).IsValid) (root : String)
    (properties : Properties) (changes : List Change) (hsite : site.WellFormed) :
    ∃ failures last, Harvester.deliverAll (Site.lister locate) root properties
      [(Site.listener never clock).listener] changes site = (.ok failures, last) ∧
        last.WellFormed := by
  have hdeliveries := @deliveries_deliverAll locate never clock hclock root properties changes site
    hsite
  have hanswer := hdeliveries.isOk_of_never
  have hlast := hdeliveries.wellFormed hsite
  generalize Harvester.deliverAll (Site.lister locate) root properties
    [(Site.listener never clock).listener] changes site = answer at hanswer hlast ⊢
  obtain ⟨e | failures, last⟩ := answer
  · cases hanswer
  · exact ⟨failures, last, rfl, hlast⟩

theorem Deliveries.delivered (h : Deliveries locate never root changes site result last)
    (hsite : site.WellFormed) (hmirrors : site.Mirrors)
    (hbehavior : site.adapter.behavior = .succeed) {n : Nat} (hids : UuidSupply.IsFresh ⟨n⟩)
    (hn : last.supply.issued ≤ n ∨ (site.ledger.afterAll locate root changes).issued ≤ n) :
    Delivered locate root changes site last := by
  -- The bound is on the end of the run, so that it bounds what has been issued in between.
  induction h with
  | done site => exact ⟨hsite, hmirrors, rfl, (List.append_nil _).symm, rfl⟩
  | aborted _ _ _ _ _ hcall => cases Site.ok_of_callback_never hcall
  | next change changes site middle last result hcall hrest ih =>
    obtain ⟨hledger, hcalls⟩ := Site.ledger_of_callback hmirrors hbehavior hcall
    have hafter : (site.ledger.afterAll locate root (change :: changes)) =
        middle.ledger.afterAll locate root changes := by
      rw [hledger]
      rfl
    have hmiddle : middle.supply.issued ≤ n := by
      rcases hn with hn | hn
      · exact Nat.le_trans hrest.issued_le hn
      · rw [hafter] at hn
        exact Nat.le_trans (Ledger.issued_le_afterAll middle.ledger changes).1 hn
    have hmapped := Site.mirrors_of_callback hsite hmirrors hcall (hids.mono hmiddle)
    rw [hafter] at hn
    obtain ⟨hlast, hlastMirrors, hlastLedger, hlastCalls, hsnapshots⟩ :=
      ih (Site.wellFormed_of_callback hsite hcall) hmapped
        ((Site.behavior_of_callback hcall).trans hbehavior) hn
    refine ⟨hlast, hlastMirrors, hlastLedger.trans hafter.symm, ?_,
      hsnapshots.trans (Site.snapshots_of_callback hcall)⟩
    rw [Ledger.calls, ← hledger]
    exact hcalls.append hlastCalls

end Deliveries

section Polls

/-- A listing while the adapter and all stores work. -/
def calm (listing : List ListingEntry) : Round :=
  ⟨.ok listing, .succeed, false⟩

/-- What is stored after a poll. A view that was known before is not stored again. -/
def storedAfter (blobs : Table Bytes) (key : String) (before : Option Snapshot)
    (listing : List ListingEntry) : Table Bytes :=
  if before = some (.ofListing listing) then blobs
  else blobs.insert key (Snapshot.ofListing listing).encode

/-- What a poll comes to while everything works. -/
structure Lands (locate : String → String → String) (engine : Engine) (listing : List ListingEntry)
    (answer : Except HarvestError PollReport × Engine) : Prop where
  completes : answer.1.toBool = true
  harvester : answer.2.harvester = engine.harvester.withListing listing
  wellFormed : answer.2.site.WellFormed
  mirrors : answer.2.site.Mirrors
  ledger : answer.2.site.ledger = engine.site.ledger.afterAll locate engine.harvester.config.root
    (diff engine.harvester.snapshot listing).changes
  calls : Calls engine.site answer.2.site (engine.site.ledger.calls locate
    engine.harvester.config.root (diff engine.harvester.snapshot listing).changes)
  blobs : answer.2.site.snapshots.blobs = storedAfter engine.site.snapshots.blobs
    engine.harvester.snapshotKey engine.harvester.snapshot listing

variable {engine : Engine} {listing : List ListingEntry}

theorem store_snapshotStore {site : Site} (hworks : site.snapshots.failsWrites = false)
    (key : String) (blob : Bytes) :
    Site.snapshotStore.store key blob site =
      (.ok (), { site with snapshots := ⟨site.snapshots.blobs.insert key blob, false⟩ }) := by
  simp only [Site.snapshotStore, BlobStore.over, Part.lift, MemoryStore.blobStore,
    MemoryStore.store, Site.snapshotsPart, hworks]
  rfl

theorem supply_commit (h : Harvester) (listing : List ListingEntry) (failures : Nat) (last : Site) :
    (Harvester.commit Site.snapshotStore h (diff h.snapshot listing)
      (.ofDiff (diff h.snapshot listing) failures) last).2.supply = last.supply := by
  rcases Harvester.commit_cases Site.snapshotStore h listing failures last with
    ⟨-, hcommit⟩ | ⟨e, after, hstore, hcommit⟩ | ⟨after, hstore, hcommit⟩
  · rw [hcommit]
  · obtain ⟨snapshots, rfl⟩ := after_store hstore
    rw [hcommit]
  · obtain ⟨snapshots, rfl⟩ := after_store hstore
    rw [hcommit]

theorem lands_commit {last : Site} (failures : Nat)
    (hdelivered : Delivered locate engine.harvester.config.root
      (diff engine.harvester.snapshot listing).changes (engine.site.meet (calm listing)) last) :
    Lands locate engine listing (answerOf (Harvester.commit Site.snapshotStore engine.harvester
      (diff engine.harvester.snapshot listing)
      (.ofDiff (diff engine.harvester.snapshot listing) failures) last)) := by
  obtain ⟨hlast, hmirrors, hledger, hcalls, hsnapshots⟩ := hdelivered
  have hworks : last.snapshots.failsWrites = false := by
    rw [hsnapshots]
    rfl
  have hblobs : last.snapshots.blobs = engine.site.snapshots.blobs := by
    rw [hsnapshots]
    rfl
  by_cases hsame : engine.harvester.snapshot = some (Snapshot.ofListing listing)
  · rw [Harvester.commit_of_same _ hsame]
    refine ⟨rfl, rfl, hlast, hmirrors, hledger, hcalls, ?_⟩
    rw [storedAfter, if_pos hsame]
    exact hblobs
  · rw [Harvester.commit_of_ne _ hsame, store_snapshotStore hworks]
    refine ⟨rfl, rfl, ⟨hlast.readable, hlast.issued⟩,
      ⟨hmirrors.row_of_record, hmirrors.record_of_row⟩, hledger, hcalls, ?_⟩
    rw [storedAfter, if_neg hsame, ← hblobs]
    rfl

theorem lands_poll (hclock : ∀ site, (clock site).IsValid) (hopen : engine.IsOpen)
    (hmirrors : engine.site.Mirrors) (listing : List ListingEntry) {n : Nat}
    (hids : UuidSupply.IsFresh ⟨n⟩)
    (hn : (engine.poll locate never clock (calm listing)).2.site.supply.issued ≤ n ∨
      (engine.site.ledger.afterAll locate engine.harvester.config.root
        (diff engine.harvester.snapshot listing).changes).issued ≤ n) :
    Lands locate engine listing (engine.poll locate never clock (calm listing)) := by
  have hsite : (engine.site.meet (calm listing)).WellFormed :=
    ⟨hopen.site.readable, hopen.site.issued⟩
  have hmapped : (engine.site.meet (calm listing)).Mirrors :=
    ⟨hmirrors.row_of_record, hmirrors.record_of_row⟩
  have hdeliveries := @deliveries_deliverAll locate never clock hclock
    engine.harvester.config.root engine.harvester.properties
    (diff engine.harvester.snapshot listing).changes _ hsite
  have hpoll : engine.poll locate never clock (calm listing) = answerOf (Harvester.finishPoll
      (Site.lister locate) Site.snapshotStore [(Site.listener never clock).listener]
      engine.harvester engine.harvester.config.root (.ok listing)
      (engine.site.meet (calm listing))) := by
    rw [poll, Harvester.poll, beginPoll_of_isOpen hopen]
    rfl
  rw [hpoll] at hn ⊢
  rcases hanswer : Harvester.deliverAll (Site.lister locate) engine.harvester.config.root
    engine.harvester.properties [(Site.listener never clock).listener]
    (diff engine.harvester.snapshot listing).changes (engine.site.meet (calm listing)) with
    ⟨e | failures, last⟩
  · rw [hanswer] at hdeliveries
    have hok := hdeliveries.result_eq_ok
    cases hok
  · rw [hanswer] at hdeliveries
    rw [Harvester.finishPoll_of_delivered hanswer] at hn ⊢
    have hsupply := supply_commit engine.harvester listing failures last
    refine lands_commit failures (hdeliveries.delivered hsite hmapped rfl hids ?_)
    rw [← hsupply]
    exact hn

theorem stored?_of_blobs {before site : Site} {root : String}
    (hblobs : site.snapshots.blobs = before.snapshots.blobs) :
    stored? site root = stored? before root := by
  rw [stored?, hblobs, stored?]

theorem stored?_of_storedAfter {before site : Site} {root : String}
    (hblobs : site.snapshots.blobs =
      storedAfter before.snapshots.blobs (persistenceKey root) (stored? before root) listing) :
    stored? site root = some (.ofListing listing) := by
  unfold storedAfter at hblobs
  split at hblobs
  · rename_i hsame
    rw [stored?_of_blobs hblobs, hsame]
  · rw [stored?, hblobs, Table.get?_insert, if_pos rfl]
    exact Harvester.storedSnapshot?_encode (some (.ofListing listing))

end Polls

end Engine

end CatalogSync
