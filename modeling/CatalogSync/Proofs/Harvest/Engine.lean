import CatalogSync.Proofs.Harvest.Poll
import CatalogSync.Proofs.Listener.Callback

namespace CatalogSync

namespace Site

variable (locate : String → String → String)

def lister : Lister Site where
  checkRoot := fun _ site => (.ok (), site)
  list := fun _ site => (site.listed, site)
  locate := locate
  fetch := fun location site => (.error (.unavailable location), site)

def snapshotStore : BlobStore Site :=
  MemoryStore.blobStore.over snapshotsPart

end Site

structure Round where
  listed : Except ListerError (List ListingEntry)
  behavior : AdapterBehavior
  failsToStore : Bool

def Site.meet (site : Site) (round : Round) : Site :=
  { site with
    listed := round.listed
    adapter := { site.adapter with behavior := round.behavior }
    snapshots := { site.snapshots with failsWrites := round.failsToStore } }

structure Engine where
  harvester : Harvester
  site : Site

namespace Engine

variable (locate : String → String → String) (fails : Nat → Bool) (clock : Site → Time.Timestamp)

/-- A new harvester for a configuration. It has got the listener and has been started. -/
def opened (config : HarvesterConfig) : Engine :=
  match (Harvester.ofConfig config).register 0 "site" with
  | .error _ => ⟨.ofConfig config, .empty⟩
  | .ok harvester =>
    let started := harvester.start (Site.lister locate) Site.snapshotStore .empty
    ⟨started.1.2, started.2⟩

/-- The same on a site as others have left it. -/
def reopened (config : HarvesterConfig) (site : Site) : Engine :=
  match (Harvester.ofConfig config).register 0 "site" with
  | .error _ => ⟨.ofConfig config, site⟩
  | .ok harvester =>
    let started := harvester.start (Site.lister locate) Site.snapshotStore site
    ⟨started.1.2, started.2⟩

def answerOf (answer : (Except HarvestError PollReport × Harvester) × Site) :
    Except HarvestError PollReport × Engine :=
  (answer.1.1, ⟨answer.1.2, answer.2⟩)

def poll (engine : Engine) (round : Round) : Except HarvestError PollReport × Engine :=
  answerOf (engine.harvester.poll (Site.lister locate) Site.snapshotStore
    (fun _ => (Site.listener fails clock).listener) (engine.site.meet round))

structure Observed where
  listed : Except ListerError (List ListingEntry)
  /-- What has changed since the last completed poll. -/
  changes : List Change
  result : Except HarvestError PollReport
  /-- The calls to the adapter during the poll. -/
  calls : List AdapterCall
  after : Site

def observe (engine : Engine) (round : Round) : Observed :=
  let polled := engine.poll locate fails clock round
  let changes := match round.listed with
    | .ok listing => (diff engine.harvester.snapshot listing).changes
    | .error _ => []
  ⟨round.listed, changes, polled.1,
    polled.2.site.adapter.calls.drop engine.site.adapter.calls.length, polled.2.site⟩

def observeAll : Engine → List Round → List Observed
  | _, [] => []
  | engine, round :: rounds =>
    engine.observe locate fails clock round ::
      observeAll (engine.poll locate fails clock round).2 rounds

def pollAll (engine : Engine) (rounds : List Round) : Engine :=
  rounds.foldl (fun engine round => (engine.poll locate fails clock round).2) engine

/-- Calls about changes one after the other, until the store of the map fails. -/
inductive Deliveries (locate : String → String → String) (fails : Nat → Bool) (root : String) :
    List Change → Site → Except StoreError Unit → Site → Prop where
  | done (site : Site) : Deliveries locate fails root [] site (.ok ()) site
  | aborted (change : Change) (changes : List Change) (site after : Site) (e : StoreError)
      (hcall : Site.Callback fails site (locate root change.path) change.kind
        (.error (.persistence e), after)) :
      Deliveries locate fails root (change :: changes) site (.error e) after
  | next (change : Change) (changes : List Change) (site middle last : Site)
      (result : Except StoreError Unit)
      (hcall : Site.Callback fails site (locate root change.path) change.kind (.ok (), middle))
      (hrest : Deliveries locate fails root changes middle result last) :
      Deliveries locate fails root (change :: changes) site result last

variable {locate : String → String → String} {fails : Nat → Bool} {clock : Site → Time.Timestamp}

theorem deliver_eq_countOf (root : String) (properties : Properties) (change : Change) :
    Harvester.deliver (Site.lister locate) root properties [(Site.listener fails clock).listener]
        change =
      Harvester.countOf (Site.handle fails clock change.kind
        ⟨locate root change.path, properties⟩
        (.ofFetch ((Site.lister locate).fetch (locate root change.path)))) := by
  obtain ⟨kind, path⟩ := change
  cases kind
  all_goals
    simp only [Harvester.deliver, Harvester.callAll_eq_countAll, List.map_cons, List.map_nil,
      Harvester.countAll_singleton]
    rfl

theorem deliveries_deliverAll (hclock : ∀ site, (clock site).IsValid) (root : String)
    (properties : Properties) (changes : List Change) {site : Site} (hsite : site.WellFormed) :
    Deliveries locate fails root changes site
      ((Harvester.deliverAll (Site.lister locate) root properties
        [(Site.listener fails clock).listener] changes site).1.map fun _ => ())
      (Harvester.deliverAll (Site.lister locate) root properties
        [(Site.listener fails clock).listener] changes site).2 := by
  induction changes generalizing site with
  | nil => exact .done site
  | cons change changes ih =>
    have hcall : Site.Callback fails site _ _ _ := Site.callback_handle hclock hsite change.kind
      ⟨locate root change.path, properties⟩
      (.ofFetch ((Site.lister locate).fetch (locate root change.path)))
    have hmiddle := Site.wellFormed_of_callback hsite hcall
    have hanswer := Site.callback_answer hcall
    rw [Harvester.deliverAll_cons, deliver_eq_countOf]
    generalize hhandle : Site.handle fails clock change.kind ⟨locate root change.path, properties⟩
      (.ofFetch ((Site.lister locate).fetch (locate root change.path))) = call at *
    rcases hafter : call site with ⟨outcome, middle⟩
    rw [hafter] at hcall hmiddle hanswer
    rcases hanswer with rfl | ⟨e, rfl⟩
    · have hcount : Harvester.countOf call site = (.ok 0, middle) := by
        simp only [Harvester.countOf, bind, StateT.bind, hafter]
        rfl
      rw [Harvester.addCounts_of_ok hcount]
      have hrest := ih hmiddle
      generalize Harvester.deliverAll (Site.lister locate) root properties
        [(Site.listener fails clock).listener] changes middle = answer at hrest ⊢
      obtain ⟨result, last⟩ := answer
      cases result <;> exact .next _ _ _ _ _ _ hcall hrest
    · have hcount : Harvester.countOf call site = (.error e, middle) := by
        simp only [Harvester.countOf, bind, StateT.bind, hafter]
        rfl
      rw [Harvester.addCounts_of_error hcount]
      exact .aborted _ _ _ _ _ hcall

/-- What a poll of a running harvester can do. -/
inductive Polled (locate : String → String → String) (fails : Nat → Bool) (engine : Engine)
    (round : Round) : Except HarvestError PollReport × Engine → Prop where
  | unreachable (e : ListerError) (hlisted : round.listed = .error e) :
      Polled locate fails engine round
        (.error (.lister e), ⟨engine.harvester, engine.site.meet round⟩)
  /-- The store of the map has failed. -/
  | aborted (listing : List ListingEntry) (hlisted : round.listed = .ok listing) (e : StoreError)
      (last : Site) (hdelivered : Deliveries locate fails engine.harvester.config.root
        (diff engine.harvester.snapshot listing).changes (engine.site.meet round) (.error e) last) :
      Polled locate fails engine round (.error (.persistence e), ⟨engine.harvester, last⟩)
  /-- The snapshot could not be stored. -/
  | lost (listing : List ListingEntry) (hlisted : round.listed = .ok listing) (e : StoreError)
      (last : Site) (snapshots : MemoryStore)
      (hdelivered : Deliveries locate fails engine.harvester.config.root
        (diff engine.harvester.snapshot listing).changes (engine.site.meet round) (.ok ()) last) :
      Polled locate fails engine round
        (.error (.persistence e), ⟨engine.harvester, { last with snapshots := snapshots }⟩)
  | completed (listing : List ListingEntry) (hlisted : round.listed = .ok listing)
      (report : PollReport) (last : Site) (snapshots : MemoryStore)
      (hdelivered : Deliveries locate fails engine.harvester.config.root
        (diff engine.harvester.snapshot listing).changes (engine.site.meet round) (.ok ()) last) :
      Polled locate fails engine round (.ok report,
        ⟨engine.harvester.withListing listing, { last with snapshots := snapshots }⟩)

/-- The harvester runs, for the one listener. -/
structure IsOpen (engine : Engine) : Prop where
  running : engine.harvester.status = .polling
  members : engine.harvester.members = [0]
  site : engine.site.WellFormed

theorem beginPoll_of_isOpen {engine : Engine} (hopen : engine.IsOpen) :
    engine.harvester.beginPoll = .listing engine.harvester.config.root [0] := by
  simp [Harvester.beginPoll, hopen.running, hopen.members]

theorem after_store {key : String} {blob : Bytes} {site after : Site}
    {answer : Except StoreError Unit}
    (h : Site.snapshotStore.store key blob site = (answer, after)) :
    ∃ snapshots, after = { site with snapshots := snapshots } := by
  cases h
  exact ⟨_, rfl⟩

theorem polled_commit {engine : Engine} {round : Round} {listing : List ListingEntry}
    (hlisted : round.listed = .ok listing) {last : Site} (failures : Nat)
    (hdelivered : Deliveries locate fails engine.harvester.config.root
      (diff engine.harvester.snapshot listing).changes (engine.site.meet round) (.ok ()) last) :
    Polled locate fails engine round (answerOf (Harvester.commit Site.snapshotStore
      engine.harvester (diff engine.harvester.snapshot listing)
      (.ofDiff (diff engine.harvester.snapshot listing) failures) last)) := by
  rcases Harvester.commit_cases Site.snapshotStore engine.harvester listing failures last with
    ⟨-, hcommit⟩ | ⟨e, after, hstore, hcommit⟩ | ⟨after, hstore, hcommit⟩
  · rw [hcommit]
    exact .completed listing hlisted _ last last.snapshots hdelivered
  · rw [hcommit]
    obtain ⟨snapshots, rfl⟩ := after_store hstore
    exact .lost listing hlisted e last snapshots hdelivered
  · rw [hcommit]
    obtain ⟨snapshots, rfl⟩ := after_store hstore
    exact .completed listing hlisted _ last snapshots hdelivered

theorem polled_poll (hclock : ∀ site, (clock site).IsValid) {engine : Engine}
    (hopen : engine.IsOpen) (round : Round) :
    Polled locate fails engine round (engine.poll locate fails clock round) := by
  unfold poll Harvester.poll
  rw [beginPoll_of_isOpen hopen]
  show Polled locate fails engine round (answerOf (Harvester.finishPoll (Site.lister locate)
    Site.snapshotStore [(Site.listener fails clock).listener] engine.harvester
    engine.harvester.config.root round.listed (engine.site.meet round)))
  cases hlisted : round.listed with
  | error e => exact .unreachable e hlisted
  | ok listing =>
    have hsite : (engine.site.meet round).WellFormed := ⟨hopen.site.readable, hopen.site.issued⟩
    have hdelivered := @deliveries_deliverAll locate fails clock hclock
      engine.harvester.config.root engine.harvester.properties
      (diff engine.harvester.snapshot listing).changes (engine.site.meet round) hsite
    rcases hanswer : Harvester.deliverAll (Site.lister locate) engine.harvester.config.root
      engine.harvester.properties [(Site.listener fails clock).listener]
      (diff engine.harvester.snapshot listing).changes (engine.site.meet round) with
      ⟨e | failures, last⟩
    · rw [hanswer] at hdelivered
      rw [Harvester.finishPoll_of_aborted hanswer]
      exact .aborted listing hlisted e last hdelivered
    · rw [hanswer] at hdelivered
      rw [Harvester.finishPoll_of_delivered hanswer]
      exact polled_commit hlisted failures hdelivered

def openedHarvester (config : HarvesterConfig) : Harvester :=
  { Harvester.ofConfig config with
    members := [0]
    status := .polling
    properties := config.overrides.toProperties }

/-- The snapshot that is stored for a root. -/
def stored? (site : Site) (root : String) : Option Snapshot :=
  Harvester.storedSnapshot? (site.snapshots.blobs.get? (persistenceKey root))

theorem reopened_eq {config : HarvesterConfig} (hconfig : config.validate = .ok ()) (site : Site) :
    reopened locate config site =
      ⟨{ openedHarvester config with snapshot := stored? site config.root }, site⟩ := by
  have hregister : (Harvester.ofConfig config).register 0 "site" =
      .ok { Harvester.ofConfig config with members := [0] } := by
    simp [Harvester.register, Harvester.ofConfig, Harvester.hasListener]
  have hstart : ({ Harvester.ofConfig config with members := [0] } : Harvester).start
      (Site.lister locate) Site.snapshotStore site =
        ((.ok (), { openedHarvester config with snapshot := stored? site config.root }), site) := by
    unfold Harvester.start Harvester.bringUp Harvester.loadState
    simp only [Harvester.ofConfig, hconfig]
    rfl
  simp only [reopened, hregister, hstart]

theorem opened_eq {config : HarvesterConfig} (hconfig : config.validate = .ok ()) :
    opened locate config = ⟨openedHarvester config, .empty⟩ := by
  have hreopened := @reopened_eq locate config hconfig .empty
  exact hreopened

theorem isOpen_reopened {config : HarvesterConfig} (hconfig : config.validate = .ok ())
    {site : Site} (hsite : site.WellFormed) : (reopened locate config site).IsOpen := by
  rw [reopened_eq hconfig]
  exact ⟨rfl, rfl, hsite⟩

theorem isOpen_opened (config : HarvesterConfig) :
    (⟨openedHarvester config, .empty⟩ : Engine).IsOpen :=
  ⟨rfl, rfl, .empty⟩

section Deliveries

variable {root : String} {changes : List Change} {site last : Site}
  {result : Except StoreError Unit}

theorem Deliveries.wellFormed (h : Deliveries locate fails root changes site result last)
    (hsite : site.WellFormed) : last.WellFormed := by
  induction h with
  | done => exact hsite
  | aborted _ _ _ _ _ hcall => exact Site.wellFormed_of_callback hsite hcall
  | next _ _ _ _ _ _ hcall _ ih => exact ih (Site.wellFormed_of_callback hsite hcall)

theorem Deliveries.issued_le (h : Deliveries locate fails root changes site result last) :
    site.supply.issued ≤ last.supply.issued := by
  induction h with
  | done => exact Nat.le_refl _
  | aborted _ _ _ _ _ hcall => exact Site.issued_le_of_callback hcall
  | next _ _ _ _ _ _ hcall _ ih => exact Nat.le_trans (Site.issued_le_of_callback hcall) ih

/-- What every call keeps, a delivery of changes keeps. -/
theorem Deliveries.keeps {I : Site → Prop}
    (h : Deliveries locate fails root changes site result last) (hfresh : last.supply.IsFresh)
    (hcalls : ∀ change ∈ changes, ∀ before answer, before.WellFormed → I before →
      Site.Callback fails before (locate root change.path) change.kind answer →
      answer.2.supply.IsFresh → I answer.2)
    (hsite : site.WellFormed) (hI : I site) : I last := by
  induction h with
  | done => exact hI
  | aborted change _ _ _ _ hcall =>
    exact hcalls change List.mem_cons_self _ _ hsite hI hcall hfresh
  | next change _ _ _ _ _ hcall hrest ih =>
    have hmiddle := hcalls change List.mem_cons_self _ _ hsite hI hcall
      (hfresh.mono hrest.issued_le)
    exact ih hfresh (fun change hchange => hcalls change (List.mem_cons_of_mem _ hchange))
      (Site.wellFormed_of_callback hsite hcall) hmiddle

theorem Deliveries.lost (h : Deliveries locate fails root changes site result last) :
    site.mappings.lost <+: last.mappings.lost := by
  induction h with
  | done => exact List.prefix_rfl
  | aborted _ _ _ _ _ hcall => exact Site.lost_of_callback hcall
  | next _ _ _ _ _ _ hcall _ ih => exact (Site.lost_of_callback hcall).trans ih

theorem Deliveries.behavior (h : Deliveries locate fails root changes site result last) :
    last.adapter.behavior = site.adapter.behavior := by
  induction h with
  | done => rfl
  | aborted _ _ _ _ _ hcall => exact Site.behavior_of_callback hcall
  | next _ _ _ _ _ _ hcall _ ih => exact ih.trans (Site.behavior_of_callback hcall)

theorem Deliveries.row?_of_ne (h : Deliveries locate fails root changes site result last)
    {key : String} (hkey : ∀ change ∈ changes, key ≠ correlationId (locate root change.path)) :
    last.row? key = site.row? key := by
  induction h with
  | done => rfl
  | aborted change _ _ _ _ hcall =>
    exact Site.row?_of_callback_ne (hkey change List.mem_cons_self) hcall
  | next change _ _ _ _ _ hcall _ ih =>
    rw [ih fun other hother => hkey other (List.mem_cons_of_mem _ hother)]
    exact Site.row?_of_callback_ne (hkey change List.mem_cons_self) hcall

theorem key_ne_of_append {first rest : List Change} {change : Change}
    (hpaths : ((first ++ change :: rest).map Change.path).Nodup)
    (hkeys : ∀ one ∈ first ++ change :: rest, ∀ other ∈ first ++ change :: rest,
      correlationId (locate root one.path) = correlationId (locate root other.path) →
        one.path = other.path) :
    ∀ other ∈ first ++ rest,
      correlationId (locate root change.path) ≠ correlationId (locate root other.path) := by
  intro other hother hsame
  have hchange : change ∈ first ++ change :: rest := by simp
  have hmem : other ∈ first ++ change :: rest := by
    rcases List.mem_append.mp hother with hother | hother
    · exact List.mem_append_left _ hother
    · exact List.mem_append_right _ (List.mem_cons_of_mem _ hother)
  have hpath := hkeys change hchange other hmem hsame
  rw [List.map_append, List.map_cons] at hpaths
  apply (List.nodup_cons.mp (List.nodup_middle.mp hpaths)).1
  rw [← List.map_append, hpath]
  exact List.mem_map_of_mem hother

theorem Deliveries.split (h : Deliveries locate fails root changes site (.ok ()) last)
    {change : Change} (hchange : change ∈ changes) :
    ∃ first rest before middle, changes = first ++ change :: rest ∧
      Deliveries locate fails root first site (.ok ()) before ∧
      Site.Callback fails before (locate root change.path) change.kind (.ok (), middle) ∧
      Deliveries locate fails root rest middle (.ok ()) last := by
  generalize hresult : (.ok () : Except StoreError Unit) = result at h
  induction h with
  | done => cases hchange
  | aborted => cases hresult
  | next other others site middle last _ hcall hrest ih =>
    subst hresult
    rcases List.mem_cons.mp hchange with rfl | hlater
    · exact ⟨[], others, site, middle, rfl, .done site, hcall, hrest⟩
    · obtain ⟨first, rest, before, after, rfl, hfirst, hchanged, hlast⟩ := ih hlater rfl
      exact ⟨other :: first, rest, before, after, rfl, .next _ _ _ _ _ _ hcall hfirst, hchanged,
        hlast⟩

end Deliveries

section Polls

variable {engine after : Engine} {round : Round} {result : Except HarvestError PollReport}

theorem Polled.isOpen (h : Polled locate fails engine round (result, after))
    (hopen : engine.IsOpen) : after.IsOpen := by
  have hmeet : (engine.site.meet round).WellFormed := ⟨hopen.site.readable, hopen.site.issued⟩
  cases h with
  | unreachable => exact ⟨hopen.running, hopen.members, hmeet⟩
  | aborted _ _ _ _ hdelivered =>
    exact ⟨hopen.running, hopen.members, hdelivered.wellFormed hmeet⟩
  | lost _ _ _ last _ hdelivered =>
    have hlast := hdelivered.wellFormed hmeet
    exact ⟨hopen.running, hopen.members, hlast.readable, hlast.issued⟩
  | completed _ _ _ last _ hdelivered =>
    have hlast := hdelivered.wellFormed hmeet
    exact ⟨hopen.running, hopen.members, hlast.readable, hlast.issued⟩

theorem Polled.config (h : Polled locate fails engine round (result, after)) :
    after.harvester.config = engine.harvester.config := by
  cases h <;> rfl

theorem Polled.issued_le (h : Polled locate fails engine round (result, after)) :
    engine.site.supply.issued ≤ after.site.supply.issued := by
  cases h with
  | unreachable => exact Nat.le_refl _
  | aborted _ _ _ _ hdelivered => exact hdelivered.issued_le
  | lost _ _ _ _ _ hdelivered => exact hdelivered.issued_le
  | completed _ _ _ _ _ hdelivered => exact hdelivered.issued_le

theorem pollAll_cons (engine : Engine) (round : Round) (rounds : List Round) :
    engine.pollAll locate fails clock (round :: rounds) =
      (engine.poll locate fails clock round).2.pollAll locate fails clock rounds := rfl

theorem issued_le_pollAll (hclock : ∀ site, (clock site).IsValid) (rounds : List Round)
    (hopen : engine.IsOpen) :
    engine.site.supply.issued ≤ (engine.pollAll locate fails clock rounds).site.supply.issued := by
  induction rounds generalizing engine with
  | nil => exact Nat.le_refl _
  | cons round rounds ih =>
    have hpolled : Polled locate fails engine round _ := polled_poll hclock hopen round
    rw [pollAll_cons]
    exact Nat.le_trans hpolled.issued_le (ih (hpolled.isOpen hopen))

theorem Polled.keeps {I : Site → Prop}
    (hcalls : ∀ before location kind answer, before.WellFormed → I before →
      Site.Callback fails before location kind answer → answer.2.supply.IsFresh → I answer.2)
    (hmeet : ∀ site round, I site → I (site.meet round))
    (hsnapshots : ∀ site snapshots, I site → I { site with snapshots := snapshots })
    (h : Polled locate fails engine round (result, after)) (hopen : engine.IsOpen)
    (hfresh : after.site.supply.IsFresh) (hI : I engine.site) : I after.site := by
  have hsite : (engine.site.meet round).WellFormed := ⟨hopen.site.readable, hopen.site.issued⟩
  have hdeliveries : ∀ changes result last,
      Deliveries locate fails engine.harvester.config.root changes (engine.site.meet round) result
        last → last.supply.IsFresh → I last := by
    intro changes result last hdelivered hissued
    exact hdelivered.keeps hissued (fun _ _ _ _ hbefore => hcalls _ _ _ _ hbefore) hsite
      (hmeet _ round hI)
  cases h with
  | unreachable => exact hmeet _ round hI
  | aborted _ _ _ _ hdelivered => exact hdeliveries _ _ _ hdelivered hfresh
  | lost _ _ _ last snapshots hdelivered =>
    exact hsnapshots _ snapshots (hdeliveries _ _ _ hdelivered hfresh)
  | completed _ _ _ last snapshots hdelivered =>
    exact hsnapshots _ snapshots (hdeliveries _ _ _ hdelivered hfresh)

theorem keeps_observeAll {I : Site → Prop}
    (hcalls : ∀ before location kind answer, before.WellFormed → I before →
      Site.Callback fails before location kind answer → answer.2.supply.IsFresh → I answer.2)
    (hmeet : ∀ site round, I site → I (site.meet round))
    (hsnapshots : ∀ site snapshots, I site → I { site with snapshots := snapshots })
    (hclock : ∀ site, (clock site).IsValid) (rounds : List Round) (hopen : engine.IsOpen)
    (hfresh : (engine.pollAll locate fails clock rounds).site.supply.IsFresh)
    (hI : I engine.site) : ∀ observed ∈ engine.observeAll locate fails clock rounds,
      I observed.after := by
  induction rounds generalizing engine with
  | nil =>
    intro _ hobserved
    cases hobserved
  | cons round rounds ih =>
    have hpolled : Polled locate fails engine round _ := polled_poll hclock hopen round
    have hnext := hpolled.isOpen hopen
    rw [pollAll_cons] at hfresh
    have hissued := hfresh.mono (issued_le_pollAll hclock rounds hnext)
    have hafter := hpolled.keeps hcalls hmeet hsnapshots hopen hissued hI
    intro observed hobserved
    rcases List.mem_cons.mp hobserved with rfl | hlater
    · exact hafter
    · exact ih hnext hfresh hafter observed hlater

end Polls

end Engine

end CatalogSync
