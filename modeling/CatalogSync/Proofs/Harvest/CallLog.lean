import CatalogSync.Lister.Static
import CatalogSync.Proofs.Harvest.Undisturbed
import CatalogSync.Proofs.Listener.Playback
import CatalogSync.Proofs.Lister.Locate
import CatalogSync.Proofs.Lists
import CatalogSync.Proofs.Snapshot.News

namespace CatalogSync

/-- The call of the adapter that is due because of a change of a location, after some calls. -/
def dueCall? (log : List AdapterCall) (location : String) : ChangeKind → Option AdapterCall
  | .created => some (.create location)
  | .modified => (lastGiven? log location).map fun id => .update location id
  | .deleted => (lastGiven? log location).map fun id => .delete id

def dueCalls? (locate : String → String → String) (root : String) (log : List AdapterCall)
    (before now : Snapshot) : Option (List AdapterCall) :=
  (news before now).mapM fun change => dueCall? log (locate root change.path) change.kind

/-- The log after some views of the tree, one after the other. -/
def dueLog? (locate : String → String → String) (root : String) (before : Snapshot)
    (log : List AdapterCall) : List Snapshot → Option (List AdapterCall)
  | [] => some log
  | now :: views =>
    match dueCalls? locate root log before now with
    | none => none
    | some calls => dueLog? locate root now (log ++ calls) views

namespace Engine

open Site (never Calls)
open Ledger (keyOf)

section Run

variable (locate : String → String → String) (clock : Site → Time.Timestamp)
  (config : HarvesterConfig)

/-- What happens to an engine while adapter and stores work. -/
inductive Act where
  | poll (listed : Except ListerError (List ListingEntry))
  /-- The process ends, and another one goes on with the same stores. -/
  | restart

def perform (engine : Engine) : Act → Engine
  | .poll listed => (engine.poll locate never clock ⟨listed, .succeed, false⟩).2
  | .restart => reopened locate config engine.site

def run (acts : List Act) : Engine :=
  acts.foldl (perform locate clock config) (opened locate config)

def polls : Engine → List Act →
    List (Except ListerError (List ListingEntry) × Except HarvestError PollReport)
  | _, [] => []
  | engine, .poll listed :: acts =>
    (listed, (engine.poll locate never clock ⟨listed, .succeed, false⟩).1) ::
      polls (perform locate clock config engine (.poll listed)) acts
  | engine, .restart :: acts => polls (perform locate clock config engine .restart) acts

end Run

/-- What the successful polls have seen. -/
def viewsOf (polls : List
    (Except ListerError (List ListingEntry) × Except HarvestError PollReport)) :
    List Snapshot :=
  polls.filterMap fun poll =>
    match poll with
    | (.ok listing, .ok _) => some (.ofListing listing)
    | _ => none

theorem viewsOf_cons_of_ok {result : Except HarvestError PollReport} (listing : List ListingEntry)
    (polls : List (Except ListerError (List ListingEntry) × Except HarvestError PollReport))
    (hresult : result.toBool = true) :
    viewsOf ((.ok listing, result) :: polls) = .ofListing listing :: viewsOf polls := by
  cases result with
  | ok report => rfl
  | error e => cases hresult

theorem viewsOf_cons_of_error (e : ListerError) (result : Except HarvestError PollReport)
    (polls : List (Except ListerError (List ListingEntry) × Except HarvestError PollReport)) :
    viewsOf ((.error e, result) :: polls) = viewsOf polls := by
  cases result <;> rfl

def seenPaths (acts : List Act) : Set String :=
  { path | ∃ listing, .poll (.ok listing) ∈ acts ∧ path ∈ (Snapshot.ofListing listing).paths }

/-- An engine has dealt with all that was seen last, and remembers it. -/
structure Reflects (locate : String → String → String) (config : HarvesterConfig)
    (paths : Set String) (before? : Option Snapshot) (engine : Engine) : Prop where
  isOpen : engine.IsOpen
  config_eq : engine.harvester.config = config
  key : engine.harvester.snapshotKey = persistenceKey config.root
  snapshot : engine.harvester.snapshot = before?
  stored : stored? engine.site config.root = before?
  known : ∀ path fingerprint, fingerprint? before? path = some fingerprint → path ∈ paths
  logged : engine.site.Logged (locate config.root '' paths)
  rows : ∀ path ∈ paths, engine.site.row? (correlationId (locate config.root path)) = none ↔
    fingerprint? before? path = none

variable {locate : String → String → String} {clock : Site → Time.Timestamp}
  {config : HarvesterConfig} {paths : Set String} {before? : Option Snapshot} {engine : Engine}

theorem dueCall?_of_reflects (h : Reflects locate config paths before? engine)
    (hcollisions : Set.InjOn correlationId (locate config.root '' paths))
    {listing : List ListingEntry}
    (hlisted : ∀ path ∈ (Snapshot.ofListing listing).paths, path ∈ paths) {change : Change}
    (hchange : change ∈ (diff before? listing).changes) :
    ∃ call, dueCall? engine.site.adapter.calls (locate config.root change.path) change.kind =
        some call ∧
      engine.site.ledger.call? change.kind (locate config.root change.path) = some call := by
  obtain ⟨kind, path⟩ := change
  have hpath := path_mem_of_change h.known hlisted hchange
  have hrows := h.rows path hpath
  have hkind : changeKind? (fingerprint? before? path) ((Snapshot.ofListing listing).get? path) =
      some kind := (mem_diff_iff _ _ _).mp hchange
  -- The row was written for a location with this key, and no other location has it.
  have hrow : ∀ row, engine.site.row? (correlationId (locate config.root path)) = some row →
      lastGiven? engine.site.adapter.calls (locate config.root path) =
        some row.downstreamId := by
    intro row hrow
    have hsame := h.logged.row_location hcollisions ⟨path, hpath, rfl⟩ hrow
    rw [← (h.logged.rows _ row hrow).2, hsame]
  cases kind with
  | created =>
    have hnone := hrows.mpr (changeKind?_eq_created_iff.mp hkind).1
    refine ⟨_, rfl, ?_⟩
    simp only [Ledger.call?, Site.rows_ledger hnone]
    rfl
  | modified =>
    have hseen := (changeKind?_eq_modified_iff.mp hkind).1
    obtain ⟨row, hsome⟩ := Option.ne_none_iff_exists'.mp (hrows.not.mpr hseen)
    refine ⟨.update (locate config.root path) row.downstreamId, ?_, ?_⟩
    · rw [dueCall?, hrow row hsome]
      rfl
    · simp only [Ledger.call?, Site.rows_ledger hsome]
      rfl
  | deleted =>
    have hseen := (changeKind?_eq_deleted_iff.mp hkind).1
    obtain ⟨row, hsome⟩ := Option.ne_none_iff_exists'.mp (hrows.not.mpr hseen)
    refine ⟨.delete row.downstreamId, ?_, ?_⟩
    · rw [dueCall?, hrow row hsome]
      rfl
    · simp only [Ledger.call?, Site.rows_ledger hsome]
      rfl

theorem rows_of_effect {location : String} {site last : Site} {calls : List AdapterCall}
    {before now : Option Fingerprint}
    (hrow : site.row? (correlationId location) = none ↔ before = none)
    (h : Site.Effect location site last calls (changeKind? before now)) :
    last.row? (correlationId location) = none ↔ now = none := by
  generalize hkind : changeKind? before now = kind? at h
  cases h with
  | untouched _ hwhy hstays =>
    rw [hstays, hrow]
    rcases hwhy with rfl | ⟨rfl, hmapped⟩ | ⟨rfl, hunmapped⟩
    · rw [changeKind?_eq_none_iff.mp hkind]
    · exact absurd (hrow.mpr (changeKind?_eq_created_iff.mp hkind).1) hmapped
    · exact absurd (hrow.mp hunmapped) (changeKind?_eq_modified_iff.mp hkind).1
  | created row _ hafter =>
    rw [hafter]
    exact iff_of_false nofun (changeKind?_eq_created_iff.mp hkind).2
  | updated row row' _ hafter =>
    rw [hafter]
    exact iff_of_false nofun (changeKind?_eq_modified_iff.mp hkind).2.1
  | removed hafter => exact iff_of_true hafter (changeKind?_eq_deleted_iff.mp hkind).2

theorem logged_meet {locations : Set String} {site : Site} (h : site.Logged locations)
    (listed : Except ListerError (List ListingEntry)) (failsToStore : Bool) :
    (site.meet ⟨listed, .succeed, failsToStore⟩).Logged locations := by
  refine ⟨⟨h.mirrors.row_of_record, h.mirrors.record_of_row⟩, rfl, ?_, h.rows⟩
  have hadapter : ({ site.adapter with behavior := .succeed } : RecordingAdapter) =
      site.adapter := by
    rw [← h.behavior]
  rw [Site.meet, hadapter]
  exact h.state

theorem reflects_of_delivered (hlocate : Function.Injective (locate config.root))
    (hcollisions : Set.InjOn correlationId (locate config.root '' paths))
    (h : Reflects locate config paths before? engine) {listing : List ListingEntry}
    (hlisted : ∀ path ∈ (Snapshot.ofListing listing).paths, path ∈ paths) {last after : Site}
    (hdelivered : Deliveries locate never config.root (diff before? listing).changes
      (engine.site.meet (calm listing)) (.ok ()) last)
    (hsame : after = { last with snapshots := after.snapshots })
    (hfresh : last.supply.IsFresh)
    (hopen : (⟨engine.harvester.withListing listing, after⟩ : Engine).IsOpen)
    (hblobs : after.snapshots.blobs = storedAfter engine.site.snapshots.blobs
      (persistenceKey config.root) before? listing) :
    Reflects locate config paths (some (.ofListing listing))
      ⟨engine.harvester.withListing listing, after⟩ := by
  have hsite : (engine.site.meet (calm listing)).WellFormed :=
    ⟨h.isOpen.site.readable, h.isOpen.site.issued⟩
  have hmeet := logged_meet h.logged (.ok listing) false
  have hlogged : last.Logged (locate config.root '' paths) := by
    refine hdelivered.keeps hfresh ?_ hsite hmeet
    intro change hchange before answer hbefore hlog hcall hissued
    have hpath := path_mem_of_change h.known hlisted hchange
    exact Site.logged_of_callback hbefore hcollisions ⟨_, hpath, rfl⟩ hlog hcall hissued
  have hrows : ∀ path ∈ paths, last.row? (correlationId (locate config.root path)) = none ↔
      (Snapshot.ofListing listing).get? path = none := by
    intro path hpath
    have hrow : (engine.site.meet (calm listing)).row? (correlationId (locate config.root path)) =
      none ↔ fingerprint? before? path = none := h.rows path hpath
    exact rows_of_effect hrow (effect_of_path (keys_injOn hlocate hcollisions) h.known hlisted
      hsite hmeet.mirrors hfresh rfl hdelivered hpath)
  refine ⟨hopen, h.config_eq, h.key, rfl, ?_, ?_, ?_, ?_⟩
  · rw [← h.stored] at hblobs
    exact stored?_of_storedAfter hblobs
  · intro path fingerprint hseen
    exact hlisted path ((Snapshot.mem_paths_iff _ _).mpr ⟨fingerprint, hseen⟩)
  · rw [hsame]
    exact ⟨⟨hlogged.mirrors.row_of_record, hlogged.mirrors.record_of_row⟩, hlogged.behavior,
      hlogged.state, hlogged.rows⟩
  · rw [hsame]
    exact hrows

theorem reflects_of_poll (hclock : ∀ site, (clock site).IsValid)
    (hlocate : Function.Injective (locate config.root))
    (hcollisions : Set.InjOn correlationId (locate config.root '' paths))
    (h : Reflects locate config paths before? engine) {listing : List ListingEntry}
    (hlisted : ∀ path ∈ (Snapshot.ofListing listing).paths, path ∈ paths)
    {answer : Except HarvestError PollReport × Engine}
    (hanswer : engine.poll locate never clock (calm listing) = answer)
    (hfresh : answer.2.site.supply.IsFresh) :
    answer.1.toBool = true ∧ Reflects locate config paths (some (.ofListing listing)) answer.2 ∧
      ∃ calls, dueCalls? locate config.root engine.site.adapter.calls (before?.getD .empty)
          (.ofListing listing) = some calls ∧ Calls engine.site answer.2.site calls := by
  have hpolled : Polled locate never engine (calm listing) _ := polled_poll hclock h.isOpen _
  have hlands : Lands locate engine listing _ := lands_poll hclock h.isOpen h.logged.mirrors listing
    (hanswer.symm ▸ hfresh) (Or.inl (Nat.le_refl _))
  rw [hanswer] at hpolled hlands
  have hopen := hpolled.isOpen h.isOpen
  obtain ⟨hcompletes, -, -, -, -, hcalls, hblobs⟩ := hlands
  rw [h.snapshot, h.config_eq] at hcalls
  rw [h.snapshot, h.key] at hblobs
  refine ⟨hcompletes, ?_, _, ?_, hcalls⟩
  · cases hpolled with
    | unreachable _ hother => cases hother
    | aborted | lost => cases hcompletes
    | completed other hother report last snapshots hdelivered =>
      cases hother
      rw [h.snapshot, h.config_eq] at hdelivered
      exact reflects_of_delivered hlocate hcollisions h hlisted hdelivered rfl hfresh hopen hblobs
  · have hkeys := nodup_keys_diff before? listing (keys_injOn hlocate hcollisions)
      fun _ hchange => path_mem_of_change h.known hlisted hchange
    rw [dueCalls?, ← changes_diff_eq_news, Ledger.calls_eq_filterMap _ hkeys]
    exact mapM_eq_some_filterMap fun change hchange =>
      dueCall?_of_reflects h hcollisions hlisted hchange

theorem reflects_of_unreachable (hclock : ∀ site, (clock site).IsValid)
    (h : Reflects locate config paths before? engine) {e : ListerError}
    {answer : Except HarvestError PollReport × Engine}
    (hanswer : engine.poll locate never clock ⟨.error e, .succeed, false⟩ = answer) :
    answer.1.toBool = false ∧ Reflects locate config paths before? answer.2 ∧
      answer.2.site.adapter.calls = engine.site.adapter.calls := by
  have hpolled : Polled locate never engine ⟨.error e, .succeed, false⟩ _ :=
    polled_poll hclock h.isOpen _
  rw [hanswer] at hpolled
  have hopen := hpolled.isOpen h.isOpen
  cases hpolled with
  | unreachable =>
    exact ⟨rfl, ⟨hopen, h.config_eq, h.key, h.snapshot, h.stored, h.known,
      logged_meet h.logged _ _, h.rows⟩, rfl⟩
  | aborted _ hother | lost _ hother | completed _ hother => cases hother

theorem reflects_of_restart (hconfig : config.validate = .ok ())
    (h : Reflects locate config paths before? engine) :
    Reflects locate config paths before? (reopened locate config engine.site) := by
  rw [reopened_eq hconfig]
  exact ⟨⟨rfl, rfl, h.isOpen.site⟩, rfl, rfl, h.stored, h.stored, h.known, h.logged, h.rows⟩

theorem reflects_opened (locate : String → String → String) (config : HarvesterConfig)
    (paths : Set String) :
    Reflects locate config paths none ⟨openedHarvester config, .empty⟩ := by
  refine ⟨isOpen_opened config, rfl, rfl, rfl, rfl, ?_, Site.logged_empty _, ?_⟩
  · intro _ _ hknown
    cases hknown
  · intro path _
    exact ⟨fun _ => rfl, fun _ => rfl⟩

theorem issued_le_run (hclock : ∀ site, (clock site).IsValid) (hconfig : config.validate = .ok ())
    (acts : List Act) (hopen : engine.IsOpen) :
    engine.site.supply.issued ≤
      (acts.foldl (perform locate clock config) engine).site.supply.issued := by
  induction acts generalizing engine with
  | nil => exact Nat.le_refl _
  | cons act acts ih =>
    cases act with
    | poll listed =>
      have hpolled : Polled locate never engine ⟨listed, .succeed, false⟩
        (engine.poll locate never clock _) := polled_poll hclock hopen _
      exact Nat.le_trans hpolled.issued_le (ih (hpolled.isOpen hopen))
    | restart =>
      have hnext : (reopened locate config engine.site).IsOpen :=
        isOpen_reopened hconfig hopen.site
      have hreopened := ih hnext
      rw [List.foldl_cons, perform]
      rw [reopened_eq hconfig] at hreopened ⊢
      exact hreopened

/-- How a run goes on from an engine that reflects what was seen last. -/
structure RunsOn (locate : String → String → String) (clock : Site → Time.Timestamp)
    (config : HarvesterConfig) (before? : Option Snapshot) (engine : Engine) (acts : List Act) :
    Prop where
  log : dueLog? locate config.root (before?.getD .empty) engine.site.adapter.calls
      (viewsOf (polls locate clock config engine acts)) =
    some (acts.foldl (perform locate clock config) engine).site.adapter.calls
  succeeds : ∀ poll ∈ polls locate clock config engine acts, poll.2.toBool = poll.1.toBool
  state : (Playback.ofLog
      (acts.foldl (perform locate clock config) engine).site.adapter.calls).state =
    ((acts.foldl (perform locate clock config) engine).site.adapter,
      (acts.foldl (perform locate clock config) engine).site.supply)

theorem runsOn_of_reflects (hclock : ∀ site, (clock site).IsValid)
    (hconfig : config.validate = .ok ()) (hlocate : Function.Injective (locate config.root))
    (hcollisions : Set.InjOn correlationId (locate config.root '' paths)) (acts : List Act)
    (hseen : ∀ path ∈ seenPaths acts, path ∈ paths)
    (h : Reflects locate config paths before? engine)
    (hfresh : (acts.foldl (perform locate clock config) engine).site.supply.IsFresh) :
    RunsOn locate clock config before? engine acts := by
  -- What carries the induction is that each act leaves an engine which reflects what was seen last.
  induction acts generalizing before? engine with
  | nil => exact ⟨rfl, nofun, h.logged.state⟩
  | cons act acts ih =>
    have hlater : ∀ path ∈ seenPaths acts, path ∈ paths := by
      rintro path ⟨listing, hact, hpath⟩
      exact hseen path ⟨listing, List.mem_cons_of_mem _ hact, hpath⟩
    cases act with
    | restart =>
      obtain ⟨hlog, hsucceeds, hstate⟩ := ih hlater (reflects_of_restart hconfig h) hfresh
      refine ⟨?_, hsucceeds, hstate⟩
      have hsite : (reopened locate config engine.site).site = engine.site := by
        rw [reopened_eq hconfig]
      rw [hsite] at hlog
      exact hlog
    | poll listed =>
      have hpolled : Polled locate never engine ⟨listed, .succeed, false⟩
        (engine.poll locate never clock _) := polled_poll hclock h.isOpen _
      have hissued := hfresh.mono (issued_le_run hclock hconfig acts (hpolled.isOpen h.isOpen))
      generalize hanswer : engine.poll locate never clock ⟨listed, .succeed, false⟩ = answer
      have hnext : perform locate clock config engine (.poll listed) = answer.2 :=
        congrArg Prod.snd hanswer
      have hpolls : polls locate clock config engine (.poll listed :: acts) =
          (listed, answer.1) :: polls locate clock config answer.2 acts := by
        rw [polls, hanswer, hnext]
      rw [List.foldl_cons, hnext] at hfresh
      rw [hnext] at hissued
      cases listed with
      | ok listing =>
        obtain ⟨hcompletes, hreflects, calls, hdue, hcalls⟩ := reflects_of_poll hclock hlocate
          hcollisions h (fun path hpath => hseen path ⟨listing, List.mem_cons_self, hpath⟩) hanswer
          hissued
        obtain ⟨hlog, hsucceeds, hstate⟩ := ih hlater hreflects hfresh
        refine ⟨?_, ?_, ?_⟩
        · rw [hpolls, viewsOf_cons_of_ok _ _ hcompletes, dueLog?, hdue, List.foldl_cons, hnext]
          rw [hcalls] at hlog
          exact hlog
        · rw [hpolls, List.forall_mem_cons]
          exact ⟨hcompletes, hsucceeds⟩
        · rw [List.foldl_cons, hnext]
          exact hstate
      | error e =>
        obtain ⟨hfails, hreflects, hcalls⟩ := reflects_of_unreachable hclock h hanswer
        obtain ⟨hlog, hsucceeds, hstate⟩ := ih hlater hreflects hfresh
        refine ⟨?_, ?_, ?_⟩
        · rw [hpolls, viewsOf_cons_of_error, List.foldl_cons, hnext, ← hcalls]
          exact hlog
        · rw [hpolls, List.forall_mem_cons]
          exact ⟨hfails, hsucceeds⟩
        · rw [List.foldl_cons, hnext]
          exact hstate

/-- While adapter and stores work, whatever the tree looks like each time it can be listed and
wherever in between the process is restarted, all that the adapter is asked to do is what is due,
and every poll succeeds whose tree can be listed. -/
theorem adapter_is_asked_what_is_due (locate : String → String → String)
    (clock : Site → Time.Timestamp) (hclock : ∀ site, (clock site).IsValid)
    (config : HarvesterConfig) (hconfig : config.validate = .ok ()) (acts : List Act)
    (hlocate : Function.Injective (locate config.root))
    (hcollisions : Set.InjOn correlationId (locate config.root '' seenPaths acts))
    (hfresh : (run locate clock config acts).site.supply.IsFresh) :
    dueLog? locate config.root .empty []
        (viewsOf (polls locate clock config (opened locate config) acts)) =
      some (run locate clock config acts).site.adapter.calls ∧
    (∀ poll ∈ polls locate clock config (opened locate config) acts,
      poll.2.toBool = poll.1.toBool) ∧
    (Playback.ofLog (run locate clock config acts).site.adapter.calls).state =
      ((run locate clock config acts).site.adapter,
        (run locate clock config acts).site.supply) := by
  rw [run, opened_eq hconfig] at hfresh ⊢
  obtain ⟨hlog, hsucceeds, hstate⟩ := runsOn_of_reflects hclock hconfig hlocate hcollisions acts
    (fun _ hpath => hpath) (reflects_opened locate config (seenPaths acts)) hfresh
  exact ⟨hlog, hsucceeds, hstate⟩

/-- A file appears, the process is restarted, the tree cannot be reached, the file changes and
another one appears, and then the first one is gone. -/
def eventfulActs : List Act :=
  [.poll (.ok [⟨"a", ⟨1, 1⟩⟩]), .restart, .poll (.error (.unreachable "")),
    .poll (.ok [⟨"b", ⟨1, 1⟩⟩, ⟨"a", ⟨2, 2⟩⟩]), .poll (.ok [⟨"b", ⟨1, 1⟩⟩])]

theorem mem_of_mem_seenPaths_eventfulActs {path : String} (h : path ∈ seenPaths eventfulActs) :
    path ∈ ["a", "b"] := by
  obtain ⟨listing, hact, hpath⟩ := h
  obtain ⟨entry, hentry, rfl⟩ := (Snapshot.mem_paths_ofListing _ path).mp hpath
  simp only [eventfulActs, List.mem_cons, reduceCtorEq, Act.poll.injEq, Except.ok.injEq,
    List.not_mem_nil, or_false, false_or] at hact
  rcases hact with rfl | rfl | rfl
  all_goals
    simp only [List.mem_cons, List.not_mem_nil, or_false] at hentry ⊢
    rcases hentry with rfl | rfl <;> simp

def eventfulRun : Engine :=
  run StaticTree.locate Site.stopped (.ofRoot "h" "r") eventfulActs

theorem eventfulRun_summary : eventfulRun.site.supply.issued = 2 ∧
    eventfulRun.site.adapter.calls =
      [.create "r/a", .update "r/a" (UuidSupply.nth 0).text, .create "r/b",
        .delete (UuidSupply.nth 0).text] := by
  decide +kernel

theorem eventfulRun_calls_due :
    dueLog? StaticTree.locate "r" .empty [] (viewsOf (polls StaticTree.locate Site.stopped
        (.ofRoot "h" "r") (opened StaticTree.locate (.ofRoot "h" "r")) eventfulActs)) =
      some [.create "r/a", .update "r/a" (UuidSupply.nth 0).text, .create "r/b",
        .delete (UuidSupply.nth 0).text] := by
  obtain ⟨hissued, hcalls⟩ := eventfulRun_summary
  rw [eventfulRun] at hissued hcalls
  rw [← hcalls]
  refine (adapter_is_asked_what_is_due StaticTree.locate Site.stopped Site.isValid_stopped
    (.ofRoot "h" "r") rfl eventfulActs (StaticTree.locate_injective "r") ?_ ?_).1
  · have hdigests : (["r/a", "r/b"].map correlationId).Nodup := by
      decide +kernel
    have hlocations : StaticTree.locate "r" '' seenPaths eventfulActs ⊆
        { location | location ∈ ["r/a", "r/b"] } := by
      rintro _ ⟨path, hpath, rfl⟩
      exact List.mem_map_of_mem (mem_of_mem_seenPaths_eventfulActs hpath)
        (f := fun path => "r/" ++ path)
    exact Set.InjOn.mono hlocations fun _ hone _ hother =>
      List.inj_on_of_nodup_map hdigests hone hother
  · refine UuidSupply.isFresh_of_le ?_
    rw [hissued]
    decide

end Engine

end CatalogSync
