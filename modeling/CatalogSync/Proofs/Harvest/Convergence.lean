import CatalogSync.Lister.Static
import CatalogSync.Proofs.Harvest.Tracking
import CatalogSync.Proofs.Lister.Locate

namespace CatalogSync.Engine

open Site (never)

variable {locate : String → String → String} {clock : Site → Time.Timestamp}

/-- A poll that completes, with what has gone before. -/
structure Completion where
  /-- The snapshot that changes are told from. -/
  before : Option Snapshot
  /-- What the polls had seen that were abandoned since then. -/
  abandoned : List Snapshot
  /-- All polls up to this one. -/
  polls : List Observed
  now : Snapshot
  site : Site

namespace Completion

/-- The catalog is in step with what the poll has seen. -/
def InStep (locate : String → String → String) (root : String) (completion : Completion) : Prop :=
  Engine.InStep locate root completion.polls completion.now completion.site

def Converges (completion : Completion) : Prop :=
  ∀ path, ConvergesAt completion.before completion.abandoned completion.now path

theorem converges_of_eq {completion : Completion}
    (h : ∀ view ∈ completion.abandoned, view = completion.now) : completion.Converges :=
  fun path => convergesAt_of_eq h path

end Completion

def completions (before : Option Snapshot) (abandoned : List Snapshot) (past : List Observed) :
    List Observed → List Completion
  | [] => []
  | observed :: rest =>
    match observed.listed, observed.result with
    | .ok _, .ok _ =>
      ⟨before, abandoned, past ++ [observed], observed.view, observed.after⟩ ::
        completions (some observed.view) [] (past ++ [observed]) rest
    | .ok _, .error _ =>
      completions before (abandoned ++ [observed.view]) (past ++ [observed]) rest
    | .error _, _ => completions before abandoned (past ++ [observed]) rest

def listedPaths (rounds : List Round) : Set String :=
  { path | ∃ round ∈ rounds, ∃ listing, round.listed = .ok listing ∧
      path ∈ (Snapshot.ofListing listing).paths }

/-- Where an engine stands after some polls, as long as all that were completed have converged. -/
structure Follows (locate : String → String → String) (root : String) (paths : Set String)
    (past : List Observed) (abandoned : List Snapshot) (engine : Engine) : Prop where
  isOpen : engine.IsOpen
  root_eq : engine.harvester.config.root = root
  known : ∀ path fingerprint, fingerprint? engine.harvester.snapshot path = some fingerprint →
    path ∈ paths
  tracks : Tracks locate root paths past (heldSince engine.harvester.snapshot abandoned) engine.site

theorem listedPaths_cons {round : Round} {rounds : List Round} {path : String}
    (h : path ∈ listedPaths rounds) : path ∈ listedPaths (round :: rounds) := by
  obtain ⟨other, hother, hlisted⟩ := h
  exact ⟨other, List.mem_cons_of_mem _ hother, hlisted⟩

section Run

variable {root : String} {paths : Set String} {past : List Observed} {abandoned : List Snapshot}
  {engine after : Engine} {round : Round} {listing : List ListingEntry} {last : Site}

theorem tracks_meet {held : String → Option Fingerprint} {site : Site}
    (h : Tracks locate root paths past held site) (round : Round) :
    Tracks locate root paths past held (site.meet round) :=
  ⟨⟨h.mirrors.row_of_record, h.mirrors.record_of_row⟩, h.keys, h.holds, h.listed⟩

theorem tracks_snapshots {held : String → Option Fingerprint} {site : Site}
    (h : Tracks locate root paths past held site) (snapshots : MemoryStore) :
    Tracks locate root paths past held { site with snapshots := snapshots } :=
  ⟨⟨h.mirrors.row_of_record, h.mirrors.record_of_row⟩, h.keys, h.holds, h.listed⟩

theorem tracks_of_quiet {held : String → Option Fingerprint} {site : Site} {observed : Observed}
    (h : Tracks locate root paths past held site) (hcalls : observed.calls = []) :
    Tracks locate root paths (past ++ [observed]) held site := by
  refine ⟨h.mirrors, h.keys, fun path hpath => held_of_quiet (h.holds path hpath) rfl ?_, h.listed⟩
  rw [hcalls]
  intro _ hcall
  cases hcall

theorem tracks_of_delivered {observed : Observed}
    (hkeys : Set.InjOn (fun path => correlationId (locate root path)) paths)
    (hpaths : ∀ path ∈ (Snapshot.ofListing listing).paths, path ∈ paths)
    (h : Follows locate root paths past abandoned engine) (hbehavior : round.behavior = .succeed)
    (hdelivered : Deliveries locate never engine.harvester.config.root
      (diff engine.harvester.snapshot listing).changes (engine.site.meet round) (.ok ()) last)
    (hfresh : last.supply.IsFresh) (hlisted : observed.listed = .ok listing)
    (hcalls : observed.calls = last.adapter.calls.drop engine.site.adapter.calls.length) :
    Tracks locate root paths (past ++ [observed])
      (heldSince engine.harvester.snapshot (abandoned ++ [observed.view])) last := by
  have hsite : (engine.site.meet round).WellFormed := ⟨h.isOpen.site.readable, h.isOpen.site.issued⟩
  have hview : observed.view = .ofListing listing := by
    rw [Observed.view, hlisted]
  rw [h.root_eq] at hdelivered
  have htracks := tracks_of_deliveries hkeys h.known hpaths hsite hfresh hbehavior
    (tracks_meet h.tracks round) hdelivered hcalls hview
  have hheld : heldSince engine.harvester.snapshot (abandoned ++ [observed.view]) = fun path =>
      heldAfter (fingerprint? engine.harvester.snapshot path) (observed.view.get? path)
        (heldSince engine.harvester.snapshot abandoned path) := by
    funext path
    exact heldSince_append _ _ _ path
  rw [hheld]
  exact htracks

theorem follows_of_converges {observed : Observed} {site : Site}
    (hopen : (⟨engine.harvester.withListing listing, site⟩ : Engine).IsOpen)
    (hroot : engine.harvester.config.root = root)
    (hpaths : ∀ path ∈ (Snapshot.ofListing listing).paths, path ∈ paths)
    (hview : observed.view = .ofListing listing)
    (htracks : Tracks locate root paths (past ++ [observed])
      (heldSince engine.harvester.snapshot (abandoned ++ [observed.view])) site)
    (hconverges : ∀ path, ConvergesAt engine.harvester.snapshot abandoned observed.view path) :
    Follows locate root paths (past ++ [observed]) []
      ⟨engine.harvester.withListing listing, site⟩ := by
  refine ⟨hopen, hroot, ?_, ?_⟩
  · intro path fingerprint hfingerprint
    exact hpaths path ((Snapshot.mem_paths_iff _ _).mpr ⟨fingerprint, hfingerprint⟩)
  · have hheld : heldSince engine.harvester.snapshot (abandoned ++ [observed.view]) =
        heldSince (some (.ofListing listing)) [] := by
      funext path
      rw [(heldSince_eq_iff _ _ _ path).mpr (hconverges path), hview]
      rfl
    rw [hheld] at htracks
    exact htracks

/-- What a poll means for a run in which all completed polls have converged so far. -/
inductive Advances (locate : String → String → String) (root : String) (paths : Set String)
    (past : List Observed) (abandoned : List Snapshot) (engine : Engine) (observed : Observed)
    (after : Engine) : Prop where
  | unfinished (views : List Snapshot)
      (hrest : ∀ rest, completions engine.harvester.snapshot abandoned past (observed :: rest) =
        completions after.harvester.snapshot views (past ++ [observed]) rest)
      (hnext : Follows locate root paths (past ++ [observed]) views after) :
      Advances locate root paths past abandoned engine observed after
  | completed (completion : Completion)
      (hrest : ∀ rest, completions engine.harvester.snapshot abandoned past (observed :: rest) =
        completion :: completions after.harvester.snapshot [] (past ++ [observed]) rest)
      (hstep : completion.InStep locate root ↔ completion.Converges)
      (hnext : completion.Converges → Follows locate root paths (past ++ [observed]) [] after) :
      Advances locate root paths past abandoned engine observed after

theorem advances_of_polled {observed : Observed} {result : Except HarvestError PollReport}
    (hkeys : Set.InjOn (fun path => correlationId (locate root path)) paths)
    (hpaths : ∀ listing, round.listed = .ok listing →
      ∀ path ∈ (Snapshot.ofListing listing).paths, path ∈ paths)
    (hbehavior : round.behavior = .succeed)
    (h : Follows locate root paths past abandoned engine)
    (hpolled : Polled locate never engine round (result, after))
    (hfresh : after.site.supply.IsFresh) (hlisting : observed.listed = round.listed)
    (hresult : observed.result = result) (hafter : observed.after = after.site)
    (hcalls : observed.calls =
      after.site.adapter.calls.drop engine.site.adapter.calls.length) :
    Advances locate root paths past abandoned engine observed after := by
  have hopen := hpolled.isOpen h.isOpen
  have hroot := (congrArg HarvesterConfig.root hpolled.config).trans h.root_eq
  cases hpolled with
  | unreachable e hlisted =>
    have hquiet : observed.calls = [] := hcalls.trans List.drop_length
    refine .unfinished abandoned ?_ ⟨hopen, hroot, h.known,
      tracks_of_quiet (tracks_meet h.tracks round) hquiet⟩
    intro rest
    simp only [completions, hlisting, hlisted]
  | aborted _ _ _ _ hdelivered => cases hdelivered.result_eq_ok
  | lost listing hlisted e last snapshots hdelivered =>
    have htracks := tracks_of_delivered hkeys (hpaths listing hlisted) h hbehavior hdelivered hfresh
      (hlisting.trans hlisted) hcalls
    refine .unfinished (abandoned ++ [observed.view]) ?_ ⟨hopen, hroot, h.known,
      tracks_snapshots htracks snapshots⟩
    intro rest
    simp only [completions, hlisting, hlisted, hresult]
  | completed listing hlisted report last snapshots hdelivered =>
    have htracks := tracks_snapshots (tracks_of_delivered hkeys (hpaths listing hlisted) h hbehavior
      hdelivered hfresh (hlisting.trans hlisted) hcalls) snapshots
    have hview : observed.view = .ofListing listing := by
      rw [Observed.view, hlisting, hlisted]
    refine .completed ⟨engine.harvester.snapshot, abandoned, past ++ [observed], observed.view,
      observed.after⟩ ?_ ?_ ?_
    · intro rest
      simp only [completions, hlisting, hlisted, hresult]
      rw [hview]
      rfl
    · rw [Completion.InStep, hafter]
      refine (inStep_iff hkeys htracks (hview ▸ hpaths listing hlisted)).trans ?_
      exact forall_congr' fun path => heldSince_eq_iff _ _ _ path
    · intro hconverges
      exact follows_of_converges hopen hroot (hpaths listing hlisted) hview htracks hconverges

theorem inStep_iff_converges_observeAll (hclock : ∀ site, (clock site).IsValid)
    (hkeys : Set.InjOn (fun path => correlationId (locate root path)) paths) (rounds : List Round)
    (hsucceeds : ∀ round ∈ rounds, round.behavior = .succeed)
    (hpaths : ∀ path ∈ listedPaths rounds, path ∈ paths)
    (h : Follows locate root paths past abandoned engine)
    (hfresh : (engine.pollAll locate never clock rounds).site.supply.IsFresh) :
    (∀ completion ∈ completions engine.harvester.snapshot abandoned past
        (engine.observeAll locate never clock rounds), completion.InStep locate root) ↔
      ∀ completion ∈ completions engine.harvester.snapshot abandoned past
        (engine.observeAll locate never clock rounds), completion.Converges := by
  induction rounds generalizing engine past abandoned with
  | nil => simp [observeAll, completions]
  | cons round rounds ih =>
    rw [pollAll_cons] at hfresh
    have hpolled : Polled locate never engine round (engine.poll locate never clock round) :=
      polled_poll hclock h.isOpen round
    have hissued := hfresh.mono (issued_le_pollAll hclock rounds (hpolled.isOpen h.isOpen))
    have hseen : ∀ listing, round.listed = .ok listing →
        ∀ path ∈ (Snapshot.ofListing listing).paths, path ∈ paths :=
          fun listing hlisted path hpath =>
      hpaths path ⟨round, List.mem_cons_self, listing, hlisted, hpath⟩
    have hadvances : Advances locate root paths past abandoned engine
        (engine.observe locate never clock round) (engine.poll locate never clock round).2 :=
      advances_of_polled hkeys hseen (hsucceeds round List.mem_cons_self) h hpolled hissued rfl rfl
        rfl
        rfl
    have hlater := fun {past abandoned} => @ih past abandoned
      (engine.poll locate never clock round).2
      (fun round hround => hsucceeds round (List.mem_cons_of_mem _ hround))
      (fun path hpath => hpaths path (listedPaths_cons hpath))
    rw [observeAll]
    cases hadvances with
    | unfinished views hrest hnext =>
      rw [hrest]
      exact hlater hnext hfresh
    | completed completion hrest hstep hnext =>
      rw [hrest, List.forall_mem_cons, List.forall_mem_cons]
      -- Behind a poll that has not converged nothing is tracked any more, but then both sides fail.
      refine (and_congr_left' hstep).trans (and_congr_right fun hconverges => ?_)
      exact hlater (hnext hconverges) hfresh

end Run

theorem follows_opened (locate : String → String → String) (config : HarvesterConfig)
    (paths : Set String) :
    Follows locate config.root paths [] [] ⟨openedHarvester config, .empty⟩ := by
  refine ⟨isOpen_opened config, rfl, ?_, .empty, ?_, ?_, ?_⟩
  · intro _ _ hknown
    cases hknown
  · intro _ _ hrow
    cases hrow
  · intro path hpath
    exact rfl
  · intro _ _ hheld
    cases hheld

/-- Where each write of a snapshot may fail and the tree may be different each time, but the adapter
and the map work, the catalog is in step after every completed poll exactly if every completed poll
converges. -/
theorem catalog_inStep_iff_converges (locate : String → String → String)
    (clock : Site → Time.Timestamp) (hclock : ∀ site, (clock site).IsValid)
    (config : HarvesterConfig) (hconfig : config.validate = .ok ()) (rounds : List Round)
    (hsucceeds : ∀ round ∈ rounds, round.behavior = .succeed)
    (hlocate : Function.Injective (locate config.root))
    (hcollisions : Set.InjOn correlationId (locate config.root '' listedPaths rounds))
    (hfresh : ((opened locate config).pollAll locate never clock rounds).site.supply.IsFresh) :
    (∀ completion ∈ completions none [] [] ((opened locate config).observeAll locate never clock
        rounds), completion.InStep locate config.root) ↔
      ∀ completion ∈ completions none [] [] ((opened locate config).observeAll locate never clock
        rounds), completion.Converges := by
  have hkeys : Set.InjOn (fun path => correlationId (locate config.root path))
      (listedPaths rounds) := hcollisions.comp hlocate.injOn (Set.mapsTo_image _ _)
  rw [opened_eq hconfig] at hfresh ⊢
  exact inStep_iff_converges_observeAll hclock hkeys rounds hsucceeds (fun _ hpath => hpath)
    (follows_opened locate config (listedPaths rounds)) hfresh

/-- Polls of a root with a file that is gone when the snapshot can be stored again. -/
def vanishingPolls : List Observed :=
  (opened StaticTree.locate (.ofRoot "h" "r")).observeAll StaticTree.locate never Site.stopped
    [⟨.ok [⟨"a", ⟨1, 1⟩⟩], .succeed, true⟩, ⟨.ok [], .succeed, false⟩]

theorem vanishingPolls_summary :
    ((completions none [] [] vanishingPolls).map fun completion =>
      (completion.now.paths, completion.site.adapter.records.entries.map Prod.snd)) =
        [([], ["r/a"])] := by
  decide +kernel

/-- The second poll completes and has seen no file, but the record of the first one stays. -/
theorem record_stays_of_vanished_path :
    ∃ completion ∈ completions none [] [] vanishingPolls, completion.now.paths = [] ∧
      completion.site.adapter.records.entries.map Prod.snd = ["r/a"] ∧
      ¬ completion.InStep StaticTree.locate "r" := by
  have hsummary := vanishingPolls_summary
  generalize completions none [] [] vanishingPolls = polls at hsummary ⊢
  rcases polls with _ | ⟨completion, rest⟩
  · cases hsummary
  · simp only [List.map_cons, List.cons.injEq, Prod.mk.injEq] at hsummary
    obtain ⟨⟨hpaths, hrecords⟩, -⟩ := hsummary
    refine ⟨completion, List.mem_cons_self, hpaths, hrecords, fun hstep => ?_⟩
    have hlength := hstep.records.length_eq
    rw [hrecords, hpaths] at hlength
    cases hlength

/-- Polls of a root with a file that stays, where the first snapshot cannot be stored. -/
def steadyRounds : List Round :=
  [⟨.ok [⟨"a", ⟨1, 1⟩⟩], .succeed, true⟩, ⟨.ok [⟨"a", ⟨1, 1⟩⟩], .succeed, false⟩]

theorem eq_of_mem_listedPaths_steadyRounds {path : String} (h : path ∈ listedPaths steadyRounds) :
    path = "a" := by
  obtain ⟨round, hround, listing, hlisted, hpath⟩ := h
  have hlisting : listing = [⟨"a", ⟨1, 1⟩⟩] := by
    rcases List.mem_pair.mp hround with rfl | rfl
    · exact (Except.ok.inj hlisted).symm
    · exact (Except.ok.inj hlisted).symm
  subst hlisting
  obtain ⟨entry, hentry, rfl⟩ := (Snapshot.mem_paths_ofListing _ path).mp hpath
  rw [List.mem_singleton.mp hentry]

def steadyPolls : List Observed :=
  (opened StaticTree.locate (.ofRoot "h" "r")).observeAll StaticTree.locate never Site.stopped
    steadyRounds

theorem steadyPolls_unmoved :
    ((completions none [] [] steadyPolls).map fun completion => completion.abandoned.length) = [1] ∧
      ∀ completion ∈ completions none [] [] steadyPolls, ∀ view ∈ completion.abandoned,
        view.table.entries = completion.now.table.entries := by
  decide +kernel

theorem inStep_of_steadyPolls :
    ∃ completion ∈ completions none [] [] steadyPolls, completion.abandoned.length = 1 ∧
      completion.InStep StaticTree.locate "r" := by
  obtain ⟨hlengths, hunmoved⟩ := steadyPolls_unmoved
  have hsteps : ∀ completion ∈ completions none [] [] steadyPolls,
      completion.InStep StaticTree.locate "r" := by
    refine (catalog_inStep_iff_converges StaticTree.locate Site.stopped Site.isValid_stopped
      (.ofRoot "h" "r") rfl steadyRounds (by decide) (StaticTree.locate_injective "r") ?_
      (UuidSupply.isFresh_of_le (by decide +kernel))).mpr ?_
    · rintro _ ⟨path, hpath, rfl⟩ _ ⟨other, hother, rfl⟩ -
      rw [eq_of_mem_listedPaths_steadyRounds hpath, eq_of_mem_listedPaths_steadyRounds hother]
    · intro completion hcompletion
      refine Completion.converges_of_eq fun view hview => ?_
      exact Snapshot.ext_table (Table.ext_entries (hunmoved completion hcompletion view hview))
  generalize completions none [] [] steadyPolls = polls at hlengths hsteps
  rcases polls with _ | ⟨completion, rest⟩
  · cases hlengths
  · exact ⟨completion, List.mem_cons_self, (List.cons.inj hlengths).1,
      hsteps completion List.mem_cons_self⟩

end CatalogSync.Engine
