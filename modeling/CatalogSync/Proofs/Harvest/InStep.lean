import CatalogSync.Proofs.Harvest.Engine
import CatalogSync.Proofs.Listener.Effect
import CatalogSync.Proofs.Snapshot.Changes

namespace CatalogSync.Engine

variable {locate : String → String → String}

def Observed.view (observed : Observed) : Snapshot :=
  match observed.listed with
  | .ok listing => .ofListing listing
  | .error _ => .empty

/-- Whether a record was created or updated during a poll. The adapter does whatever it is told
about a record that is still there, so that calls count as done. -/
def Observed.writes (observed : Observed) (location id : String) : Bool :=
  observed.calls.any fun call => call = .create location ∨ call = .update location id

/-- The last poll during which a record was created or updated. -/
def lastWriter? (polls : List Observed) (location id : String) : Option Observed :=
  polls.foldl (fun last observed => if observed.writes location id then some observed else last)
    none

/-- The catalog is in step with a view: there is one live record at the location of each of its
paths and no other one, and the last poll in which the record was created or updated had seen the
path as it is in the view. -/
structure InStep (locate : String → String → String) (root : String) (polls : List Observed)
    (now : Snapshot) (site : Site) : Prop where
  records : (site.adapter.records.entries.map Prod.snd).Perm (now.paths.map (locate root))
  current : ∀ id path fingerprint, site.record? id = some (locate root path) →
    now.get? path = some fingerprint → ∃ observed,
      lastWriter? polls (locate root path) id = some observed ∧
        observed.view.get? path = some fingerprint

/-- What is held of a path: nothing if it is not mapped, and otherwise what the poll had seen of it
during which its record was created or updated last. -/
def Held (locate : String → String → String) (root : String) (past : List Observed) (site : Site)
    (path : String) : Option Fingerprint → Prop
  | none => site.row? (correlationId (locate root path)) = none
  | some fingerprint => ∃ row observed,
      site.row? (correlationId (locate root path)) = some row ∧ row.location = locate root path ∧
        lastWriter? past (locate root path) row.downstreamId = some observed ∧
          observed.view.get? path = some fingerprint

/-- What is known of a site while paths of some set come and go. -/
structure Tracks (locate : String → String → String) (root : String) (paths : Set String)
    (past : List Observed) (held : String → Option Fingerprint) (site : Site) : Prop where
  mirrors : site.Mirrors
  keys : ∀ key row, site.row? key = some row →
    ∃ path ∈ paths, key = correlationId (locate root path)
  holds : ∀ path ∈ paths, Held locate root past site path (held path)
  listed : ∀ path fingerprint, held path = some fingerprint → path ∈ paths

theorem lastWriter?_concat (polls : List Observed) (observed : Observed) (location id : String) :
    lastWriter? (polls ++ [observed]) location id =
      if observed.writes location id then some observed else lastWriter? polls location id := by
  rw [lastWriter?, List.foldl_append]
  rfl

theorem writes_eq_false {observed : Observed} {location id : String}
    (h : ∀ call ∈ observed.calls, call.location? ≠ some location) :
    observed.writes location id = false := by
  refine List.any_eq_false.mpr ?_
  intro call hcall hwrites
  rcases of_decide_eq_true hwrites with rfl | rfl
  · exact h _ hcall rfl
  · exact h _ hcall rfl

theorem writes_eq_true {observed : Observed} {location id : String}
    (h : .create location ∈ observed.calls ∨ .update location id ∈ observed.calls) :
    observed.writes location id = true := by
  refine List.any_eq_true.mpr ?_
  rcases h with h | h
  · exact ⟨_, h, decide_eq_true (Or.inl rfl)⟩
  · exact ⟨_, h, decide_eq_true (Or.inr rfl)⟩

section Tracks

variable {root : String} {paths : Set String} {past : List Observed}
  {held : String → Option Fingerprint} {site : Site}

theorem mem_locations_iff (site : Site) (location : String) :
    location ∈ site.adapter.records.entries.map Prod.snd ↔
      ∃ id, site.record? id = some location := by
  rw [List.mem_map]
  constructor
  · rintro ⟨⟨id, _⟩, hentry, rfl⟩
    exact ⟨id, (Table.get?_eq_some_iff _ _ _).mpr hentry⟩
  · rintro ⟨id, hrecord⟩
    exact ⟨(id, location), (Table.get?_eq_some_iff _ _ _).mp hrecord, rfl⟩

theorem nodup_locations (h : site.Mirrors) :
    (site.adapter.records.entries.map Prod.snd).Nodup := by
  refine List.Nodup.map_on ?_ (List.Nodup.of_map _ (Table.nodup_keys site.adapter.records))
  rintro ⟨id, location⟩ hentry ⟨other, _⟩ hother rfl
  obtain ⟨row, hrow, rfl⟩ :=
    h.row_of_record id location ((Table.get?_eq_some_iff _ _ _).mpr hentry)
  obtain ⟨row', hrow', rfl⟩ :=
    h.row_of_record other location ((Table.get?_eq_some_iff _ _ _).mpr hother)
  rw [hrow] at hrow'
  rw [Option.some.inj hrow']

theorem Tracks.mem_locations_iff (h : Tracks locate root paths past held site) (location : String) :
    location ∈ site.adapter.records.entries.map Prod.snd ↔
      ∃ path, held path ≠ none ∧ locate root path = location := by
  rw [Engine.mem_locations_iff]
  constructor
  · rintro ⟨id, hrecord⟩
    obtain ⟨row, hrow, rfl⟩ := h.mirrors.row_of_record id location hrecord
    obtain ⟨path, hpath, hkey⟩ := h.keys _ row hrow
    have hholds := h.holds path hpath
    rw [hkey] at hrow
    cases hheld : held path with
    | none =>
      rw [hheld, Held, hrow] at hholds
      cases hholds
    | some fingerprint =>
      rw [hheld] at hholds
      obtain ⟨row', observed, hrow', hlocation, -, -⟩ := hholds
      obtain rfl := Option.some.inj (hrow.symm.trans hrow')
      have hlive := (h.mirrors.record_of_row _ row hrow).2
      rw [hrecord, Option.some.injEq] at hlive
      refine ⟨path, ?_, hlocation.symm.trans hlive.symm⟩
      rw [hheld]
      exact Option.some_ne_none _
  · rintro ⟨path, hheld, rfl⟩
    obtain ⟨fingerprint, hheld⟩ := Option.ne_none_iff_exists'.mp hheld
    have hholds := h.holds path (h.listed path fingerprint hheld)
    rw [hheld] at hholds
    obtain ⟨row, observed, hrow, hlocation, -, -⟩ := hholds
    exact ⟨row.downstreamId, hlocation ▸ (h.mirrors.record_of_row _ row hrow).2⟩

theorem locate_injOn (hkeys : Set.InjOn (fun path => correlationId (locate root path)) paths) :
    Set.InjOn (locate root) paths := by
  intro path hpath other hother hsame
  exact hkeys hpath hother (congrArg correlationId hsame)

theorem held_eq_of_inStep
    (hkeys : Set.InjOn (fun path => correlationId (locate root path)) paths)
    (h : Tracks locate root paths past held site) {now : Snapshot}
    (hnow : ∀ path ∈ now.paths, path ∈ paths) (hstep : InStep locate root past now site)
    (path : String) : held path = now.get? path := by
  have hlive := (h.mem_locations_iff (locate root path)).symm.trans hstep.records.mem_iff
  rw [List.mem_map] at hlive
  cases hheld : held path with
  | none =>
    by_contra hseen
    obtain ⟨fingerprint, hseen⟩ := Option.ne_none_iff_exists'.mp (Ne.symm hseen)
    have hmem := (Snapshot.mem_paths_iff now path).mpr ⟨fingerprint, hseen⟩
    obtain ⟨other, hother, hsame⟩ := hlive.mpr ⟨path, hmem, rfl⟩
    obtain ⟨held', hheld'⟩ := Option.ne_none_iff_exists'.mp hother
    rw [locate_injOn hkeys (h.listed other held' hheld') (hnow path hmem) hsame, hheld] at hother
    exact hother rfl
  | some fingerprint =>
    have hpath := h.listed path fingerprint hheld
    obtain ⟨other, hother, hsame⟩ := hlive.mp ⟨path, by rw [hheld]; exact nofun, rfl⟩
    obtain rfl := locate_injOn hkeys (hnow other hother) hpath hsame
    obtain ⟨seen, hseen⟩ := (Snapshot.mem_paths_iff now other).mp hother
    have hholds := h.holds other hpath
    rw [hheld] at hholds
    obtain ⟨row, observed, hrow, hlocation, hwriter, hview⟩ := hholds
    have hrecord := (h.mirrors.record_of_row _ row hrow).2
    rw [hlocation] at hrecord
    obtain ⟨observed', hwriter', hview'⟩ := hstep.current _ other seen hrecord hseen
    rw [hwriter, Option.some.injEq] at hwriter'
    rw [hseen, ← hview', ← hwriter', hview]

theorem inStep_of_held_eq
    (hkeys : Set.InjOn (fun path => correlationId (locate root path)) paths)
    (h : Tracks locate root paths past held site) {now : Snapshot}
    (hnow : ∀ path ∈ now.paths, path ∈ paths) (heq : ∀ path, held path = now.get? path) :
    InStep locate root past now site := by
  constructor
  · have hpaths : (now.paths.map (locate root)).Nodup := by
      refine List.Nodup.map_on ?_ (Table.nodup_keys _)
      intro path hpath other hother hsame
      exact locate_injOn hkeys (hnow path hpath) (hnow other hother) hsame
    refine (List.perm_ext_iff_of_nodup (nodup_locations h.mirrors) hpaths).mpr fun location => ?_
    rw [h.mem_locations_iff, List.mem_map]
    refine exists_congr fun path => and_congr_left fun _ => ?_
    rw [heq, Snapshot.mem_paths_iff, Option.ne_none_iff_exists']
  · intro id path fingerprint hrecord hseen
    have hheld := (heq path).trans hseen
    have hholds := h.holds path (h.listed path fingerprint hheld)
    rw [hheld] at hholds
    obtain ⟨row, observed, hrow, -, hwriter, hview⟩ := hholds
    obtain ⟨row', hrow', rfl⟩ := h.mirrors.row_of_record id _ hrecord
    obtain rfl := Option.some.inj (hrow.symm.trans hrow')
    exact ⟨observed, hwriter, hview⟩

/-- The catalog is in step with a view exactly if the view is what is held. -/
theorem inStep_iff (hkeys : Set.InjOn (fun path => correlationId (locate root path)) paths)
    (h : Tracks locate root paths past held site) {now : Snapshot}
    (hnow : ∀ path ∈ now.paths, path ∈ paths) :
    InStep locate root past now site ↔ ∀ path, held path = now.get? path :=
  ⟨held_eq_of_inStep hkeys h hnow, inStep_of_held_eq hkeys h hnow⟩

end Tracks

end CatalogSync.Engine
