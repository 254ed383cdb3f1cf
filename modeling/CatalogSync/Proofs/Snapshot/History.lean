import CatalogSync.Proofs.Snapshot.Changes
import CatalogSync.Proofs.Snapshot.Codec
import Mathlib.Computability.Language
import Mathlib.Data.Finset.Insert

/-!
The changes of many listings, one after the other, where every view is stored and read back before
the next listing is compared with it. Whoever replays them from the beginning never meets a change
that does not fit what he has, and ends with the paths that were listed last; so every path is
created, then modified any number of times, then deleted, and so on.
-/

namespace CatalogSync

open Computability

/-- The diffs of some listings, each from the view of the one before as it is read back. -/
def diffsSince (previous : Option Snapshot) :
    List (List ListingEntry) → Except SnapshotError (List Diff)
  | [] => .ok []
  | listing :: listings => do
    let found := diff previous listing
    let stored ← Snapshot.decode found.next.encode
    return found :: (← diffsSince (some stored) listings)

/-- The changes of some diffs in order. -/
def changesIn (diffs : List Diff) : List Change :=
  diffs.flatMap Diff.changes

/-- The paths that are there after a change, if the change fits those that were there before. -/
def Change.replay? (paths : Finset String) (change : Change) : Option (Finset String) :=
  match change.kind with
  | .created => if change.path ∈ paths then none else some (insert change.path paths)
  | .modified => if change.path ∈ paths then some paths else none
  | .deleted => if change.path ∈ paths then some (paths.erase change.path) else none

def replayAll? (paths : Finset String) (changes : List Change) : Option (Finset String) :=
  changes.foldlM Change.replay? paths

/-- What happens to one path, in order. -/
def kindsOf (path : String) (changes : List Change) : List ChangeKind :=
  (changes.filter fun change => change.path = path).map Change.kind

/-- From the creation of a path to its deletion. -/
def life : Language ChangeKind :=
  {[.created]} * {[.modified]}∗ * {[.deleted]}

/-- The beginnings of any number of lives. -/
def histories : Language ChangeKind :=
  {kinds | ∃ rest, kinds ++ rest ∈ life∗}

section Replay

variable {paths after : Finset String} {change : Change} {changes : List Change}

theorem replayAll?_cons (paths : Finset String) (change : Change) (changes : List Change) :
    replayAll? paths (change :: changes) =
      (change.replay? paths).bind fun after => replayAll? after changes := rfl

theorem replayAll?_append (paths : Finset String) (changes more : List Change) :
    replayAll? paths (changes ++ more) =
      (replayAll? paths changes).bind fun after => replayAll? after more :=
  List.foldlM_append ..

/-- What a change asks of the paths that are there. -/
def Change.Fits (paths : Finset String) (change : Change) : Prop :=
  change.path ∈ paths ↔ change.kind ≠ .created

theorem Change.replay?_of_fits (h : change.Fits paths) :
    ∃ after, change.replay? paths = some after ∧ ∀ path, path ∈ after ↔
      change = ⟨.created, path⟩ ∨ path ∈ paths ∧ change ≠ ⟨.deleted, path⟩ := by
  obtain ⟨kind, path⟩ := change
  cases kind with
  | created =>
    have habsent : path ∉ paths := fun hpath => h.mp hpath rfl
    refine ⟨insert path paths, if_neg habsent, fun other => ?_⟩
    simp [eq_comm]
  | modified =>
    have hpath : path ∈ paths := h.mpr nofun
    refine ⟨paths, if_pos hpath, fun other => ?_⟩
    simp
  | deleted =>
    have hpath : path ∈ paths := h.mpr nofun
    refine ⟨paths.erase path, if_pos hpath, fun other => ?_⟩
    simp [and_comm, eq_comm]

theorem Change.of_replay?_eq_some (h : change.replay? paths = some after) :
    change.Fits paths ∧ (∀ path, path ≠ change.path → (path ∈ after ↔ path ∈ paths)) ∧
      (change.path ∈ after ↔ change.kind ≠ .deleted) := by
  obtain ⟨kind, path⟩ := change
  cases kind with
  | created =>
    obtain ⟨habsent, rfl⟩ : path ∉ paths ∧ insert path paths = after := by
      simpa [Change.replay?] using h
    refine ⟨by simp [Change.Fits, habsent], fun other hother => ?_, by simp⟩
    simp [hother]
  | modified =>
    obtain ⟨hpath, rfl⟩ : path ∈ paths ∧ paths = after := by simpa [Change.replay?] using h
    exact ⟨by simp [Change.Fits, hpath], fun _ _ => Iff.rfl, by simp [hpath]⟩
  | deleted =>
    obtain ⟨hpath, rfl⟩ : path ∈ paths ∧ paths.erase path = after := by
      simpa [Change.replay?] using h
    refine ⟨by simp [Change.Fits, hpath], fun other hother => ?_, by simp⟩
    simp [hother]

theorem replayAll?_of_fits (hnodup : (changes.map Change.path).Nodup)
    (hfits : ∀ change ∈ changes, change.Fits paths) :
    ∃ after, replayAll? paths changes = some after ∧ ∀ path, path ∈ after ↔
      ⟨.created, path⟩ ∈ changes ∨ path ∈ paths ∧ ⟨.deleted, path⟩ ∉ changes := by
  induction changes generalizing paths with
  | nil => exact ⟨paths, rfl, by simp⟩
  | cons change changes ih =>
    obtain ⟨hother, hnodup⟩ := List.nodup_cons.mp hnodup
    obtain ⟨middle, hmiddle, hmem⟩ := Change.replay?_of_fits (hfits change List.mem_cons_self)
    have hkept : ∀ later ∈ changes, later.Fits middle := by
      intro later hlater
      have hne : change.path ≠ later.path := fun heq =>
        hother (List.mem_map.mpr ⟨later, hlater, heq.symm⟩)
      have hsame := (Change.of_replay?_eq_some hmiddle).2.1 later.path (Ne.symm hne)
      exact hsame.trans (hfits later (List.mem_cons_of_mem _ hlater))
    obtain ⟨after, hafter, hlast⟩ := ih hnodup hkept
    refine ⟨after, ?_, fun path => ?_⟩
    · rw [replayAll?_cons, hmiddle, Option.bind_some, hafter]
    · rw [hlast, hmem, List.mem_cons, List.mem_cons, not_or]
      -- A path that the first change creates is not deleted by another one.
      have honce : change = ⟨.created, path⟩ → ⟨.deleted, path⟩ ∉ changes := by
        rintro rfl hdeleted
        exact hother (List.mem_map.mpr ⟨_, hdeleted, rfl⟩)
      grind

end Replay

section Diffs

/-- The paths of a view, if there is one. -/
def pathsOf (view : Option Snapshot) : Finset String :=
  view.elim ∅ fun snapshot => snapshot.paths.toFinset

theorem mem_pathsOf_iff (view : Option Snapshot) (path : String) :
    path ∈ pathsOf view ↔ fingerprint? view path ≠ none := by
  cases view with
  | none => simp [pathsOf, fingerprint?]
  | some snapshot =>
    rw [pathsOf, Option.elim_some, List.mem_toFinset, Snapshot.mem_paths_iff, fingerprint?,
      Option.bind_some, Option.ne_none_iff_exists']

theorem fits_of_mem_diff {previous : Option Snapshot} {listing : List ListingEntry}
    {change : Change}
    (h : change ∈ (diff previous listing).changes) : change.Fits (pathsOf previous) := by
  rw [mem_diff_iff] at h
  rw [Change.Fits, mem_pathsOf_iff]
  obtain ⟨kind, path⟩ := change
  cases kind with
  | created => simp [(changeKind?_eq_created_iff.mp h).1]
  | modified => simp [(changeKind?_eq_modified_iff.mp h).1]
  | deleted => simp [(changeKind?_eq_deleted_iff.mp h).1]

theorem replayAll?_diff (previous : Option Snapshot) (listing : List ListingEntry) :
    replayAll? (pathsOf previous) (diff previous listing).changes =
      some (pathsOf (some (.ofListing listing))) := by
  obtain ⟨after, hafter, hmem⟩ := replayAll?_of_fits (nodup_paths_diff previous listing)
    fun change => fits_of_mem_diff
  rw [hafter]
  refine congrArg some (Finset.ext fun path => ?_)
  rw [hmem, mem_diff_iff, mem_diff_iff, mem_pathsOf_iff, mem_pathsOf_iff,
    changeKind?_eq_created_iff, changeKind?_eq_deleted_iff, fingerprint?, fingerprint?,
    Option.bind_some]
  tauto

theorem pathsOf_ofListing (listing : List ListingEntry) :
    pathsOf (some (.ofListing listing)) = (listing.map ListingEntry.path).toFinset := by
  ext path
  rw [pathsOf, Option.elim_some, List.mem_toFinset, List.mem_toFinset,
    Snapshot.mem_paths_ofListing, List.mem_map]

theorem diffsSince_cons (previous : Option Snapshot) (listing : List ListingEntry)
    (listings : List (List ListingEntry)) :
    diffsSince previous (listing :: listings) =
      (diffsSince (some (.ofListing listing)) listings).map fun diffs =>
        diff previous listing :: diffs := by
  simp only [diffsSince, next_diff, Snapshot.decode_encode, bind, Except.bind]
  cases diffsSince (some (.ofListing listing)) listings <;> rfl

/-- The views of all listings can be read back, and every diff is one from the view before. -/
theorem exists_diffsSince (previous : Option Snapshot) (listings : List (List ListingEntry)) :
    ∃ diffs, diffsSince previous listings = .ok diffs ∧
      diffs.map Diff.next = listings.map .ofListing ∧
      (∀ found ∈ diffs, (found.changes.map Change.path).Nodup) ∧
      replayAll? (pathsOf previous) (changesIn diffs) =
        some ((listings.getLast?.map fun listing => (listing.map ListingEntry.path).toFinset).getD
          (pathsOf previous)) := by
  induction listings generalizing previous with
  | nil => exact ⟨[], rfl, rfl, nofun, rfl⟩
  | cons listing listings ih =>
    obtain ⟨diffs, hdiffs, hnext, hnodup, hreplay⟩ := ih (some (.ofListing listing))
    refine ⟨diff previous listing :: diffs, ?_, ?_, ?_, ?_⟩
    · rw [diffsSince_cons, hdiffs]
      rfl
    · rw [List.map_cons, List.map_cons, next_diff, hnext]
    · rw [List.forall_mem_cons]
      exact ⟨nodup_paths_diff previous listing, hnodup⟩
    · rw [changesIn, List.flatMap_cons, replayAll?_append, replayAll?_diff, Option.bind_some,
        ← changesIn, hreplay, List.getLast?_cons]
      cases listings.getLast? with
      | none => exact congrArg some (pathsOf_ofListing listing)
      | some last => rfl

end Diffs

section Histories

theorem kindsOf_append (path : String) (changes more : List Change) :
    kindsOf path (changes ++ more) = kindsOf path changes ++ kindsOf path more := by
  rw [kindsOf, List.filter_append, List.map_append]
  rfl

theorem kindsOf_singleton (path : String) (change : Change) :
    kindsOf path [change] = if change.path = path then [change.kind] else [] := by
  by_cases h : change.path = path <;> simp [kindsOf, h]

/-- Any number of lives, and one more that has not come to its end. -/
def livings : Language ChangeKind :=
  life∗ * ({[.created]} * {[.modified]}∗)

theorem concat_mem_kstar {language : Language ChangeKind} {kinds more : List ChangeKind}
    (h : kinds ∈ language∗) (hmore : more ∈ language) : kinds ++ more ∈ language∗ :=
  Set.mem_of_mem_of_subset (Language.append_mem_mul h hmore) (kstar_mul_le_kstar (a := language))

theorem concat_created_mem {kinds : List ChangeKind} (h : kinds ∈ life∗) :
    kinds ++ [.created] ∈ livings := by
  have hbegun :
      [ChangeKind.created] ++ [] ∈ ({[.created]} * {[.modified]}∗ : Language ChangeKind) :=
    Language.append_mem_mul (Set.mem_singleton _) (Language.nil_mem_kstar _)
  exact Language.append_mem_mul h hbegun

theorem concat_modified_mem {kinds : List ChangeKind} (h : kinds ∈ livings) :
    kinds ++ [.modified] ∈ livings := by
  obtain ⟨past, hpast, _, ⟨first, hfirst, later, hlater, rfl⟩, rfl⟩ := h
  have hmore : later ++ [.modified] ∈ ({[.modified]} : Language ChangeKind)∗ :=
    concat_mem_kstar hlater (Set.mem_singleton _)
  have hlonger := Language.append_mem_mul hpast (Language.append_mem_mul hfirst hmore)
  rw [livings]
  simpa using hlonger

theorem concat_deleted_mem {kinds : List ChangeKind} (h : kinds ∈ livings) :
    kinds ++ [.deleted] ∈ life∗ := by
  obtain ⟨past, hpast, present, hpresent, rfl⟩ := h
  have hlife : present ++ [.deleted] ∈ life :=
    Language.append_mem_mul hpresent (Set.mem_singleton _)
  simpa using concat_mem_kstar hpast hlife

theorem kindsOf_mem_of_replay {changes : List Change} {paths : Finset String}
    (h : replayAll? ∅ changes = some paths) (path : String) :
    kindsOf path changes ∈ if path ∈ paths then livings else life∗ := by
  induction changes using List.reverseRecOn generalizing paths with
  | nil =>
    cases h
    exact Language.nil_mem_kstar life
  | append_singleton changes change ih =>
    rw [replayAll?_append, Option.bind_eq_some_iff] at h
    obtain ⟨middle, hmiddle, hlast⟩ := h
    have hpast := ih hmiddle
    rw [replayAll?_cons, Option.bind_eq_some_iff] at hlast
    obtain ⟨_, hlast, ⟨⟩⟩ := hlast
    obtain ⟨hfits, hsame, hthere⟩ := Change.of_replay?_eq_some hlast
    rw [kindsOf_append, kindsOf_singleton]
    by_cases hpath : change.path = path
    · subst hpath
      rw [if_pos rfl]
      rw [Change.Fits] at hfits
      cases hkind : change.kind <;> simp only [hkind, ne_eq, reduceCtorEq, not_true, not_false_iff,
        iff_true, iff_false] at hfits hthere
      case created =>
        rw [if_neg hfits] at hpast
        rw [if_pos hthere]
        exact concat_created_mem hpast
      case modified =>
        rw [if_pos hfits] at hpast
        rw [if_pos hthere]
        exact concat_modified_mem hpast
      case deleted =>
        rw [if_pos hfits] at hpast
        rw [if_neg hthere]
        exact concat_deleted_mem hpast
    · simpa only [if_neg hpath, List.append_nil, hsame path (Ne.symm hpath)] using hpast

theorem kindsOf_mem_histories {changes : List Change} {paths : Finset String}
    (h : replayAll? ∅ changes = some paths) (path : String) : kindsOf path changes ∈ histories := by
  have hkinds := kindsOf_mem_of_replay h path
  split at hkinds
  · exact ⟨[.deleted], concat_deleted_mem hkinds⟩
  · exact ⟨[], by rwa [List.append_nil]⟩

end Histories

/-- However the listings of a tree follow each other, every view can be read back for the next diff,
and the diffs of all of them can be replayed on a set of paths from nothing: no change meets a path
that it does not fit, and the paths that are left are those of the last listing. Each path is
created, modified any number of times and deleted, again and again, and changes at most once in a
diff. -/
theorem diffs_tell_lives (listings : List (List ListingEntry)) :
    ∃ diffs, diffsSince none listings = .ok diffs ∧
      diffs.map Diff.next = listings.map .ofListing ∧
      replayAll? ∅ (changesIn diffs) =
        some ((listings.getLast?.getD []).map ListingEntry.path).toFinset ∧
      (∀ path, kindsOf path (changesIn diffs) ∈ histories) ∧
      ∀ found ∈ diffs, (found.changes.map Change.path).Nodup := by
  obtain ⟨diffs, hdiffs, hnext, hnodup, hreplay⟩ := exists_diffsSince none listings
  refine ⟨diffs, hdiffs, hnext, ?_, kindsOf_mem_histories hreplay, hnodup⟩
  rw [show (∅ : Finset String) = pathsOf none from rfl, hreplay]
  cases listings.getLast? <;> rfl

/-- A path that vanishes and comes back as it was: it is created a second time. -/
example : (diffsSince none [[⟨"a", ⟨1, 1⟩⟩], [⟨"a", ⟨1, 1⟩⟩, ⟨"a", ⟨2, 2⟩⟩], [],
  [⟨"a", ⟨1, 1⟩⟩]]).map
    (fun diffs => kindsOf "a" (changesIn diffs)) =
      .ok [.created, .modified, .deleted, .created] := by
  decide +kernel

end CatalogSync
