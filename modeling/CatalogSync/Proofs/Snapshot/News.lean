import CatalogSync.Proofs.Lists
import CatalogSync.Proofs.Snapshot.Changes

namespace CatalogSync

/-- What distinguishes one view from another, path by path in ascending order: first what is gone,
then what is there and was not, or was different. -/
def news (before now : Snapshot) : List Change :=
  ((before.paths.filter fun path => !now.contains path).map fun path => ⟨.deleted, path⟩) ++
    (now.paths.filter fun path => before.get? path ≠ now.get? path).map fun path =>
      ⟨if before.contains path then .modified else .created, path⟩

theorem changeOf?_eq (previous next : Snapshot) {path : String} (hpath : path ∈ next.paths) :
    changeOf? previous next path =
      if previous.get? path ≠ next.get? path then
        some ⟨if previous.contains path then .modified else .created, path⟩
      else none := by
  obtain ⟨after, hafter⟩ := (Snapshot.mem_paths_iff next path).mp hpath
  cases hbefore : previous.get? path with
  | none => simp [changeOf?, Snapshot.contains, hbefore, hafter]
  | some before =>
    by_cases hsame : before = after
    · simp [changeOf?, hbefore, hafter, hsame]
    · simp [changeOf?, Snapshot.contains, hbefore, hafter, hsame, Ne.symm hsame]

theorem changes_diff_eq_news (before? : Option Snapshot) (listing : List ListingEntry) :
    (diff before? listing).changes = news (before?.getD .empty) (.ofListing listing) := by
  cases before? with
  | none =>
    have hall : ((Snapshot.ofListing listing).paths.filter fun path =>
        Snapshot.empty.get? path ≠ (Snapshot.ofListing listing).get? path) =
          (Snapshot.ofListing listing).paths := by
      refine List.filter_eq_self.mpr fun path hpath => ?_
      obtain ⟨after, hafter⟩ := (Snapshot.mem_paths_iff _ path).mp hpath
      rw [hafter]
      exact decide_eq_true nofun
    rw [Option.getD_none, news, hall]
    rfl
  | some previous =>
    rw [Option.getD_some, news, diff, ← filterMap_ite]
    refine congrArg _ (List.filterMap_congr fun path hpath => ?_)
    exact changeOf?_eq previous _ hpath

end CatalogSync
