import CatalogSync.Snapshot.Basic

/-!
The changes between two views of a resource tree. Deletions come first, then creations and
modifications together, both in ascending order of the paths. The next snapshot is made from the new
listing alone.
-/

namespace CatalogSync

inductive ChangeKind where
  | created
  | modified
  | deleted
  deriving DecidableEq, Repr

def ChangeKind.text : ChangeKind → String
  | created => "created"
  | modified => "modified"
  | deleted => "deleted"

structure Change where
  kind : ChangeKind
  path : String
  deriving DecidableEq, Repr

/-- The changes in order, and the snapshot they lead to. -/
structure Diff where
  changes : List Change
  next : Snapshot
  deriving DecidableEq

namespace Diff

def isEmpty (diff : Diff) : Bool :=
  diff.changes.isEmpty

def count (diff : Diff) (kind : ChangeKind) : Nat :=
  diff.changes.countP fun change => change.kind = kind

end Diff

/-- What became of a path of the new snapshot, if anything did. -/
def changeOf? (previous next : Snapshot) (path : String) : Option Change :=
  match previous.get? path with
  | none => some ⟨.created, path⟩
  | some before => if next.get? path = some before then none else some ⟨.modified, path⟩

/-- The changes from a previous snapshot, if there is one, to a new listing. -/
def diff (previous : Option Snapshot) (listing : List ListingEntry) : Diff :=
  let next := Snapshot.ofListing listing
  match previous with
  | none => ⟨next.paths.map fun path => ⟨.created, path⟩, next⟩
  | some previous =>
    let deleted := previous.paths.filter fun path => !next.contains path
    ⟨(deleted.map fun path => ⟨.deleted, path⟩) ++ next.paths.filterMap (changeOf? previous next),
      next⟩

end CatalogSync
