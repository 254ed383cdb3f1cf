import CatalogSync.Content
import CatalogSync.Snapshot.Basic

namespace CatalogSync

inductive ListerError where
  /-- The tree cannot be reached this time. -/
  | unreachable (reason : String)
  /-- The root does not exist, is no container or cannot be read. -/
  | invalidRoot (root reason : String)
  deriving DecidableEq, Repr

def ListerError.message : ListerError → String
  | unreachable reason => "Root unreachable: " ++ reason
  | invalidRoot root reason => "Invalid root [" ++ root ++ "]: " ++ reason

/-- A lister over a state `σ`. -/
structure Lister (σ : Type) where
  checkRoot : String → StateM σ (Except ListerError Unit)
  list : String → StateM σ (Except ListerError (List ListingEntry))
  /-- The location of a path that was listed under a root. -/
  locate : String → String → String
  /-- The content at a location. -/
  fetch : String → StateM σ (Except ContentError Content)

end CatalogSync
