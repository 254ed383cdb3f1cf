import CatalogSync.Lister.Basic
import CatalogSync.Part
import CatalogSync.Text.Affix

namespace CatalogSync

structure StaticFile where
  fingerprint : Fingerprint
  bytes : Bytes
  deriving DecidableEq

structure StaticTree where
  files : Table StaticFile
  isUnreachable : Bool
  hasInvalidRoot : Bool
  /-- How often the tree has been listed. -/
  listCalls : Nat

namespace StaticTree

def empty : StaticTree := ⟨Table.empty, false, false, 0⟩

instance : Inhabited StaticTree := ⟨empty⟩

/-- Adds a file or replaces it. -/
def put (tree : StaticTree) (path : String) (bytes : Bytes) (modified : Int64) : StaticTree :=
  let file : StaticFile := ⟨⟨UInt64.ofNat bytes.length, modified⟩, bytes⟩
  { tree with files := tree.files.insert path file }

def remove (tree : StaticTree) (path : String) : StaticTree :=
  { tree with files := tree.files.erase path }

def checkRoot (root : String) : StateM StaticTree (Except ListerError Unit) := fun tree =>
  (if tree.hasInvalidRoot then .error (.invalidRoot root "does not exist") else .ok (), tree)

def listing (tree : StaticTree) : List ListingEntry :=
  tree.files.entries.map fun entry => ⟨entry.1, entry.2.fingerprint⟩

def list (root : String) : StateM StaticTree (Except ListerError (List ListingEntry)) := fun tree =>
  (if tree.isUnreachable then .error (.unreachable root) else .ok tree.listing,
    { tree with listCalls := tree.listCalls + 1 })

def locate (root path : String) : String :=
  root ++ "/" ++ path

/-- Whether a location ends in a slash and the path. -/
def isAt (location path : String) : Bool :=
  ('/' :: path.toList).isSuffixOf location.toList

/-- Of two files the one with the longer path; the second if there is no longer one. -/
def longer (a b : String × StaticFile) : String × StaticFile :=
  if (Bytes.ofText b.1).length < (Bytes.ofText a.1).length then a else b

/-- The file with the longest path that the location ends in. -/
def fileAt? (tree : StaticTree) (location : String) : Option (String × StaticFile) :=
  (tree.files.entries.filter fun entry => isAt location entry.1).foldl
    (fun best entry => some (match best with
      | none => entry
      | some best => longer best entry)) none

def fetch (location : String) : StateM StaticTree (Except ContentError Content) := fun tree =>
  (match tree.fileAt? location with
    | some (path, file) => .ok (Content.ofBytes (Text.lastSegment path) file.bytes)
    | none => .error (.unavailable location), tree)

/-- The lister over a tree kept in one part of a state. -/
def lister {σ : Type} (cell : Part σ StaticTree) : Lister σ where
  checkRoot := fun root => cell.lift (checkRoot root)
  list := fun root => cell.lift (list root)
  locate := locate
  fetch := fun location => cell.lift (fetch location)

end StaticTree

end CatalogSync
