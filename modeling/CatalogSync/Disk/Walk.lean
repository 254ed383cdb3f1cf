import CatalogSync.Disk.Basic

namespace CatalogSync

/-- Why a walk cannot show an entry or its metadata. -/
structure WalkError where
  /-- Whether the entry has disappeared since its directory was read. -/
  vanished : Bool
  message : String
  deriving DecidableEq

structure Metadata where
  size : Nat
  modified : Option FileTime
  deriving DecidableEq

/-- One result of a walk. -/
inductive WalkItem where
  /-- An entry, given by its names below the root. -/
  | entry (names : List Bytes) (isFile : Bool) (metadata : Except WalkError Metadata)
  /-- An entry that cannot be shown, so many levels below the root. -/
  | failure (depth : Nat) (error : WalkError)

/-- A path that is too long leads nowhere, whatever is there. -/
def WalkError.tooLong : WalkError := ⟨false, FileError.nameTooLong.message⟩

/-- What is known of an entry at a path. -/
def metadataAt (path : Path) (metadata : Metadata) : Except WalkError Metadata :=
  if Path.maxLength < path.length then .error .tooLong else .ok metadata

mutual

/-- A node at a path and, if it is a directory, all that is in it. -/
def Node.walk (path : Path) (names : List Bytes) : Node → List WalkItem
  | .file data modified => [.entry names true (metadataAt path ⟨data.size, some modified⟩)]
  | .link target => [.entry names false (metadataAt path ⟨target.length, none⟩)]
  | .directory entries =>
    .entry names false (metadataAt path ⟨0, none⟩) ::
      if Path.maxLength < path.length then [.failure names.length .tooLong]
      else Node.walkEntries path names entries

def Node.walkEntries (path : Path) (names : List Bytes) : List (Bytes × Node) → List WalkItem
  | [] => []
  | (name, node) :: rest =>
    Node.walk (path.child name) (names ++ [name]) node ++ Node.walkEntries path names rest

end

/-- The walk from the directory at a path. -/
def Disk.walk (disk : Disk) (path : Path) : List WalkItem :=
  match disk.node? path with
  | .ok node => node.walk path []
  | .error e => [.failure 0 ⟨e = .notFound, e.message⟩]

end CatalogSync
