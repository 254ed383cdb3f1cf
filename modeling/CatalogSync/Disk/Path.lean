import CatalogSync.Text.Affix
import CatalogSync.Bytes

namespace CatalogSync

abbrev Path := Bytes

namespace Path

def slash : UInt8 := 0x2F
def dot : Bytes := [0x2E]
def dotDot : Bytes := [0x2E, 0x2E]

def isAbsolute (path : Path) : Bool :=
  path.head? = some slash

def endsInSlash (path : Path) : Bool :=
  path.getLast? = some slash

/-- The names of a path as they stand, with an empty one wherever nothing is between slashes. -/
def rawNames (path : Path) : List Bytes :=
  Text.splitOn slash path

/-- The names that count: neither empty nor a single dot. -/
def names (path : Path) : List Bytes :=
  path.rawNames.filter fun name => name ≠ [] ∧ name ≠ dot

/-- The longest path, and the longest name in a path, in bytes. -/
def maxLength : Nat := 4095
def maxNameLength : Nat := 255

/-- The path of an entry of a directory. -/
def child (path : Path) (name : Bytes) : Path :=
  if path.endsInSlash then path ++ name else path ++ slash :: name

/-- A path without the slashes at its end, cut in front of its last name. -/
def splitLast (path : Path) : Path × Bytes :=
  let trimmed := Text.trimEnd slash path
  let name := Text.lastPiece slash trimmed
  (trimmed.take (trimmed.length - name.length), name)

/-- Names as a path below another one. -/
def below (path : Path) (names : List Bytes) : Path :=
  names.foldl (fun path name => path ++ slash :: name) path

/-- The path one name shorter, if it has a name. -/
def parent? (path : Path) : Option Path :=
  match path.names with
  | [] => none
  | first :: rest =>
    let kept := (first :: rest).dropLast
    if path.isAbsolute then some (if kept.isEmpty then [slash] else below [] kept)
    else
      match kept with
      | [] => some []
      | name :: names => some (below name names)

/-- A path seen from another one: an absolute path stands for itself. -/
def join (base path : String) : String :=
  if path.toList.head? = some '/' then path
  else if base.isEmpty || base.toList.getLast? = some '/' then base ++ path
  else base ++ "/" ++ path

end Path

end CatalogSync
