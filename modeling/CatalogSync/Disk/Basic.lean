import CatalogSync.Disk.DatabaseFile
import CatalogSync.Disk.Node
import CatalogSync.Disk.Path

namespace CatalogSync

/-- Why an operation on files fails. -/
inductive FileError where
  | notFound
  | alreadyExists
  | notDirectory
  | isDirectory
  | invalidArgument
  | nameTooLong
  | notEmpty
  | tooManyLinks
  | busy
  | nullByte
  deriving DecidableEq, Repr

def FileError.message : FileError → String
  | notFound => "No such file or directory (os error 2)"
  | busy => "Device or resource busy (os error 16)"
  | alreadyExists => "File exists (os error 17)"
  | notDirectory => "Not a directory (os error 20)"
  | isDirectory => "Is a directory (os error 21)"
  | invalidArgument => "Invalid argument (os error 22)"
  | nameTooLong => "File name too long (os error 36)"
  | notEmpty => "Directory not empty (os error 39)"
  | tooManyLinks => "Too many levels of symbolic links (os error 40)"
  | nullByte => "file name contained an unexpected NUL byte"

structure Disk where
  root : Node
  /-- The databases by number, whether they are kept in files or not. -/
  databases : List DatabaseFile
  /-- The databases in memory that can be found by name, as long as somebody has them open. -/
  shared : List (Bytes × Nat)
  /-- The directory that relative paths start from. -/
  workingDir : String
  /-- How many files have been written; it dates files that are given no time. -/
  writes : Nat

namespace Disk

/-- A disk without any files or directories. -/
def empty (workingDir : String) : Disk where
  root := .directory []
  databases := []
  shared := []
  workingDir := workingDir
  writes := 0

/-- How many links are followed on the way to a file. -/
def linkLimit : Nat := 40

/-- What a name on the way along a path comes to: the way ends there, or it goes on, in a directory
or at the target of a link. -/
inductive Stride (α : Type) where
  | halt (result : α)
  | enter (here : List Bytes)
  | follow (target : Bytes)

/-- Goes from the directory that `here` leads to along names as far as the first link to be
followed. From there `jump` goes on: it is given the directory and the names. -/
def travelUpTo {α : Type} (stride : List Bytes → Bytes → Bool → Stride α) (arrive : List Bytes → α)
    (jump : List Bytes → List Bytes → α) (here : List Bytes) : List Bytes → α
  | [] => arrive here
  | name :: rest =>
    match stride here name rest.isEmpty with
    | .halt result => result
    | .enter there => travelUpTo stride arrive jump there rest
    | .follow target =>
      jump (if Path.isAbsolute target then [] else here) (Path.rawNames target ++ rest)

/-- Goes along names and the links on the way. One link more than are allowed leads to `astray`. -/
def travel {α : Type} (stride : List Bytes → Bytes → Bool → Stride α) (arrive : List Bytes → α)
    (astray : α) : Nat → List Bytes → List Bytes → α
  | 0 => travelUpTo stride arrive fun _ _ => astray
  | links + 1 => travelUpTo stride arrive (travel stride arrive astray links)

/-- What a name comes to in the directory that `here` leads to. `follow` says whether a link at the
end of the way is followed. -/
def stride (root : Node) (follow : Bool) (here : List Bytes) (name : Bytes) (isLast : Bool) :
    Stride (Except FileError (List Bytes × Option Node)) :=
  match root.at? here with
  | none => .halt (.error .notFound)
  | some node =>
    if !node.isDirectory then .halt (.error .notDirectory)
    else if name = [] ∨ name = Path.dot then .enter here
    else if name = Path.dotDot then .enter here.dropLast
    else if Path.maxNameLength < name.length then .halt (.error .nameTooLong)
    else
      match node.child? name with
      | none => .halt (if isLast then .ok (here ++ [name], none) else .error .notFound)
      | some (.link target) =>
        if isLast ∧ !follow then .halt (.ok (here ++ [name], some (.link target)))
        else .follow target
      | some _ => .enter (here ++ [name])

/-- Follows names from the directory that `here` leads to. The answer is where they lead, with the
node that is there; at the last name there may be none. -/
def resolveFrom (root : Node) (follow : Bool) (links : Nat) (here : List Bytes)
    (names : List Bytes) : Except FileError (List Bytes × Option Node) :=
  travel (stride root follow) (fun place => .ok (place, root.at? place)) (.error .tooManyLinks)
    links here names

/-- Where the names of a path start from, if the path can be followed at all. -/
def startOf (disk : Disk) (path : Path) : Except FileError (List Bytes) :=
  if path.isEmpty then .error .notFound
  else if path.contains 0 then .error .nullByte
  else if Path.maxLength < path.length then .error .nameTooLong
  else .ok (if path.isAbsolute then [] else Path.names (Bytes.ofText disk.workingDir))

/-- Where a path leads, with the node that is there; at the last name there may be none. -/
def resolve (disk : Disk) (follow : Bool) (path : Path) :
    Except FileError (List Bytes × Option Node) := do
  resolveFrom disk.root follow linkLimit (← disk.startOf path) path.rawNames

/-- The place of an entry in its directory, with the node that is there, if any. Here the last name
of the path has to be the name of an entry, and slashes behind it do not count. -/
def entryAt (disk : Disk) (path : Path) : Except FileError (List Bytes × Option Node) := do
  let start ← disk.startOf path
  let (directory, name) := path.splitLast
  if name = [] ∨ name = Path.dot ∨ name = Path.dotDot then .error .busy
  else if Path.maxNameLength < name.length then .error .nameTooLong
  else
    match ← resolveFrom disk.root true linkLimit start directory.rawNames with
    | (_, none) => .error .notFound
    | (names, some node) =>
      if node.isDirectory then .ok (names ++ [name], node.child? name) else .error .notDirectory

/-- The node at the end of a path, links followed. -/
def node? (disk : Disk) (path : Path) : Except FileError Node :=
  match disk.resolve true path with
  | .ok (_, some node) => .ok node
  | .ok (_, none) => .error .notFound
  | .error e => .error e

def exists? (disk : Disk) (path : Path) : Bool :=
  (disk.node? path).isOk

def isDirectory (disk : Disk) (path : Path) : Bool :=
  match disk.node? path with
  | .ok node => node.isDirectory
  | .error _ => false

def setNode (disk : Disk) (names : List Bytes) (node : Option Node) : Disk :=
  { disk with root := disk.root.setAt names node }

/-- The time of a file that is given none; it moves on with every write. -/
def now (disk : Disk) : FileTime :=
  ⟨1700000000 + disk.writes, 0⟩

/-- The bytes of a file. -/
def contentOf (disk : Disk) (path : Path) : Except FileError Bytes :=
  match disk.node? path with
  | .ok (.file data _) => .ok data.content
  | .ok _ => .error .isDirectory
  | .error e => .error e

/-- The names in a directory. -/
def readDirectory (disk : Disk) (path : Path) : Except FileError (List Bytes) :=
  match disk.node? path with
  | .ok (.directory entries) => .ok (entries.map Prod.fst)
  | .ok _ => .error .notDirectory
  | .error e => .error e

/-- A database by its number, with what is known of its file. -/
def databaseFile (number : Nat) : Part Disk DatabaseFile :=
  Part.item ⟨Disk.databases, fun databases disk => { disk with databases := databases }⟩ number

/-- The tables of a database by its number. -/
def database (number : Nat) : Part Disk Database :=
  (databaseFile number).comp ⟨DatabaseFile.tables, fun tables file =>
    { file with tables := tables }⟩

/-- Takes notice of bytes that have been written into a file that may hold a database. -/
def overwriteDatabase (content : Bytes) (number : Option Nat) (disk : Disk) : Disk :=
  match number with
  | none => disk
  | some number =>
    let part := databaseFile number
    part.set ((part.get disk).overwrite content) disk

/-- Writes a file with a given time, or else dated now. A file that is there stays the same file. -/
def writeFile (path : Path) (content : Bytes) (modified : Option FileTime) :
    StateM Disk (Except FileError Unit) := fun disk =>
  match disk.resolve true path with
  | .error e => (.error e, disk)
  | .ok (_, some (.directory _)) => (.error .isDirectory, disk)
  | .ok (names, there) =>
    let number := there.bind Node.databaseNumber?
    let node := Node.file ⟨content, number⟩ (modified.getD disk.now)
    let written := { disk.setNode names (some node) with writes := disk.writes + 1 }
    (.ok (), written.overwriteDatabase content number)

/-- Dates a file. -/
def touch (path : Path) (modified : FileTime) : StateM Disk (Except FileError Unit) := fun disk =>
  match disk.resolve true path with
  | .error e => (.error e, disk)
  | .ok (_, none) => (.error .notFound, disk)
  | .ok (names, some (.file data _)) => (.ok (), disk.setNode names (some (.file data modified)))
  | .ok (_, some _) => (.ok (), disk)

/-- Makes one directory; its parent has to be there. -/
def makeDirectory (path : Path) : StateM Disk (Except FileError Unit) := fun disk =>
  let trimmed := Text.trimEnd Path.slash path
  match disk.resolve false (if trimmed.isEmpty then path else trimmed) with
  | .error e => (.error e, disk)
  | .ok (_, some _) => (.error .alreadyExists, disk)
  | .ok (names, none) => (.ok (), disk.setNode names (some (.directory [])))

/-- Makes a directory and those above it that are missing, at most `depth` of them. -/
def makeDirectories : Nat → Path → StateM Disk (Except FileError Unit)
  | depth, path => fun disk =>
    if path.isEmpty then (.ok (), disk)
    else
      match makeDirectory path disk with
      | (.ok (), disk) => (.ok (), disk)
      | (.error .notFound, disk) =>
        match depth, path.parent? with
        | depth + 1, some parent =>
          match makeDirectories depth parent disk with
          | (.error e, disk) => (.error e, disk)
          | (.ok (), disk) =>
            match makeDirectory path disk with
            | (.ok (), disk) => (.ok (), disk)
            | (.error e, disk) => (if disk.isDirectory path then .ok () else .error e, disk)
        | _, _ => (.error .notFound, disk)
      | (.error e, disk) => (if disk.isDirectory path then .ok () else .error e, disk)

/-- Makes a directory unless it is there, with all directories above it. -/
def ensureDirectory (path : Path) : StateM Disk (Except FileError Unit) :=
  makeDirectories (path.names.length + 1) path

/-- Writes a file, with all directories above it that are missing. -/
def writeFileWithParents (path : Path) (content : Bytes) (modified : Option FileTime) :
    StateM Disk (Except FileError Unit) := do
  match ← ensureDirectory (path.parent?.getD path) with
  | .error e => return .error e
  | .ok () => writeFile path content modified

/-- A disk with nothing but a working directory and one more directory. -/
def start (workingDir spare : String) : Disk :=
  let ensure (path : String) (disk : Disk) := (ensureDirectory (Bytes.ofText path) disk).2
  ensure spare (ensure workingDir (empty workingDir))

/-- Removes a file or a link. -/
def removeFile (path : Path) : StateM Disk (Except FileError Unit) := fun disk =>
  match disk.resolve false path with
  | .error e => (.error e, disk)
  | .ok (_, none) => (.error .notFound, disk)
  | .ok (_, some (.directory _)) => (.error .isDirectory, disk)
  | .ok (names, some _) => (.ok (), disk.setNode names none)

/-- Removes a directory with all that is in it. What is in it is gone even if the path names it in a
way in which a directory cannot be removed: by dots, or through a link. -/
def removeDirectory (path : Path) : StateM Disk (Except FileError Unit) := fun disk =>
  match disk.resolve false path with
  | .error e => (.error e, disk)
  | .ok (_, none) => (.error .notFound, disk)
  | .ok (_, some (.file _ _)) => (.error .notDirectory, disk)
  | .ok (names, some (.link _)) => (.ok (), disk.setNode names none)
  | .ok (names, some (.directory _)) =>
    match disk.entryAt path with
    | .ok (entry, some (.directory _)) => (.ok (), disk.setNode entry none)
    | .ok _ => (.error .notDirectory, disk.setNode names (some (.directory [])))
    | .error e => (.error e, disk.setNode names (some (.directory [])))

/-- What stands against moving a node to where another one may be. -/
def renameFault? (source target : List Bytes) (node : Node) (there : Option Node) :
    Option FileError :=
  match node, there with
  | .directory _, some (.directory entries) =>
    if source.isPrefixOf target then some .invalidArgument
    else if entries.isEmpty then none
    else some .notEmpty
  | .directory _, some _ => some .notDirectory
  | .directory _, none => if source.isPrefixOf target then some .invalidArgument else none
  | _, some (.directory _) => some .isDirectory
  | _, _ => none

/-- Moves a node in one step, in the place of a file that is there already. Only the path of a
directory may end in slashes. -/
def rename (source target : Path) : StateM Disk (Except FileError Unit) := fun disk =>
  match disk.entryAt source, disk.entryAt target with
  | .error e, _ => (.error e, disk)
  | _, .error e => (.error e, disk)
  | .ok (_, none), _ => (.error .notFound, disk)
  | .ok (origin, some node), .ok (goal, there) =>
    if !node.isDirectory ∧ (source.endsInSlash ∨ target.endsInSlash) then
      (.error .notDirectory, disk)
    else if origin = goal then (.ok (), disk)
    else
      match renameFault? origin goal node there with
      | some e => (.error e, disk)
      | none => (.ok (), (disk.setNode origin none).setNode goal (some node))

/-- What a symbolic link cannot lead to. -/
def linkFault? (target : Path) : Option FileError :=
  if target.isEmpty then some .notFound
  else if target.contains 0 then some .nullByte
  else if Path.maxLength < target.length then some .nameTooLong
  else none

/-- Makes a symbolic link. -/
def makeLink (path target : Path) : StateM Disk (Except FileError Unit) := fun disk =>
  match linkFault? target, disk.resolve false path with
  | some e, _ => (.error e, disk)
  | none, .error e => (.error e, disk)
  | none, .ok (_, some _) => (.error .alreadyExists, disk)
  | none, .ok (names, none) => (.ok (), disk.setNode names (some (.link target)))

end Disk

end CatalogSync
