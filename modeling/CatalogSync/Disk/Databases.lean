import CatalogSync.Disk.Basic
import CatalogSync.Store.Address

/-!
Databases on a disk. The path of a database is not followed like that of other files: links and dots
in it are taken away name by name, and two dots take away the name in front of them whether it leads
anywhere or not. Who has a database open keeps it when its file is moved or removed, but can then
write to it only if it has a log.
-/

namespace CatalogSync

/-- A database that somebody has open. -/
structure Connection where
  number : Nat
  /-- The names that led to its file when it was opened, if it is kept in one. -/
  home : Option (List Bytes)
  isReadOnly : Bool
  deriving DecidableEq

namespace Disk

def openFailure : String := "unable to open database file"
def formatFailure : String := "file is not a database"
def writeFailure : String := "attempt to write a readonly database"

/-- How many links are taken away from the path of a database. -/
def databaseLinkLimit : Nat := 200

/-- The longest path on the way to a database, and the longest one of a database. -/
def maxWayLength : Nat := 511
def maxDatabasePathLength : Nat := 504

/-- The absolute path that some names make up. -/
def absolutePath (names : List Bytes) : Path :=
  Path.below [] names

/-- The node at some names, if it can be asked for: nothing can be below a file. -/
def nodeBelow (root : Node) (directory : List Bytes) (name : Bytes) :
    Except FileError (Option Node) :=
  match root.at? directory with
  | none => .ok none
  | some node =>
    if !node.isDirectory then .error .notDirectory
    else if Path.maxNameLength < name.length then .error .nameTooLong
    else .ok (node.child? name)

/-- Goes past what is below a directory, if anything: along a link, and by its name otherwise. -/
def pass (here : List Bytes) (name : Bytes) : Option Node → Stride (Option (List Bytes))
  | some (.link target) => .follow target
  | _ => .enter (here ++ [name])

/-- What a name comes to where a path is only rid of its dots and links. -/
def plainStride (root : Node) (here : List Bytes) (name : Bytes) (_isLast : Bool) :
    Stride (Option (List Bytes)) :=
  if name = [] ∨ name = Path.dot then .enter here
  else if name = Path.dotDot then .enter here.dropLast
  else if maxWayLength < (absolutePath (here ++ [name])).length then .halt none
  else
    match nodeBelow root here name with
    | .error _ => .halt none
    | .ok found => pass here name found

/-- The names that are left of a path once its dots and links are taken away. -/
def plainNames? (root : Node) (links : Nat) (here names : List Bytes) : Option (List Bytes) :=
  travel (plainStride root) some none links here names

/-- The names of the file that the path of a database stands for. -/
def databaseNames? (disk : Disk) (path : Path) : Option (List Bytes) :=
  let start := if path.isAbsolute then [] else Path.names (Bytes.ofText disk.workingDir)
  (plainNames? disk.root databaseLinkLimit start path.rawNames).filter fun names =>
    names ≠ [] ∧ (absolutePath names).length ≤ maxDatabasePathLength

/-- The names of a file that is kept beside a database. -/
def beside (names : List Bytes) (ending : String) : List Bytes :=
  match names.getLast? with
  | none => names
  | some name => names.dropLast ++ [name ++ Bytes.ofText ending]

def journalEnding : String := "-journal"
def logEnding : String := "-wal"
def logIndexEnding : String := "-shm"

/-- Whether something that is no file stands where a file beside a database is needed. -/
def isBlocked (disk : Disk) (names : List Bytes) (ending : String) : Bool :=
  match disk.root.at? (beside names ending) with
  | none => false
  | some (.file _ _) => false
  | some _ => true

/-- Whether there is a file beside a database. -/
def hasBeside (disk : Disk) (names : List Bytes) (ending : String) : Bool :=
  match disk.root.at? (beside names ending) with
  | some (.file _ _) => true
  | _ => false

/-- Makes a file beside a database unless it is there. -/
def addBeside (names : List Bytes) (ending : String) (disk : Disk) : Disk :=
  if disk.hasBeside names ending then disk
  else disk.setNode (beside names ending) (some (.file ⟨[0], none⟩ disk.now))

def removeBeside (names : List Bytes) (ending : String) (disk : Disk) : Disk :=
  if disk.hasBeside names ending then disk.setNode (beside names ending) none else disk

/-- Adds a database. -/
def addDatabase (tables : Database) : StateM Disk Nat := fun disk =>
  (disk.databases.length,
    { disk with databases := disk.databases ++ [DatabaseFile.ofTables tables] })

/-- Opens a new database that is kept in no file. -/
def openUnnamed (tables : Database) (isReadOnly : Bool) : StateM Disk Connection := do
  return ⟨← addDatabase tables, none, isReadOnly⟩

/-- Opens a database in memory by its name. -/
def openShared (name : Bytes) (isReadOnly : Bool) : StateM Disk Connection := do
  match (← get).shared.find? fun entry => entry.1 = name with
  | some (_, number) => return ⟨number, none, isReadOnly⟩
  | none =>
    let number ← addDatabase Database.empty
    modify fun disk => { disk with shared := disk.shared ++ [(name, number)] }
    return ⟨number, none, isReadOnly⟩

/-- The number of the database in the file at some names. A missing file may be created, and an
empty one becomes a new database. -/
def databaseAt (names : List Bytes) (mayCreate : Bool) : StateM Disk (Except String Nat) :=
  fun disk =>
    match disk.root.at? names with
    | some (.file ⟨_, some number⟩ _) => (.ok number, disk)
    | some (.file ⟨content, none⟩ modified) =>
      if DatabaseFile.countsAsEmpty content then
        let (number, disk) := addDatabase Database.empty disk
        (.ok number, disk.setNode names (some (.file ⟨content, some number⟩ modified)))
      else (.error formatFailure, disk)
    | some _ => (.error openFailure, disk)
    | none =>
      let isPlace := ((disk.root.at? names.dropLast).map Node.isDirectory).getD false
      let isName := names.all fun name => name.length ≤ Path.maxNameLength
      if mayCreate && isPlace && isName then
        let (number, disk) := addDatabase Database.empty disk
        (.ok number, disk.setNode names (some (.file ⟨[], some number⟩ disk.now)))
      else (.error openFailure, disk)

/-- What keeps a database from being opened: that its file shows something else, that its log is in
use elsewhere, or that the files beside it are in the way. -/
def openFault? (disk : Disk) (names : List Bytes) (number : Nat) : Option String :=
  let file := (databaseFile number).get disk
  if file.legibility ≠ .sound then some formatFailure
  else if file.logInUse.isSome ∧ !disk.hasBeside names logEnding then some openFailure
  else if disk.isBlocked names journalEnding ∨ disk.isBlocked names logEnding then some openFailure
  else none

/-- Opens a database by its name. -/
def connect (name : Bytes) : StateM Disk (Except String Connection) := fun disk =>
  match DatabaseAddress.ofName? name with
  | none => (.error openFailure, disk)
  | some address =>
    match address.place with
    | .unnamed =>
      let (connection, disk) := openUnnamed Database.empty (!address.mayWrite) disk
      (.ok connection, disk)
    | .shared name =>
      let (connection, disk) := openShared name (!address.mayWrite) disk
      (.ok connection, disk)
    | .file path =>
      match disk.databaseNames? path with
      | none => (.error openFailure, disk)
      | some names =>
        match databaseAt names address.mayCreate disk with
        | (.error e, disk) => (.error e, disk)
        | (.ok number, disk) =>
          match disk.openFault? names number with
          | some e => (.error e, disk)
          | none => (.ok ⟨number, some names, !address.mayWrite⟩, disk)

/-- Takes the log of a database into use. It needs two files beside the database. -/
def useLog (number : Nat) (names : List Bytes) : StateM Disk (Except String Unit) := fun disk =>
  if disk.isBlocked names logIndexEnding then (.error openFailure, disk)
  else
    let part := databaseFile number
    let file := part.get disk
    let used := { file with hasLog := true, logInUse := file.logInUse.or (some names) }
    (.ok (), addBeside names logIndexEnding (addBeside names logEnding (part.set used disk)))

/-- Opens a database for stores, which keep a log. What can only be read has to have one already. -/
def openBlobs (name : Bytes) : StateM Disk (Except StoreError Connection) := fun disk =>
  match connect name disk with
  | (.error e, disk) => (.error (.database e), disk)
  | (.ok connection, disk) =>
    if connection.isReadOnly ∧ !((databaseFile connection.number).get disk).hasLog then
      (.error (.database writeFailure), disk)
    else
      match connection.home with
      | none => (.ok connection, disk)
      | some names =>
        match useLog connection.number names disk with
        | (.error e, disk) => (.error (.database e), disk)
        | (.ok (), disk) => (.ok connection, disk)

/-- Closes a database that nobody has open any longer. -/
def closeDatabase (number : Nat) (disk : Disk) : Disk :=
  let part := databaseFile number
  let file := part.get disk
  let closed := part.set file.close
    { disk with shared := disk.shared.filter fun entry => entry.2 ≠ number }
  match file.logInUse with
  | none => closed
  | some names => removeBeside names logIndexEnding (removeBeside names logEnding closed)

/-- Closes all databases but those that are still in use. -/
def closeUnused (isUsed : Nat → Bool) (disk : Disk) : Disk :=
  ((List.range disk.databases.length).filter fun number => !isUsed number).foldl
    (fun disk number => disk.closeDatabase number) disk

end Disk

end CatalogSync
