import CatalogSync.Disk.Walk
import CatalogSync.Lister.Basic
import CatalogSync.Outcome
import CatalogSync.Time.Calendar

/-!
The lister over the directories of a disk. It shows the regular files below the root. An entry that
cannot be read fails the whole listing, for otherwise its absence would look like a deletion;
entries that vanish during the walk are simply gone.
-/

namespace CatalogSync.DirectoryLister

def scheme : String := "file://"

/-- A root may be given as a path or as a location. -/
def rootPath (root : String) : String :=
  (Text.stripStart? scheme root).getD root

/-- The path of an entry below the root, if all its names are text. -/
def relativePath? (names : List Bytes) : Option String :=
  (names.mapM Bytes.toText?).map fun texts => String.intercalate "/" texts

/-- Whether a point in time is on a day for which there is a date. -/
def isDated (time : FileTime) : Bool :=
  Time.Date.first.toDays ≤ time.day && time.day ≤ Time.Date.last.toDays

/-- The time of modification in milliseconds, zero if there is none. It is told by its date; without
one there is no answer. -/
def modifiedMillis? (metadata : Metadata) : Option Int64 :=
  match metadata.modified with
  | none => some 0
  | some time => if isDated time then some (Int64.ofInt time.millis) else none

/-- The listing that the results of a walk add up to. It breaks down at the first file that is dated
beyond all dates. -/
def collect : List WalkItem → Outcome ListerError (List ListingEntry)
  | [] => .ok []
  | .failure depth e :: rest =>
    if 0 < depth ∧ e.vanished then collect rest else .error (.unreachable e.message)
  | .entry _ false _ :: rest => collect rest
  | .entry _ true (.error e) :: rest =>
    if e.vanished then collect rest else .error (.unreachable e.message)
  | .entry names true (.ok metadata) :: rest =>
    match relativePath? names with
    | none => collect rest
    | some path =>
      match modifiedMillis? metadata with
      | none => .panicked
      | some modified =>
        match collect rest with
        | .ok listing => .ok (⟨path, ⟨UInt64.ofNat metadata.size, modified⟩⟩ :: listing)
        | .error e => .error e
        | .panicked => .panicked

/-- The listing of a root, given whether it is a directory and what a walk from it shows. -/
def scan (root : String) (isDirectory : Bool) (items : List WalkItem) :
    Outcome ListerError (List ListingEntry) :=
  if isDirectory then collect items
  else .error (.unreachable (root ++ " is not available"))

/-- What is said of a scan that has broken down. The number that its task is given is left out. -/
def breakdown : String := "scan task failed: task panicked with message \"No such local time\""

/-- What has come of a scan, which is a task of its own. -/
def joined : Outcome ListerError (List ListingEntry) → Except ListerError (List ListingEntry)
  | .ok listing => .ok listing
  | .error e => .error e
  | .panicked => .error (.unreachable breakdown)

/-- A path with a name put behind it. The empty name leaves a slash at its end. -/
def push (base name : List Char) : List Char :=
  if base.getLast?.all (· = '/') then base ++ name else base ++ '/' :: name

/-- Where a path starts from: its own root, which may be of two slashes but not of more, or a
working directory. -/
def anchor (workingDir : String) (path : List Char) : List Char :=
  if path.head? ≠ some '/' then workingDir.toList
  else if path.take 2 = ['/', '/'] ∧ path.take 3 ≠ ['/', '/', '/'] then ['/', '/']
  else ['/']

/-- The names of a path, without the empty ones and single dots. -/
def pathNames (path : List Char) : List (List Char) :=
  (Text.splitOn '/' path).filter fun name => name ≠ [] ∧ name ≠ ['.']

/-- An absolute form of a path, seen from a working directory: without single dots and repeated
slashes, except that exactly two slashes at the start stay, and one at the end. The empty path has
none. -/
def absolute? (workingDir path : String) : Option (List Char) :=
  let cs := path.toList
  let whole := (pathNames cs).foldl push (anchor workingDir cs)
  if cs.isEmpty then none else some (if cs.getLast? = some '/' then push whole [] else whole)

/-- The location of a listed path: the scheme, the absolute root without slashes at its end, and the
path. -/
def locate (workingDir root path : String) : String :=
  let base := (absolute? workingDir (rootPath root)).getD []
  scheme ++ String.ofList (Text.trimEnd '/' base) ++ "/" ++ path

/-- The root has to be a directory. -/
def checkRoot (root : String) : StateM Disk (Except ListerError Unit) := fun disk =>
  match disk.node? (Bytes.ofText (rootPath root)) with
  | .error _ => (.error (.invalidRoot root "does not exist"), disk)
  | .ok node =>
    (if node.isDirectory then .ok () else .error (.invalidRoot root "is not a directory"), disk)

def list (root : String) : StateM Disk (Except ListerError (List ListingEntry)) := fun disk =>
  let path := Bytes.ofText (rootPath root)
  (joined (scan (rootPath root) (disk.isDirectory path) (disk.walk path)), disk)

def fetch (location : String) : StateM Disk (Except ContentError Content) := fun disk =>
  (match Text.stripStart? scheme location with
    | none => .error (.readFailed location "not a file location")
    | some path =>
      match disk.contentOf (Bytes.ofText path) with
      | .ok bytes => .ok (Content.ofBytes (Text.lastSegment path) bytes)
      | .error .notFound => .error (.unavailable location)
      | .error e => .error (.readFailed location e.message), disk)

/-- The lister over the disk in one part of a state, with the working directory of that disk. -/
def lister {σ : Type} (workingDir : String) (disk : Part σ Disk) : Lister σ where
  checkRoot := fun root => disk.lift (checkRoot root)
  list := fun root => disk.lift (list root)
  locate := locate workingDir
  fetch := fun location => disk.lift (fetch location)

end CatalogSync.DirectoryLister
