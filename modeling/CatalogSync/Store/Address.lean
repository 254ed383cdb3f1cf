import CatalogSync.Disk.Path

/-!
Names of databases. A name is a path, or a location with the scheme of files. In a location escaped
bytes stand for others, and options behind a question mark say where and how the database is opened.
-/

namespace CatalogSync

/-- Where a database is kept. -/
inductive DatabasePlace where
  | file (path : Path)
  /-- In memory, for all that have it open under the same name. -/
  | shared (name : Bytes)
  /-- In no file, for nobody else. -/
  | unnamed
  deriving DecidableEq

structure DatabaseAddress where
  place : DatabasePlace
  mayWrite : Bool
  /-- Whether a missing file is created. -/
  mayCreate : Bool
  deriving DecidableEq

/-- A way to open a database. -/
inductive DatabaseMode where
  | readOnly
  | readWrite
  | create
  | memory
  deriving DecidableEq

namespace DatabaseMode

def ofText? (text : Bytes) : Option DatabaseMode :=
  if text = Bytes.ofText "ro" then some readOnly
  else if text = Bytes.ofText "rw" then some readWrite
  else if text = Bytes.ofText "rwc" then some create
  else if text = Bytes.ofText "memory" then some memory
  else none

/-- How much a mode allows. -/
def rank : DatabaseMode → Nat
  | readOnly => 1
  | readWrite => 2
  | create => 3
  | memory => 4

/-- Whether a mode can be given where another one held before. A mode cannot allow more than that;
but a database can always be kept in memory. -/
def follows (mode previous : DatabaseMode) : Bool :=
  mode = memory ∨ mode.rank ≤ previous.rank

end DatabaseMode

/-- What the options of a location ask for. -/
structure DatabaseOptions where
  mode : DatabaseMode
  /-- Whether the database is shared if it is kept in memory. -/
  isShared : Bool
  /-- The system that keeps the file. -/
  system : Bytes

namespace DatabaseOptions

/-- Without any options. -/
def plain : DatabaseOptions := ⟨.create, false, Bytes.ofText "unix"⟩

def memorySystem : Bytes := Bytes.ofText "memdb"

/-- The systems that can keep a file. -/
def systems : List Bytes :=
  memorySystem :: ["unix", "unix-none", "unix-dotfile", "unix-excl"].map Bytes.ofText

/-- Takes up one more option. Those that are not known have no effect. -/
def add? (options : DatabaseOptions) (option : Bytes × Bytes) : Option DatabaseOptions :=
  let (name, value) := option
  if name = Bytes.ofText "mode" then do
    let mode ← DatabaseMode.ofText? value
    if mode.follows options.mode then some { options with mode := mode } else none
  else if name = Bytes.ofText "cache" then
    if value = Bytes.ofText "shared" then some { options with isShared := true }
    else if value = Bytes.ofText "private" then some { options with isShared := false }
    else none
  else if name = Bytes.ofText "vfs" then some { options with system := value }
  else some options

end DatabaseOptions

namespace DatabaseAddress

def percentSign : UInt8 := 0x25
def numberSign : UInt8 := 0x23
def questionMark : UInt8 := 0x3F
def ampersand : UInt8 := 0x26
def equalsSign : UInt8 := 0x3D

/-- The byte that two hexadecimal digits write. -/
def escaped? (high low : UInt8) : Option UInt8 :=
  (Bytes.ofHex? [Char.ofNat high.toNat, Char.ofNat low.toNat]).bind List.head?

/-- What a part of a location stands for: two hexadecimal digits behind a percent sign are a byte.
The byte zero ends the part. -/
def unescape : Bytes → Bytes
  | [] => []
  | [a] => [a]
  | [a, b] => [a, b]
  | a :: b :: c :: rest =>
    if a = percentSign then
      match escaped? b c with
      | some byte => if byte = 0 then [] else byte :: unescape rest
      | none => a :: unescape (b :: c :: rest)
    else a :: unescape (b :: c :: rest)

/-- What stands in front of a separator, and what stands behind the first one. -/
def cut (separator : UInt8) (bytes : Bytes) : Bytes × Bytes :=
  (bytes.takeWhile (· ≠ separator), (bytes.dropWhile (· ≠ separator)).drop 1)

/-- The options in a query, in order. One without a name does not count. -/
def readOptions (query : Bytes) : List (Bytes × Bytes) :=
  ((Text.splitOn ampersand query).map fun option =>
    let (name, value) := cut equalsSign option
    (unescape name, unescape value)).filter fun option => option.1 ≠ []

/-- Whether an option is switched on: by a word, or by a number other than zero. -/
def isOn (value : Bytes) : Bool :=
  let digits := value.takeWhile fun byte => 0x30 ≤ byte ∧ byte ≤ 0x39
  if digits = [] then
    ["on", "yes", "true"].any fun word =>
      ((Bytes.toText? value).map String.toLower) = some word
  else digits.any (· ≠ 0x30)

/-- What follows the host of a location; the host can only be this machine. -/
def afterHost? (bytes : Bytes) : Option Bytes :=
  match Text.dropStart? [Path.slash, Path.slash] bytes with
  | none => some bytes
  | some rest =>
    let host := rest.takeWhile (· ≠ Path.slash)
    if host = [] ∨ host = Bytes.ofText "localhost" then some (rest.drop host.length) else none

/-- The path of a database that is to be kept in memory. -/
def memoryPath : Path := Bytes.ofText ":memory:"

/-- Where a database is kept, given its path and what its options ask for. -/
def placeOf (path : Path) (options : DatabaseOptions) : DatabasePlace :=
  if path.isEmpty then .unnamed
  else if options.mode = .memory ∨ path = memoryPath then
    if options.isShared then .shared path else .unnamed
  else if options.system = DatabaseOptions.memorySystem then
    if path.isAbsolute ∧ 1 < path.length then .shared path else .unnamed
  else .file path

/-- The address in a location, from behind its scheme. -/
def ofLocation? (location : Bytes) : Option DatabaseAddress := do
  let (path, query) := cut questionMark (cut numberSign (← afterHost? location)).1
  let given := readOptions query
  let options ← given.foldlM DatabaseOptions.add? DatabaseOptions.plain
  let isFixed := (given.find? fun option => option.1 = Bytes.ofText "immutable").any (isOn ·.2)
  if DatabaseOptions.systems.contains options.system then
    let mayWrite := options.mode ≠ .readOnly ∧ !isFixed
    some ⟨placeOf (unescape path) options, mayWrite, mayWrite ∧ options.mode ≠ .readWrite⟩
  else none

def scheme : Bytes := Bytes.ofText "file:"

/-- The address that a name of a database stands for, if it stands for one. -/
def ofName? (name : Bytes) : Option DatabaseAddress :=
  if name.contains 0 then none
  else
    match Text.dropStart? scheme name with
    | some location => ofLocation? location
    | none => some ⟨placeOf name DatabaseOptions.plain, true, true⟩

end DatabaseAddress

end CatalogSync
