import CatalogSync.Disk.Step
import CatalogSync.Ingest.Basic
import CatalogSync.Record.Codec
import CatalogSync.Uuid

/-!
A catalog that keeps every record in a JSON file of its own, named by the identifier of the record.
A record is written to another file first, which then takes the place of the old one in one step, so
that no interruption leaves half a record behind.
-/

namespace CatalogSync

/-- The catalog in a directory. -/
structure DirectoryCatalog where
  dir : String
  deriving DecidableEq

namespace DirectoryCatalog

def storageError (e : FileError) : IngestError := .storage e.message

/-- Makes the directory of a catalog unless it is there. -/
def openAt (dir : String) : StateM Disk (Except IngestError DirectoryCatalog) := do
  match ← Disk.ensureDirectory (Bytes.ofText dir) with
  | .ok () => return .ok ⟨dir⟩
  | .error e => return .error (storageError e)

/-- The file of the record with an identifier. -/
def recordFile (catalog : DirectoryCatalog) (uuid : Uuid) : Path :=
  Bytes.ofText (Path.join catalog.dir (uuid.text ++ ".json"))

/-- The file that an id stands for; an id that is no identifier stands for none. -/
def recordPath (catalog : DirectoryCatalog) (id : String) : Except IngestError Path :=
  match Uuid.ofText? id with
  | some uuid => .ok (catalog.recordFile uuid)
  | none => .error (.rejected ("unknown record id " ++ id))

/-- The steps that put a record into a file. -/
def writeSteps (path : Path) (record : Record) : List DiskStep :=
  let draft := path ++ Bytes.ofText ".tmp"
  [.write draft record.encodePretty, .rename draft path]

def write (path : Path) (record : Record) : StateM Disk (Except IngestError Unit) := do
  match ← DiskStep.runAll (writeSteps path record) with
  | .ok () => return .ok ()
  | .error e => return .error (storageError e)

/-- The record with an id, if there is one. -/
def get? (catalog : DirectoryCatalog) (disk : Disk) (id : String) :
    Except IngestError (Option Record) :=
  match catalog.recordPath id with
  | .error e => .error e
  | .ok path =>
    match disk.contentOf path with
    | .error .notFound => .ok none
    | .error e => .error (storageError e)
    | .ok bytes =>
      match Record.decode? bytes with
      | some record => .ok (some record)
      | none => .error (.storage "malformed record")

/-- The text of the file named after an id, taken as it is; none if it cannot be read. -/
def rawText? (catalog : DirectoryCatalog) (disk : Disk) (id : String) : Option String :=
  match disk.contentOf (Bytes.ofText (Path.join catalog.dir (id ++ ".json"))) with
  | .ok bytes => Bytes.toText? bytes
  | .error _ => none

/-- The id of the record in a file with a given name. -/
def idOfName? (name : Bytes) : Option String :=
  (Bytes.toText? name).bind (Text.stripEnd? ".json")

/-- The ids of all records in ascending byte order. -/
def ids (catalog : DirectoryCatalog) (disk : Disk) : Except IngestError (List String) :=
  match disk.readDirectory (Bytes.ofText catalog.dir) with
  | .error e => .error (storageError e)
  | .ok names =>
    .ok ((names.filterMap idOfName?).mergeSort fun a b => !Text.before b a)

/-- Stores a record under a given fresh identifier. -/
def createAs (catalog : DirectoryCatalog) (uuid : Uuid) (record : Record) :
    StateM Disk (Except IngestError String) := do
  match ← write (catalog.recordFile uuid) { record with id := some uuid.text } with
  | .ok () => return .ok uuid.text
  | .error e => return .error e

/-- Replaces the record with an id; there has to be one. -/
def update (catalog : DirectoryCatalog) (id : String) (record : Record) :
    StateM Disk (Except IngestError String) := fun disk =>
  match catalog.recordPath id with
  | .error e => (.error e, disk)
  | .ok path =>
    match disk.node? path with
    | .error .notFound => (.error (.rejected ("no record " ++ id)), disk)
    | .error e => (.error (storageError e), disk)
    | .ok _ =>
      match write path { record with id := some id } disk with
      | (.ok (), disk) => (.ok id, disk)
      | (.error e, disk) => (.error e, disk)

def delete (catalog : DirectoryCatalog) (id : String) : StateM Disk (Except IngestError Unit) :=
  fun disk =>
    match catalog.recordPath id with
    | .error e => (.error e, disk)
    | .ok path =>
      match DiskStep.runAll [.remove path] disk with
      | (.ok (), disk) => (.ok (), disk)
      | (.error .notFound, disk) => (.error (.rejected ("no record " ++ id)), disk)
      | (.error e, disk) => (.error (storageError e), disk)

/-- The catalog over the disk in one part of a state, with its ids coming from another. -/
def catalog {σ : Type} (c : DirectoryCatalog) (disk : Part σ Disk) (supply : Part σ UuidSupply) :
    Catalog σ where
  create := fun record state =>
    let (uuid, state) := supply.lift UuidSupply.take state
    disk.lift (c.createAs uuid record) state
  update := fun id record => disk.lift (c.update id record)
  delete := fun id => disk.lift (c.delete id)

end DirectoryCatalog

end CatalogSync
