import CatalogSync.Catalog.Directory
import CatalogSync.Disk.Databases
import CatalogSync.Ingest.CatalogAdapter
import CatalogSync.Ingest.CatalogLog
import CatalogSync.Ingest.Scripted
import CatalogSync.Lister.Directory
import CatalogSync.Lister.Static
import CatalogSync.Listener.Persistent
import CatalogSync.Listener.Reader
import CatalogSync.Listener.Recording
import CatalogSync.Store.Memory

namespace CatalogSync.Simulation

/-- A lister: files in memory, or the disk. It can be slow, and it can be made to answer the same
listing whenever a listing succeeds. -/
structure ListerCell where
  /-- The files in memory; none if the disk is listed. -/
  tree : Option StaticTree
  /-- How long a listing takes, in milliseconds. -/
  delay : Nat
  fixed : Option (List ListingEntry)
  /-- When listings began. -/
  times : List Nat

instance : Inhabited ListerCell := ⟨⟨none, 0, none, []⟩⟩

structure Bench where
  /-- Milliseconds since the simulation began. -/
  now : Nat
  disk : Disk
  supply : UuidSupply
  /-- The ids that adapters have issued, in order. -/
  issued : List String
  listers : List ListerCell
  memories : List MemoryStore
  recordings : List RecordingAdapter
  scripts : List ScriptedAdapter
  logs : List CatalogLog
  recorders : List RecordingListener
  readers : List ReaderListener

namespace Bench

def start (disk : Disk) : Bench :=
  ⟨0, disk, UuidSupply.start, [], [], [], [], [], [], [], []⟩

def diskPart : Part Bench Disk := ⟨Bench.disk, fun disk bench => { bench with disk := disk }⟩

def supplyPart : Part Bench UuidSupply :=
  ⟨Bench.supply, fun supply bench => { bench with supply := supply }⟩

def listerCell (cell : Nat) : Part Bench ListerCell :=
  Part.item ⟨Bench.listers, fun listers bench => { bench with listers := listers }⟩ cell

/-- The files of a lister; a lister over the disk has none. -/
def tree (cell : Nat) : Part Bench StaticTree where
  get := fun bench => ((listerCell cell).get bench).tree.getD StaticTree.empty
  set := fun tree bench =>
    let lister := (listerCell cell).get bench
    (listerCell cell).set { lister with tree := lister.tree.map fun _ => tree } bench

def memory (cell : Nat) : Part Bench MemoryStore :=
  Part.item ⟨Bench.memories, fun memories bench => { bench with memories := memories }⟩ cell

def recording (cell : Nat) : Part Bench RecordingAdapter :=
  Part.item ⟨Bench.recordings, fun recordings bench => { bench with recordings := recordings }⟩ cell

def script (cell : Nat) : Part Bench ScriptedAdapter :=
  Part.item ⟨Bench.scripts, fun scripts bench => { bench with scripts := scripts }⟩ cell

def log (cell : Nat) : Part Bench CatalogLog :=
  Part.item ⟨Bench.logs, fun logs bench => { bench with logs := logs }⟩ cell

def recorder (cell : Nat) : Part Bench RecordingListener :=
  Part.item ⟨Bench.recorders, fun recorders bench => { bench with recorders := recorders }⟩ cell

def reader (cell : Nat) : Part Bench ReaderListener :=
  Part.item ⟨Bench.readers, fun readers bench => { bench with readers := readers }⟩ cell

/-- The time on the clock as a time stamp. -/
def clock (bench : Bench) : Time.Timestamp :=
  ⟨1700000000 + bench.now / 1000, bench.now % 1000 * 1000000⟩

/-- Notes that a listing begins now. -/
def noteListing (cell : Nat) : StateM Bench Unit := fun bench =>
  let lister := (listerCell cell).get bench
  ((), (listerCell cell).set { lister with times := lister.times ++ [bench.now] } bench)

/-- Notes an id that has not been issued before. -/
def noteIssued (id : String) : StateM Bench Unit := fun bench =>
  ((), if bench.issued.contains id then bench else { bench with issued := bench.issued ++ [id] })

/-- The id with a number in the order of issue, counted from one. -/
def issuedAs? (bench : Bench) (number : Nat) : Option String :=
  if number = 0 then none else bench.issued[number - 1]?

/-- Ids with those that adapters have issued at the end, in the order of issue. -/
def issuedLast (bench : Bench) (ids : List String) : List String :=
  ids.filter (fun id => !bench.issued.contains id) ++ bench.issued.filter ids.contains

/-- Keeps the listing of a lister that always answers the same, whenever it succeeds. -/
def fixListing (fixed : Option (List ListingEntry)) :
    Except ListerError (List ListingEntry) → Except ListerError (List ListingEntry)
  | .ok listing => .ok (fixed.getD listing)
  | .error e => .error e

/-- The interface to a lister, without its slowness. -/
def lister (workingDir : String) (isDisk : Bool) (cell : Nat) : Lister Bench :=
  let inner :=
    if isDisk then DirectoryLister.lister workingDir diskPart else StaticTree.lister (tree cell)
  { inner with
    list := fun root => do
      let listed ← inner.list root
      let bench ← get
      return fixListing ((listerCell cell).get bench).fixed listed }

/-- Whether a lister is one over the disk. -/
def isDiskLister (bench : Bench) (cell : Nat) : Bool :=
  ((listerCell cell).get bench).tree.isNone

/-- The interface to the lister in a cell. -/
def listerAt (bench : Bench) (cell : Nat) : Lister Bench :=
  lister bench.disk.workingDir (bench.isDiskLister cell) cell

end Bench

/-- A store: in memory, or a namespace of a database on the disk. -/
inductive StoreRef where
  | memory (cell : Nat)
  | database (number : Nat) (namespaceName : String) (isReadOnly : Bool)
  deriving DecidableEq

namespace StoreRef

def blobStore : StoreRef → BlobStore Bench
  | memory cell => MemoryStore.blobStore.over (Bench.memory cell)
  | database number namespaceName isReadOnly =>
    let store :=
      (Database.blobStore namespaceName).over (Bench.diskPart.comp (Disk.database number))
    if isReadOnly then store.readOnly (.database Disk.writeFailure) else store

/-- The store of a namespace in a database that is open. -/
def ofConnection (connection : Connection) (namespaceName : String) : StoreRef :=
  database connection.number namespaceName connection.isReadOnly

/-- Whether a store is kept in a database. -/
def isIn (number : Nat) : StoreRef → Bool
  | memory _ => false
  | database other _ _ => other = number

/-- The part of the bench that is a store, if it is one in memory. -/
def memory? : StoreRef → Option (Part Bench MemoryStore)
  | memory cell => some (Bench.memory cell)
  | database _ _ _ => none

end StoreRef

/-- An adapter: one of those in memory, or one that fills a catalog. -/
inductive AdapterRef where
  | recording (cell : Nat)
  | scripted (cell : Nat)
  | log (transformer : Transformer) (cell : Nat)
  | directory (catalog : DirectoryCatalog)

namespace AdapterRef

/-- Notes the ids that an adapter issues. An update issues one if it answers another than it was
given. -/
def notingIds (adapter : Adapter Bench) : Adapter Bench :=
  let note (known : Option String) (outcome : Outcome IngestError String) :
      StateM (Reading Bench) Unit :=
    match outcome with
    | .ok id => if known = some id then pure () else Reading.onWorld (Bench.noteIssued id)
    | _ => pure ()
  { create := fun resource => do
      let outcome ← adapter.create resource
      note none outcome
      return outcome
    update := fun resource id => do
      let outcome ← adapter.update resource id
      note (some id) outcome
      return outcome
    delete := adapter.delete }

def adapter : AdapterRef → Adapter Bench
  | recording cell =>
    notingIds (RecordingAdapter.adapter (Bench.recording cell) Bench.supplyPart)
  | scripted cell => ScriptedAdapter.adapter (Bench.script cell)
  | log transformer cell =>
    CatalogAdapter.adapter transformer (CatalogLog.catalog.over (Bench.log cell))
  | directory catalog =>
    notingIds (CatalogAdapter.adapter Transformer.metadata
      (catalog.catalog Bench.diskPart Bench.supplyPart))

/-- The part of the bench that is an adapter, if it is a recording one. -/
def recording? : AdapterRef → Option (Part Bench RecordingAdapter)
  | recording cell => some (Bench.recording cell)
  | _ => none

end AdapterRef

/-- A listener with its name. -/
inductive ListenerRef where
  | recording (name : String) (cell : Nat)
  | reader (name : String) (cell : Nat)
  | persistent (name : String) (adapter : AdapterRef) (store : StoreRef)

namespace ListenerRef

def name : ListenerRef → String
  | recording name _ => name
  | reader name _ => name
  | persistent name _ _ => name

/-- The persistent listener with a name, an adapter and a store on the bench. -/
def persistentListener (name : String) (adapter : AdapterRef) (store : StoreRef) :
    PersistentListener Bench :=
  ⟨name, adapter.adapter, store.blobStore, Bench.clock⟩

def listener : ListenerRef → Listener Bench
  | recording name cell => RecordingListener.listener name (Bench.recorder cell)
  | reader name cell => ReaderListener.listener name (Bench.reader cell)
  | persistent name adapter store => (persistentListener name adapter store).listener

/-- The part of the bench that is a listener, if it is a recording one. -/
def recorder? : ListenerRef → Option (Part Bench RecordingListener)
  | recording _ cell => some (Bench.recorder cell)
  | _ => none

/-- The store of a listener, if it has one. -/
def store? : ListenerRef → Option StoreRef
  | persistent _ _ store => some store
  | _ => none

/-- A listener as a persistent one, if it is one. -/
def persistent? : ListenerRef → Option (PersistentListener Bench)
  | persistent name adapter store => some (persistentListener name adapter store)
  | _ => none

end ListenerRef

end CatalogSync.Simulation
