import CatalogSync.Simulation.Timeline

namespace CatalogSync.Simulation

structure Workbench where
  world : World
  listers : Table Nat
  stores : Table StoreRef
  adapters : Table AdapterRef
  listeners : Table ListenerId
  harvesters : Table HarvesterRef
  pollers : Table TaskId
  backgrounds : Table TaskId

namespace Workbench

def start (disk : Disk) : Workbench :=
  ⟨World.start disk, Table.empty, Table.empty, Table.empty, Table.empty, Table.empty, Table.empty,
    Table.empty⟩

/-- Acts on the world. -/
def onWorld {α : Type} (action : StateM World α) : StateM Workbench α := fun w =>
  let (answer, world) := action w.world
  (answer, { w with world := world })

/-- Acts on the bench. -/
def onBench {α : Type} (action : StateM Bench α) : StateM Workbench α :=
  onWorld (World.onBench action)

/-- Puts a new item behind those of a list on the bench; the answer is its place. -/
def append {s : Type} (items : Part Bench (List s)) (item : s) : StateM Workbench Nat :=
  onBench fun bench =>
    let list := items.get bench
    (list.length, items.set (list ++ [item]) bench)

/-- Names a lister: files in memory if `inMemory`, or else the disk. -/
def declareLister (name : String) (inMemory : Bool) : StateM Workbench Nat := do
  let cell : ListerCell := ⟨if inMemory then some StaticTree.empty else none, 0, none, []⟩
  let index ← append ⟨Bench.listers, fun new bench => { bench with listers := new }⟩ cell
  modify fun w => { w with listers := w.listers.insert name index }
  return index

/-- The lister with a name. -/
def lister (name : String) : StateM Workbench Nat := do
  match (← get).listers.get? name with
  | some index => return index
  | none => declareLister name true

/-- Names a new store in memory. -/
def declareMemory (name : String) : StateM Workbench StoreRef := do
  let index ←
    append ⟨Bench.memories, fun new bench => { bench with memories := new }⟩ MemoryStore.empty
  modify fun w => { w with stores := w.stores.insert name (.memory index) }
  return .memory index

/-- The store with a name. -/
def store (name : String) : StateM Workbench StoreRef := do
  match (← get).stores.get? name with
  | some ref => return ref
  | none => declareMemory name

/-- Acts on the disk. -/
def onDisk {α : Type} (action : StateM Disk α) : StateM Workbench α :=
  onBench (Bench.diskPart.lift action)

/-- Closes the databases that nobody has open any longer. -/
def closeUnused : StateM Workbench Unit := do
  let w ← get
  onDisk (modify (Disk.closeUnused fun number =>
    w.world.usesDatabase number || w.stores.entries.any fun entry => entry.2.isIn number))

/-- Names a store in an open database. -/
def nameStore (name : String) (connection : Connection) (namespaceName : String) :
    StateM Workbench Unit := do
  let ref := StoreRef.ofConnection connection namespaceName
  modify fun w => { w with stores := w.stores.insert name ref }
  closeUnused

/-- Opens a store in the database of a name, and names the store. -/
def openStore (name database namespaceName : String) :
    StateM Workbench (Except StoreError Unit) := do
  match ← onDisk (Disk.openBlobs (Bytes.ofText database)) with
  | .error e => return .error e
  | .ok connection =>
    nameStore name connection namespaceName
    return .ok ()

/-- Opens a store in a database of its own that is kept in no file. -/
def openUnnamedStore (name namespaceName : String) : StateM Workbench Unit := do
  nameStore name (← onDisk (Disk.openUnnamed Database.empty false)) namespaceName

/-- Forgets the name of a store. -/
def closeStore (name : String) : StateM Workbench Unit := do
  modify fun w => { w with stores := w.stores.erase name }
  closeUnused

def nameAdapter (name : String) (ref : AdapterRef) : StateM Workbench Unit :=
  modify fun w => { w with adapters := w.adapters.insert name ref }

def declareRecordingAdapter (name : String) (behavior : AdapterBehavior) :
    StateM Workbench Unit := do
  let index ← append ⟨Bench.recordings, fun new bench => { bench with recordings := new }⟩
    (RecordingAdapter.start behavior)
  nameAdapter name (.recording index)

def declareScriptedAdapter (name : String) (script : List (Outcome IngestError String)) :
    StateM Workbench Unit := do
  let index ← append ⟨Bench.scripts, fun new bench => { bench with scripts := new }⟩
    (ScriptedAdapter.start script)
  nameAdapter name (.scripted index)

def declareLogAdapter (name : String) (transformer : Transformer) (denies : Bool) :
    StateM Workbench Unit := do
  let index ← append ⟨Bench.logs, fun new bench => { bench with logs := new }⟩
    (CatalogLog.start denies)
  nameAdapter name (.log transformer index)

def declareDirectoryAdapter (name dir : String) :
    StateM Workbench (Except IngestError Unit) := do
  match ← onDisk (DirectoryCatalog.openAt dir) with
  | .error e => return .error e
  | .ok catalog =>
    nameAdapter name (.directory catalog)
    return .ok ()

/-- Adds a listener under a name, which need not be the name that it goes by itself. -/
def nameListener (label : String) (ref : ListenerRef) : StateM Workbench Unit := do
  let id ← onWorld (World.addListener ref)
  modify fun w => { w with listeners := w.listeners.insert label id }

def declareRecorder (label name : String) (behavior : ListenerBehavior) :
    StateM Workbench Unit := do
  let index ← append ⟨Bench.recorders, fun new bench => { bench with recorders := new }⟩
    (RecordingListener.start name behavior)
  nameListener label (.recording name index)

def declareReader (label name : String) : StateM Workbench Unit := do
  let index ← append ⟨Bench.readers, fun new bench => { bench with readers := new }⟩
    ReaderListener.start
  nameListener label (.reader name index)

def declareHarvester (label : String) (config : HarvesterConfig) (listerName storeName : String) :
    StateM Workbench HarvesterRef := do
  let listerIndex ← lister listerName
  let storeRef ← store storeName
  let ref ← onWorld (World.addHarvester config listerIndex storeRef)
  modify fun w => { w with harvesters := w.harvesters.insert label ref }
  return ref

/-- Starts a loop under a name. The loop that had the name is told to stop. -/
def spawnPoller (label : String) (ref : HarvesterRef) : StateM Workbench Unit := do
  if let some former := (← get).pollers.get? label then
    modify fun w => { w with world := w.world.requestStop former }
  let id ← onWorld (World.spawnPoller ref)
  modify fun w => { w with pollers := w.pollers.insert label id }

def spawnCall (label : String) (ref : HarvesterRef) (request : Request) :
    StateM Workbench Unit := do
  let id ← onWorld (World.spawnCall ref request)
  modify fun w => { w with backgrounds := w.backgrounds.insert label id }

/-- Lets time pass; the answer is the time after that. -/
def sleep (duration : Nat) : StateM Workbench Nat := do
  modify fun w => { w with world := w.world.sleep duration }
  return (← get).world.now

/-- Waits for the disk if that is what a lister shows. -/
def awaitDisk (cell : Nat) : StateM Workbench Unit :=
  modify fun w =>
    if w.world.bench.isDiskLister cell then { w with world := w.world.giveWay } else w

/-- Lists a root, which takes as long as the lister is slow. -/
def list (name root : String) : StateM Workbench (Except ListerError (List ListingEntry)) := do
  let cell ← lister name
  onBench (Bench.noteListing cell)
  let _ ← sleep ((Bench.listerCell cell).get (← get).world.bench).delay
  awaitDisk cell
  onBench (((← get).world.bench.listerAt cell).list root)

/-- Shuts down a loop and forgets its name; the answer is the time when it is over. -/
def shutdownPoller (label : String) (id : TaskId) : StateM Workbench Nat := do
  modify fun w =>
    { w with world := w.world.shutdownPoller id, pollers := w.pollers.erase label }
  return (← get).world.now

/-- Waits for a task; the answer is its reply and the time when it was over. -/
def join (id : TaskId) : StateM Workbench (Option (Nat × Reply)) := do
  modify fun w => { w with world := w.world.await id }
  return (← get).world.replyOf? id

/-- The bench. -/
def bench (w : Workbench) : Bench := w.world.bench

end Workbench

end CatalogSync.Simulation
