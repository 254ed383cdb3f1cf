import CatalogSync.Harvest.Poll
import CatalogSync.Harvest.Poller
import CatalogSync.Harvest.Registry
import CatalogSync.Simulation.Bench

/-!
A world of harvesters: the bench, the harvesters with their listers and stores, the listeners, the
registry, and the tasks that act on harvesters. Tasks that want the same harvester take turns.
-/

namespace CatalogSync.Simulation

/-- Tasks are told apart by number, in the order in which they were started. -/
abbrev TaskId := Nat

structure HarvesterCell where
  harvester : Harvester
  lister : Nat
  store : StoreRef
  /-- How often the interval has changed. -/
  changes : Nat
  /-- The task that works on the harvester. -/
  holder : Option TaskId
  /-- The tasks that wait for their turn, first come first. -/
  queue : List TaskId

/-- What can be asked of a harvester. -/
inductive Request where
  | start
  | stop
  | poll
  | reconfigure (config : HarvesterConfig)
  | config

/-- The answer to a request. -/
inductive Reply where
  | started (result : Except HarvestError Unit)
  | stopped
  | polled (result : Except HarvestError PollReport)
  | reconfigured (result : Except HarvestError Unit)
  | config (config : HarvesterConfig)

/-- A task carries out one request, or polls again and again. -/
inductive Work where
  | call (request : Request)
  | loop (poller : Poller)

inductive Phase where
  /-- It holds nothing and waits for nothing but time. -/
  | idle
  /-- It waits for its turn. -/
  | queued
  /-- It has its turn and waits for a slow lister until a time, to list a root for some
  listeners. -/
  | listing (wake : Nat) (root : String) (members : List ListenerId)
  /-- It has its turn and waits for the disk, to list a root for some listeners or else to look at
  the root. -/
  | atDisk (listing : Option (String × List ListenerId))
  /-- It is over; a loop has no reply. -/
  | finished (time : Nat) (reply : Option Reply)

structure Task where
  target : HarvesterRef
  work : Work
  phase : Phase

structure World where
  bench : Bench
  listeners : List ListenerRef
  harvesters : List HarvesterCell
  registry : Registry
  tasks : List Task

namespace World

def start (disk : Disk) : World :=
  ⟨Bench.start disk, [], [], Registry.empty, []⟩

def now (world : World) : Nat := world.bench.now

def cell? (world : World) (ref : HarvesterRef) : Option HarvesterCell :=
  world.harvesters[ref]?

def harvester? (world : World) (ref : HarvesterRef) : Option Harvester :=
  (world.cell? ref).map HarvesterCell.harvester

def setCell (world : World) (ref : HarvesterRef) (cell : HarvesterCell) : World :=
  { world with harvesters := world.harvesters.set ref cell }

/-- Changes a harvester. -/
def modify (world : World) (ref : HarvesterRef) (f : Harvester → Harvester) : World :=
  match world.cell? ref with
  | some cell => world.setCell ref { cell with harvester := f cell.harvester }
  | none => world

def setTask (world : World) (id : TaskId) (task : Task) : World :=
  { world with tasks := world.tasks.set id task }

/-- The interface to a listener. A number that names none stands for one that does nothing. -/
def listener (world : World) (id : ListenerId) : Listener Bench :=
  match world.listeners[id]? with
  | some ref => ref.listener
  | none => ⟨"", fun _ => pure (.ok ()), fun _ => pure (.ok ()), fun _ => pure (.ok ())⟩

def listenerName (world : World) (id : ListenerId) : String :=
  (world.listener id).name

/-- Acts on the bench. -/
def onBench {α : Type} (action : StateM Bench α) : StateM World α := fun world =>
  let (answer, bench) := action world.bench
  (answer, { world with bench := bench })

/-- Adds a harvester that has not been started. -/
def addHarvester (config : HarvesterConfig) (lister : Nat) (store : StoreRef) :
    StateM World HarvesterRef := fun world =>
  let cell : HarvesterCell := ⟨Harvester.ofConfig config, lister, store, 0, none, []⟩
  (world.harvesters.length, { world with harvesters := world.harvesters ++ [cell] })

def addListener (ref : ListenerRef) : StateM World ListenerId := fun world =>
  (world.listeners.length, { world with listeners := world.listeners ++ [ref] })

def addTask (task : Task) : StateM World TaskId := fun world =>
  (world.tasks.length, { world with tasks := world.tasks ++ [task] })

/-- The registered harvesters with their ids, in ascending order of these. -/
def registered (world : World) : List (String × Harvester) :=
  world.registry.harvesters.entries.filterMap fun (id, ref) =>
    (world.harvester? ref).map fun h => (id, h)

/-- How many listeners a harvester has. -/
def memberCount (world : World) (ref : HarvesterRef) : Nat :=
  ((world.harvester? ref).map fun h => h.members.length).getD 0

/-- Registers a listener with a harvester directly. -/
def register (ref : HarvesterRef) (listener : ListenerId) :
    StateM World (Except HarvestError Unit) := fun world =>
  match world.cell? ref with
  | none => (.ok (), world)
  | some cell =>
    match cell.harvester.register listener (world.listenerName listener) with
    | .ok h => (.ok (), world.setCell ref { cell with harvester := h })
    | .error e => (.error e, world)

/-- Removes a listener from a harvester directly, and says whether it was there. -/
def unregister (ref : HarvesterRef) (listener : ListenerId) : StateM World Bool := fun world =>
  match world.cell? ref with
  | none => (false, world)
  | some cell =>
    (cell.harvester.hasListener listener, world.modify ref fun h => h.unregister listener)

/-- Registers a harvester; the answer is how many listeners it got. -/
def registerHarvester (ref : HarvesterRef) : StateM World (Except RegistryError Nat) := fun world =>
  match world.cell? ref with
  | none => (.ok 0, world)
  | some cell =>
    match world.registry.addHarvester ref cell.harvester with
    | .error e => (.error e, world)
    | .ok (attached, registry, h) =>
      (.ok attached, { world with registry := registry }.setCell ref { cell with harvester := h })

/-- Whether a harvester or a listener has a store in a database. -/
def usesDatabase (world : World) (number : Nat) : Bool :=
  (world.harvesters.any fun cell => cell.store.isIn number) ||
    (world.listeners.any fun listener => listener.store?.any (StoreRef.isIn number))

/-- Takes a harvester off the registry; the answer is which one it was. -/
def unregisterHarvester (id : String) : StateM World (Except RegistryError HarvesterRef) :=
  fun world =>
    match world.registry.removeHarvester id with
    | .error e => (.error e, world)
    | .ok (ref, registry) =>
      (.ok ref, { world with registry := registry }.modify ref (registry.detachAll id))

/-- Registers a listener for a harvester id, and says whether it was attached. -/
def watch (id : String) (listener : ListenerId) : StateM World Bool := fun world =>
  let watch : Watch := ⟨id, listener, world.listenerName listener⟩
  let watched := { world with registry := world.registry.addWatch watch }
  match world.registry.harvesters.get? id with
  | none => (false, watched)
  | some ref =>
    match world.cell? ref with
    | none => (false, watched)
    | some cell =>
      let (attached, h) := Registry.attach watch cell.harvester
      (attached, watched.setCell ref { cell with harvester := h })

/-- Takes a listener off the registry, and says whether it was there. -/
def unwatch (listener : ListenerId) : StateM World Bool := fun world =>
  match world.registry.removeWatch? listener with
  | none => (false, world)
  | some (watch, registry) =>
    let world := { world with registry := registry }
    match registry.harvesters.get? watch.harvester with
    | none => (true, world)
    | some ref => (true, world.modify ref (registry.detach watch))

end World

end CatalogSync.Simulation
