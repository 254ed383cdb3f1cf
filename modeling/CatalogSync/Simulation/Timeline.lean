import CatalogSync.Simulation.World

/-!
What happens when. The clock moves only while somebody waits: as long as a task can do something at
the current time it does, the oldest task first, and then the clock moves on to the next time at
which one can. Work on the disk takes no time on the clock, but whoever waits for it lets all others
go first.
-/

namespace CatalogSync.Simulation.World

/-- Gives up a harvester; the task that has waited longest gets it. -/
def release (ref : HarvesterRef) (world : World) : World :=
  match world.cell? ref with
  | none => world
  | some cell =>
    match cell.queue with
    | [] => world.setCell ref { cell with holder := none }
    | next :: rest => world.setCell ref { cell with holder := some next, queue := rest }

/-- Ends the turn of a task. A call is over; a loop goes on unless it has been told to stop. -/
def endTurn (id : TaskId) (task : Task) (reply : Reply) (world : World) : World :=
  let world := world.release task.target
  match task.work with
  | .call _ => world.setTask id { task with phase := .finished world.now (some reply) }
  | .loop poller =>
    let poller := poller.pollDone
    let phase := if poller.stage = .ended then Phase.finished world.now none else .idle
    world.setTask id { task with work := .loop poller, phase := phase }

/-- Keeps what has become of a harvester. A changed interval is told to those who poll. -/
def keepHarvester (ref : HarvesterRef) (cell : HarvesterCell) (h : Harvester) (world : World) :
    World :=
  let changes := if h.interval = cell.harvester.interval then cell.changes else cell.changes + 1
  world.setCell ref { cell with harvester := h, changes := changes }

/-- Lists for a poll and finishes it. -/
def completePoll (id : TaskId) (task : Task) (cell : HarvesterCell) (root : String)
    (members : List ListenerId) (world : World) : World :=
  let lister := world.bench.listerAt cell.lister
  let (listed, bench) := lister.list root world.bench
  let ((result, h), bench) :=
    cell.harvester.finishPoll lister cell.store.blobStore (members.map world.listener) root listed
      bench
  let world := { world with bench := bench }.keepHarvester task.target cell h
  world.endTurn id task (.polled result)

/-- Has a root listed for a poll. -/
def listRoot (id : TaskId) (task : Task) (cell : HarvesterCell) (root : String)
    (members : List ListenerId) (world : World) : World :=
  if world.bench.isDiskLister cell.lister then
    world.setTask id { task with phase := .atDisk (some (root, members)) }
  else world.completePoll id task cell root members

/-- Begins a poll. With a slow lister it goes on later. -/
def beginPoll (id : TaskId) (task : Task) (cell : HarvesterCell) (world : World) : World :=
  match cell.harvester.beginPoll with
  | .notRunning => world.endTurn id task (.polled (.error (.notRunning cell.harvester.id)))
  | .idle => world.endTurn id task (.polled (.ok .ofIdle))
  | .listing root members =>
    let world := (onBench (Bench.noteListing cell.lister) world).2
    let delay := ((Bench.listerCell cell.lister).get world.bench).delay
    if delay = 0 then world.listRoot id task cell root members
    else world.setTask id { task with phase := .listing (world.now + delay) root members }

/-- Carries out the request of a task whose turn it is. -/
def carryOut (id : TaskId) (task : Task) (cell : HarvesterCell) (request : Request)
    (world : World) : World :=
  let lister := world.bench.listerAt cell.lister
  let store := cell.store.blobStore
  let keep (result : Except HarvestError Unit) (h : Harvester) (bench : Bench)
      (reply : Except HarvestError Unit → Reply) : World :=
    ({ world with bench := bench }.keepHarvester task.target cell h).endTurn id task (reply result)
  match request with
  | .poll => world.beginPoll id task cell
  | .config => world.endTurn id task (.config cell.harvester.config)
  | .stop => (world.keepHarvester task.target cell cell.harvester.stop).endTurn id task .stopped
  | .start =>
    let ((result, h), bench) := cell.harvester.start lister store world.bench
    keep result h bench .started
  | .reconfigure config =>
    let ((result, h), bench) := cell.harvester.applyConfig lister store config world.bench
    keep result h bench .reconfigured

/-- Whether a harvester looks at its root first when it gets a request. -/
def looksAtRoot (h : Harvester) : Request → Bool
  | .start => h.status ≠ .polling ∧ h.config.validate.isOk
  | .reconfigure config => h.admitsPolicy config.policy
  | _ => false

/-- Carries out the request of a task whose turn it is, as soon as the disk is there if it is
needed. -/
def perform (id : TaskId) (task : Task) (cell : HarvesterCell) (request : Request)
    (world : World) : World :=
  if world.bench.isDiskLister cell.lister ∧ looksAtRoot cell.harvester request then
    world.setTask id { task with phase := .atDisk none }
  else world.carryOut id task cell request

/-- Takes the turn on a harvester if it is free, or else a place in the queue. -/
def takeTurn (id : TaskId) (task : Task) (request : Request) (world : World) : World :=
  match world.cell? task.target with
  | none => world.setTask id { task with phase := .finished world.now none }
  | some cell =>
    match cell.holder with
    | none =>
      let cell := { cell with holder := some id }
      (world.setCell task.target cell).perform id task cell request
    | some _ =>
      (world.setCell task.target { cell with queue := cell.queue ++ [id] }).setTask id
        { task with phase := .queued }

/-- Begins a call. A configuration is checked before the harvester is waited for. -/
def beginCall (id : TaskId) (task : Task) (request : Request) (world : World) : World :=
  match request, world.cell? task.target with
  | .reconfigure config, some cell =>
    match cell.harvester.checkConfig config with
    | .ok () => world.takeTurn id task request
    | .error e =>
      world.setTask id { task with phase := .finished world.now (some (.reconfigured (.error e))) }
  | _, _ => world.takeTurn id task request

/-- Lets a loop that waits do what it does next, if it does anything. -/
def runLoop? (id : TaskId) (task : Task) (poller : Poller) (world : World) : Option World :=
  match world.cell? task.target with
  | none => none
  | some cell =>
    match poller.next? world.now cell.harvester.interval cell.changes with
    | none => none
    | some next =>
      let task := { task with work := .loop next }
      match next.stage with
      | .polling _ => some ((world.setTask id task).takeTurn id task .poll)
      | .ended => some (world.setTask id { task with phase := .finished world.now none })
      | _ => some (world.setTask id task)

/-- The request that a task wants carried out when it has its turn. -/
def requestOf : Work → Request
  | .call request => request
  | .loop _ => .poll

/-- Lets a task do what it can do at the current time, if there is anything. -/
def runTask? (id : TaskId) (world : World) : Option World :=
  match world.tasks[id]? with
  | none => none
  | some task =>
    match task.phase, task.work with
    | .idle, .call request => some (world.beginCall id task request)
    | .idle, .loop poller => world.runLoop? id task poller
    | .queued, work =>
      match world.cell? task.target with
      | none => none
      | some cell =>
        if cell.holder = some id then some (world.perform id task cell (requestOf work)) else none
    | .listing wake root members, _ =>
      match world.cell? task.target with
      | none => none
      | some cell =>
        if wake ≤ world.now then some (world.listRoot id task cell root members) else none
    | .atDisk listing, work =>
      (world.cell? task.target).map fun cell =>
        match listing with
        | some (root, members) => world.completePoll id task cell root members
        | none => world.carryOut id task cell (requestOf work)
    | .finished _ _, _ => none

/-- Whether a task has its turn and waits for a slow lister. -/
def isListing (world : World) (id : TaskId) : Bool :=
  match world.tasks[id]?.map Task.phase with
  | some (.listing _ _ _) => true
  | _ => false

/-- Whether a task has its turn and waits for the disk. -/
def isAtDisk (world : World) (id : TaskId) : Bool :=
  match world.tasks[id]?.map Task.phase with
  | some (.atDisk _) => true
  | _ => false

/-- The order in which tasks are looked at: from the oldest on, with those behind that wait for the
disk. Whoever is `ahead` goes before all others once its listing is done, and goes first at the
disk. -/
def inOrder (ahead : Option TaskId) (world : World) : List TaskId :=
  let (waiting, others) := (List.range world.tasks.length).partition world.isAtDisk
  (ahead.filter world.isListing).toList ++ others ++ ahead.toList ++ waiting

/-- Lets the first task that can do something do it. -/
def runFirst? (ahead : Option TaskId) (world : World) : Option World :=
  (world.inOrder ahead).findSome? fun id => world.runTask? id

/-- When a task can do something next, if nothing else happens. -/
def Task.wakeTime? (task : Task) : Option Nat :=
  match task.phase, task.work with
  | .listing wake _ _, _ => some wake
  | .idle, .loop poller => poller.wakeTime?
  | _, _ => none

/-- The next time at which a task can do something. -/
def nextWake? (world : World) : Option Nat :=
  (world.tasks.filterMap Task.wakeTime?).min?

def setClock (world : World) (now : Nat) : World :=
  { world with bench := { world.bench with now := now } }

/-- Lets tasks run and the clock move until a condition holds, but no further than to a time, if one
is given. `fuel` bounds the number of steps. -/
def advance (ahead : Option TaskId) : Nat → Option Nat → (World → Bool) → World → World
  | 0, _, _, world => world
  | fuel + 1, until?, done, world =>
    if done world then world
    else
      match world.runFirst? ahead with
      | some world => advance ahead fuel until? done world
      | none =>
        match world.nextWake?, until? with
        | none, none => world
        | none, some limit => world.setClock limit
        | some wake, none => advance ahead fuel until? done (world.setClock wake)
        | some wake, some limit =>
          if wake < limit then advance ahead fuel until? done (world.setClock wake)
          else world.setClock limit

/-- How many steps the tasks of a world can take at one time, at most. -/
def stepsPerInstant (world : World) : Nat :=
  100 * (world.tasks.length + 1)

/-- Lets time pass. What is due at the end is left to the next wait, and no time at all is no
wait. -/
def sleep (duration : Nat) (world : World) : World :=
  if duration = 0 then world
  else
    advance none ((duration + 2) * world.stepsPerInstant) (some (world.now + duration))
      (fun _ => false) world

/-- How long the tasks of a world can keep each other waiting: until all that have begun to list are
done, and then once for every task. -/
def longestWait (world : World) : Nat :=
  let wakes := world.tasks.filterMap Task.wakeTime?
  let delays := world.bench.listers.map ListerCell.delay
  (wakes.max?.getD 0 - world.now) + (delays.max?.getD 0) * (world.tasks.length + 1)

def isFinished (id : TaskId) (world : World) : Bool :=
  match world.tasks[id]? with
  | some task =>
    match task.phase with
    | .finished _ _ => true
    | _ => false
  | none => true

/-- Lets every task do what it can do at the current time. -/
def settle (world : World) : World :=
  advance none (2 * world.stepsPerInstant) (some world.now) (fun _ => false) world

/-- Whether no task can do anything at the current time but those that wait for the disk. -/
def isQuiet (world : World) : Bool :=
  (List.range world.tasks.length).all fun id => world.isAtDisk id || (world.runTask? id).isNone

/-- Lets all others go first, as whoever waits for the disk does. -/
def giveWay (world : World) : World :=
  advance none (2 * world.stepsPerInstant) (some world.now) isQuiet world

/-- Lets time pass until a task is over. -/
def runUntilFinished (ahead : Option TaskId) (id : TaskId) (world : World) : World :=
  advance ahead ((world.longestWait + 2) * world.stepsPerInstant) none (isFinished id) world

/-- Waits for a task to be over. Who waits goes on after all that can be done at that time; a task
that is over already is not waited for. -/
def await (id : TaskId) (world : World) : World :=
  if isFinished id world then world else (world.runUntilFinished none id).settle

/-- The reply of a task that is over, and when it was. -/
def replyOf? (id : TaskId) (world : World) : Option (Nat × Reply) :=
  match world.tasks[id]? with
  | some ⟨_, _, .finished time (some reply)⟩ => some (time, reply)
  | _ => none

/-- Starts a loop that polls a harvester; it first runs at the next wait. -/
def spawnPoller (ref : HarvesterRef) : StateM World TaskId :=
  addTask ⟨ref, .loop Poller.spawned, .idle⟩

/-- Starts a task for one request; it first runs at the next wait. -/
def spawnCall (ref : HarvesterRef) (request : Request) : StateM World TaskId :=
  addTask ⟨ref, .call request, .idle⟩

/-- Has a request carried out at once, and waits only if the harvester is not free, its lister is
slow, or the disk is needed. -/
def call (ref : HarvesterRef) (request : Request) : StateM World (Option Reply) := fun world =>
  let (id, world) := spawnCall ref request world
  let world := (world.runTask? id).getD world
  let world := world.runUntilFinished (some id) id
  ((world.replyOf? id).map Prod.snd, world)

/-- Tells a loop to stop. -/
def requestStop (id : TaskId) (world : World) : World :=
  match world.tasks[id]? with
  | some task =>
    match task.work with
    | .loop poller => world.setTask id { task with work := .loop poller.requestStop }
    | .call _ => world
  | none => world

/-- Shuts a loop down: waits until the poll it is in is over. -/
def shutdownPoller (id : TaskId) (world : World) : World :=
  (world.requestStop id).await id

end CatalogSync.Simulation.World
