import CatalogSync.Harvest.Poll

/-!
A harvester in surroundings of any behavior. They write down whatever the harvester asks of them,
and what they answer depends on all that has been asked before: a root may be refused, a listing may
be anything or fail, the store may fail to load or to write, and a listener may do what it likes.
-/

namespace CatalogSync.Surroundings

structure Notice where
  listener : ListenerId
  kind : ChangeKind
  location : String
  deriving DecidableEq, Repr

/-- What a harvester asks. A listing is kept with its answer. -/
inductive Call where
  | checkRoot (root : String)
  | list (root : String) (answer : Except ListerError (List ListingEntry))
  | load (key : String)
  | store (key : String)
  | delete (key : String)
  | notify (notice : Notice)

/-- The answers to come, each in view of the calls so far. -/
structure Answers where
  checkRoot : List Call → Except ListerError Unit
  list : List Call → Except ListerError (List ListingEntry)
  locate : String → String → String
  fetch : List Call → Except ContentError Content
  loadError? : List Call → Option StoreError
  writeError? : List Call → Option StoreError
  notify : List Call → Outcome ListenerError Unit

/-- The blobs that are stored, and the calls so far. -/
structure World where
  blobs : Table Bytes
  calls : List Call

variable (answers : Answers)

def World.note (world : World) (call : Call) : World :=
  { world with calls := world.calls ++ [call] }

def lister : Lister World where
  checkRoot := fun root world => (answers.checkRoot world.calls, world.note (.checkRoot root))
  list := fun root world =>
    (answers.list world.calls, world.note (.list root (answers.list world.calls)))
  locate := answers.locate
  fetch := fun _ world => (answers.fetch world.calls, world)

def write {α : Type} (call : Call) (answer : World → α) (change : Table Bytes → Table Bytes) :
    StateM World (Except StoreError α) := fun world =>
  match answers.writeError? world.calls with
  | some e => (.error e, world.note call)
  | none => (.ok (answer world), { world.note call with blobs := change world.blobs })

/-- A store that loses a write as a whole or not at all. -/
def store : BlobStore World where
  store := fun key blob => write answers (.store key) (fun _ => ()) fun blobs =>
    blobs.insert key blob
  load := fun key world =>
    match answers.loadError? world.calls with
    | some e => (.error e, world.note (.load key))
    | none => (.ok (world.blobs.get? key), world.note (.load key))
  delete := fun key =>
    write answers (.delete key) (fun world => world.blobs.contains key) fun blobs => blobs.erase key
  keys := fun world => (.ok world.blobs.keys, world)

def tell (notice : Notice) : StateM World (Outcome ListenerError Unit) := fun world =>
  (answers.notify (world.calls ++ [.notify notice]), world.note (.notify notice))

def listener (id : ListenerId) : Listener World where
  name := ""
  onCreate := fun resource => Reading.onWorld (tell answers ⟨id, .created, resource.location⟩)
  onUpdate := fun resource => Reading.onWorld (tell answers ⟨id, .modified, resource.location⟩)
  onDelete := fun resource => tell answers ⟨id, .deleted, resource.location⟩

/-- What all members are told of one change. -/
def noticesOf (root : String) (members : List ListenerId) (change : Change) : List Notice :=
  members.map fun member => ⟨member, change.kind, answers.locate root change.path⟩

/-- What a harvester can be made to do by those who own it. -/
inductive Act where
  | start
  | stop
  /-- The process ends, and another one sets up a harvester for the same root. -/
  | restart (config : HarvesterConfig)
  | register (listener : ListenerId) (name : String)
  | unregister (listener : ListenerId)
  | poll

structure Stage where
  harvester : Harvester
  world : World

/-- A harvester for a root that has just been set up. -/
def harvesterOf (root : String) (config : HarvesterConfig) : Harvester :=
  .ofConfig { config with root := root }

def staged {α : Type} (answer : (α × Harvester) × World) : α × Stage :=
  (answer.1.1, ⟨answer.1.2, answer.2⟩)

def startOnce (stage : Stage) : Except HarvestError Unit × Stage :=
  staged (stage.harvester.start (lister answers) (store answers) stage.world)

def pollOnce (stage : Stage) : Except HarvestError PollReport × Stage :=
  staged (stage.harvester.poll (lister answers) (store answers) (listener answers) stage.world)

def perform (root : String) (stage : Stage) : Act → Stage
  | .start => (startOnce answers stage).2
  | .stop => { stage with harvester := stage.harvester.stop }
  | .restart config => { stage with harvester := harvesterOf root config }
  | .register id name =>
    match stage.harvester.register id name with
    | .ok harvester => { stage with harvester := harvester }
    | .error _ => stage
  | .unregister id => { stage with harvester := stage.harvester.unregister id }
  | .poll => (pollOnce answers stage).2

/-- A poll that has listed the tree and come to its end. -/
structure CompletedPoll where
  /-- The listeners that were registered when it began. -/
  members : List ListenerId
  listing : List ListingEntry
  /-- What listeners were told, in order. -/
  notices : List Notice
  report : PollReport

/-- The answer to the first listing among some calls, and no entries if there is none. -/
def listedIn : List Call → List ListingEntry
  | .list _ (.ok listing) :: _ => listing
  | _ :: calls => listedIn calls
  | [] => []

def noticesIn (calls : List Call) : List Notice :=
  calls.filterMap fun call =>
    match call with
    | .notify notice => some notice
    | _ => none

/-- What a poll is found to have done, if it completes and is not idle. -/
def completed? (stage : Stage) : Option CompletedPoll :=
  match pollOnce answers stage with
  | (.ok report, after) =>
    if report.idle then none
    else
      let calls := after.world.calls.drop stage.world.calls.length
      some ⟨stage.harvester.members, listedIn calls, noticesIn calls, report⟩
  | (.error _, _) => none

def completedPolls (root : String) : Stage → List Act → List CompletedPoll
  | _, [] => []
  | stage, act :: acts =>
    (match act with
      | .poll => (completed? answers stage).toList
      | _ => []) ++ completedPolls root (perform answers root stage act) acts

end CatalogSync.Surroundings
