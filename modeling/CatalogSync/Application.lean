import CatalogSync.Disk.Settings
import CatalogSync.Simulation.Timeline

/-!
The application: it keeps settings and state in two databases of a data directory, and brings up the
listeners and harvesters that the settings describe. An entry that is misconfigured is skipped; what
fails beyond that ends the restoration where it is.
-/

namespace CatalogSync

open Simulation

inductive ApplicationError where
  | io (reason : FileError)
  | config (reason : ConfigError)
  | catalog (reason : IngestError)
  | store (reason : StoreError)
  | registry (reason : RegistryError)
  deriving DecidableEq, Repr

structure Application where
  dataDir : String
  /-- The database with the settings. -/
  settings : Connection
  pollers : List TaskId

namespace Application

def configFile : String := "config.sqlite"
def stateFile : String := "state.sqlite"

/-- Acts on the disk of a world. -/
def onDisk {α : Type} (action : StateM Disk α) : StateM World α :=
  World.onBench (Bench.diskPart.lift action)

/-- Opens the application in a data directory, with an empty registry. -/
def openAt (dataDir : String) : StateM World (Except ApplicationError Application) := do
  match ← onDisk (Disk.ensureDirectory (Bytes.ofText dataDir)) with
  | .error e => return .error (.io e)
  | .ok () =>
    match ← onDisk (Disk.openSettings (Bytes.ofText (Path.join dataDir configFile))) with
    | .error e => return .error (.config e)
    | .ok settings =>
      modify fun world => { world with registry := Registry.empty }
      return .ok ⟨dataDir, settings, []⟩

/-- The settings as they are. -/
def readSettings (app : Application) : StateM World (Except ConfigError Settings) := do
  return (← get).bench.disk.settings app.settings

/-- An entry of the settings as they are. -/
def readEntry {α : Type} (app : Application) (entry : Settings → Except ConfigError α) :
    StateM World (Except ConfigError α) := do
  return (← app.readSettings).bind entry

def setSetting (app : Application) (key value : String) :
    StateM World (Except ConfigError Unit) :=
  onDisk (Disk.setSetting app.settings key value)

def removeSetting (app : Application) (key : String) : StateM World (Except ConfigError Unit) :=
  onDisk (Disk.removeSetting app.settings key)

/-- Opens the database with the state of harvesters and listeners. -/
def openState (app : Application) : StateM World (Except ApplicationError Connection) := do
  match ← onDisk (Disk.openBlobs (Bytes.ofText (Path.join app.dataDir stateFile))) with
  | .error e => return .error (.store e)
  | .ok state => return .ok state

/-- The directory of the catalog of a listener. -/
def catalogDir (app : Application) (config : ListenerConfig) : String :=
  config.catalogDir.getD (Path.join (Path.join app.dataDir "catalog") config.name)

/-- Brings up one listener. -/
def restoreListener (app : Application) (config : ListenerConfig) :
    StateM World (Except ApplicationError Unit) := do
  match ← onDisk (DirectoryCatalog.openAt (app.catalogDir config)) with
  | .error e => return .error (.catalog e)
  | .ok catalog =>
    match ← app.openState with
    | .error e => return .error e
    | .ok state =>
      let store := StoreRef.ofConnection state (Correlation.namespaceOf config.name)
      let listener ← World.addListener (.persistent config.name (.directory catalog) store)
      let _ ← World.watch config.watch listener
      return .ok ()

/-- Brings up listeners by name and counts those that are not skipped. The settings are read again
for each of them. -/
def restoreListenersNamed (app : Application) :
    List String → StateM World (Except ApplicationError Nat)
  | [] => pure (.ok 0)
  | name :: rest => do
    match ← app.readEntry fun settings => ListenerConfig.ofSettings settings name with
    | .error _ => restoreListenersNamed app rest
    | .ok config =>
      match ← app.restoreListener config with
      | .error e => return .error e
      | .ok () =>
        match ← restoreListenersNamed app rest with
        | .error e => return .error e
        | .ok restored => return .ok (restored + 1)

/-- Brings up all listeners of the settings and hands them to the registry. -/
def restoreListeners (app : Application) : StateM World (Except ApplicationError Nat) := do
  match ← app.readSettings with
  | .error e => return .error (.config e)
  | .ok settings => app.restoreListenersNamed settings.listenerNames

/-- The lister of harvesters: the disk. -/
def addDiskLister : StateM World Nat := fun world =>
  let cell : ListerCell := ⟨none, 0, none, []⟩
  (world.bench.listers.length,
    { world with bench := { world.bench with listers := world.bench.listers ++ [cell] } })

/-- Starts a harvester. The answer is which one it is, if it could be started. -/
def startHarvester (config : HarvesterConfig) (lister : Nat) (state : Connection) :
    StateM World (Option HarvesterRef) := do
  let store := StoreRef.ofConnection state Harvester.snapshotNamespace
  let ref ← World.addHarvester config lister store
  match ← World.call ref .start with
  | some (.started (.ok ())) => return some ref
  | _ => return none

/-- Brings up harvesters by id and counts those that are not skipped. The settings are read again
for each of them. -/
def restoreHarvestersWithIds (app : Application) (lister : Nat) (state : Connection) :
    List String → StateM World (Except ApplicationError Nat × Application)
  | [] => pure (.ok 0, app)
  | id :: rest => do
    match ← app.readEntry fun settings => HarvesterConfig.ofSettings settings id with
    | .error _ => restoreHarvestersWithIds app lister state rest
    | .ok config =>
      match ← startHarvester config lister state with
      | none => restoreHarvestersWithIds app lister state rest
      | some ref =>
        match ← World.registerHarvester ref with
        | .error e => return (.error (.registry e), app)
        | .ok _ =>
          let poller ← World.spawnPoller ref
          let app := { app with pollers := app.pollers ++ [poller] }
          match ← restoreHarvestersWithIds app lister state rest with
          | (.error e, app) => return (.error e, app)
          | (.ok restored, app) => return (.ok (restored + 1), app)

/-- Starts all harvesters of the settings, registers them and lets them poll. -/
def restoreHarvesters (app : Application) :
    StateM World (Except ApplicationError Nat × Application) := do
  match ← app.openState with
  | .error e => return (.error e, app)
  | .ok state =>
    match ← app.readSettings with
    | .error e => return (.error (.config e), app)
    | .ok settings =>
      let lister ← addDiskLister
      app.restoreHarvestersWithIds lister state settings.harvesterIds

/-- The registered harvesters in ascending order of their ids. -/
def registered : StateM World (List HarvesterRef) := fun world =>
  (world.registry.harvesters.entries.map Prod.snd, world)

/-- Makes one request to each of some harvesters. -/
def callEach (request : Request) : List HarvesterRef → StateM World Unit
  | [] => pure ()
  | ref :: rest => do
    let _ ← World.call ref request
    callEach request rest

/-- Lets all loops do what is due, and then polls every registered harvester once more. -/
def settle : StateM World Unit := do
  modify World.settle
  callEach .poll (← registered)

/-- Shuts down loops one after the other. -/
def shutdownPollers : List TaskId → StateM World Unit
  | [] => pure ()
  | poller :: rest => do
    modify (World.shutdownPoller poller)
    shutdownPollers rest

/-- Shuts down all loops, waiting for polls they are in, and stops all harvesters. -/
def shutdown (app : Application) : StateM World Application := do
  shutdownPollers app.pollers
  callEach .stop (← registered)
  return { app with pollers := [] }

/-- Shuts the application down and closes its databases. -/
def close (app : Application) : StateM World Unit := do
  let _ ← app.shutdown
  onDisk (modify (Disk.closeUnused fun _ => false))

/-- The location that a record is about; empty if it does not tell. -/
def locationOf (record : Record) : String :=
  ((record.get? Attribute.resourceUri).bind Json.text?).getD ""

/-- The records of a catalog that can be read, in the order of their locations. The directory of the
catalog is made if need be. -/
def dump (dir : String) : StateM World (Except IngestError (List Record)) := do
  match ← onDisk (DirectoryCatalog.openAt dir) with
  | .error e => return .error e
  | .ok catalog =>
    let disk := (← get).bench.disk
    match catalog.ids disk with
    | .error e => return .error e
    | .ok ids =>
      let records := ids.filterMap fun id => (catalog.get? disk id).toOption.join
      return .ok (records.mergeSort fun a b => !Text.before (locationOf b) (locationOf a))

end Application

end CatalogSync
