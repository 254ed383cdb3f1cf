import CatalogSync.Application
import CatalogSync.Proofs.Disk.Databases
import CatalogSync.Proofs.Simulation.Launch

namespace CatalogSync

open Simulation

namespace HarvesterConfig

/-- A harvester that has not been told to start. -/
def freshCell (config : HarvesterConfig) (lister : Nat) (state : Connection) : HarvesterCell :=
  ⟨Harvester.ofConfig config, lister, StoreRef.ofConnection state Harvester.snapshotNamespace, 0,
    none, []⟩

/-- Whether a new harvester can be started on a disk, with its snapshots in a database of that
disk. -/
def StartsOn (config : HarvesterConfig) (disk : Disk) (state : Connection) : Prop :=
  ((Harvester.ofConfig config).start (Bench.lister disk.workingDir true 0)
    (StoreRef.ofConnection state Harvester.snapshotNamespace).blobStore (Bench.start disk)).1.1 =
      .ok ()

instance (config : HarvesterConfig) (disk : Disk) (state : Connection) :
    Decidable (config.StartsOn disk state) :=
  inferInstanceAs (Decidable (_ = _))

/-- A harvester that has been started, with what is stored of it. -/
def startedWith (config : HarvesterConfig) (blob : Option Bytes) : Harvester :=
  { Harvester.ofConfig config with
    properties := config.overrides.toProperties
    snapshot := Harvester.storedSnapshot? blob
    status := .polling }

/-- What becomes of a new harvester when it is told to start. -/
def startedOn (config : HarvesterConfig) (disk : Disk) (state : Connection) :
    Except HarvestError Unit × Harvester :=
  match (DirectoryLister.checkRoot config.root disk).1 with
  | .ok () => (.ok (), config.startedWith
      (((Disk.database state.number).get disk).blobs.value? Harvester.snapshotNamespace
        (persistenceKey config.root)))
  | .error e => (.error (.lister e), Harvester.ofConfig config)

theorem checkRoot_snd (root : String) (disk : Disk) :
    (DirectoryLister.checkRoot root disk).2 = disk := by
  rw [DirectoryLister.checkRoot]
  split <;> rfl

theorem load_blobStore (state : Connection) (namespaceName key : String) (bench : Bench) :
    (StoreRef.ofConnection state namespaceName).blobStore.load key bench =
      (.ok (((Disk.database state.number).get bench.disk).blobs.value? namespaceName key),
        bench) := by
  have hbench : (Bench.diskPart.comp (Disk.database state.number)).lift
      ((Database.blobStore namespaceName).load key) bench =
        (.ok (((Disk.database state.number).get bench.disk).blobs.value? namespaceName key),
          bench) := by
    simp only [Part.lift, Part.comp, Database.blobStore, Bench.diskPart]
    rw [show (Disk.database state.number).set ((Disk.database state.number).get bench.disk)
      bench.disk =
      bench.disk from Disk.set_get_databaseFile state.number bench.disk]
  cases hreadOnly : state.isReadOnly <;>
    simp only [StoreRef.ofConnection, StoreRef.blobStore, hreadOnly, BlobStore.readOnly,
      BlobStore.over, Bool.false_eq_true, if_false, if_true, hbench]

variable {config : HarvesterConfig}

theorem start_ofConfig (hvalid : config.validate = .ok ()) (state : Connection) (cell : Nat)
    (bench : Bench) :
    (Harvester.ofConfig config).start (Bench.lister bench.disk.workingDir true cell)
        (StoreRef.ofConnection state Harvester.snapshotNamespace).blobStore bench =
      (config.startedOn bench.disk state, bench) := by
  have hroot : (Bench.lister bench.disk.workingDir true cell).checkRoot config.root bench =
      ((DirectoryLister.checkRoot config.root bench.disk).1, bench) := by
    have hsame := checkRoot_snd config.root bench.disk
    simp only [Bench.lister, DirectoryLister.lister, Part.lift, Bench.diskPart, if_true]
    generalize DirectoryLister.checkRoot config.root bench.disk = checked at hsame ⊢
    obtain ⟨result, disk⟩ := checked
    subst hsame
    rfl
  have hstopped : (Harvester.ofConfig config).status ≠ .polling := by
    simp [Harvester.ofConfig]
  rw [Harvester.start, if_neg hstopped, Harvester.bringUp, startedOn]
  simp only [Harvester.loadState, hvalid, bind, StateT.bind, hroot, Harvester.ofConfig]
  cases (DirectoryLister.checkRoot config.root bench.disk).1 with
  | error e => rfl
  | ok _ =>
    simp only [StateT.bind, load_blobStore]
    rfl

theorem startsOn_iff_startedOn (hvalid : config.validate = .ok ()) (disk : Disk)
    (state : Connection) :
    config.StartsOn disk state ↔ (config.startedOn disk state).1 = .ok () := by
  have hstart := start_ofConfig hvalid state 0 (Bench.start disk)
  rw [show (Bench.start disk).disk = disk from rfl] at hstart
  rw [StartsOn, hstart]

/-- Only where the root is a directory does a new harvester start, whatever there is in
databases. -/
theorem startsOn_iff (hvalid : config.validate = .ok ()) (disk : Disk) (state : Connection) :
    config.StartsOn disk state ↔ (DirectoryLister.checkRoot config.root disk).1 = .ok () := by
  rw [startsOn_iff_startedOn hvalid, startedOn]
  cases (DirectoryLister.checkRoot config.root disk).1 with
  | error e => simp
  | ok _ => simp

theorem startsOn_congr (hvalid : config.validate = .ok ()) {disk disk' : Disk}
    {state state' : Connection}
    (hroot : disk'.root = disk.root) (hdir : disk'.workingDir = disk.workingDir) :
    config.StartsOn disk' state' ↔ config.StartsOn disk state := by
  have hstart : ∀ path, disk'.startOf path = disk.startOf path := by
    intro path
    rw [Disk.startOf, hdir, Disk.startOf]
  have hnode : ∀ path, disk'.node? path = disk.node? path := by
    intro path
    rw [Disk.node?, Disk.node?, Disk.resolve, Disk.resolve, hstart, hroot]
  rw [startsOn_iff hvalid, startsOn_iff hvalid, DirectoryLister.checkRoot,
    DirectoryLister.checkRoot, hnode]
  cases disk.node? (Bytes.ofText (DirectoryLister.rootPath config.root)) <;> exact Iff.rfl

theorem startsAs_startedOn (hvalid : config.validate = .ok ()) (disk : Disk) (state : Connection)
    (lister : Nat) :
    World.StartsAs lister disk (config.freshCell lister state) (config.startedOn disk state).1
      (config.startedOn disk state).2 where
  overLister := rfl
  queue := rfl
  start := by
    intro bench hdisk hlister
    rw [← hdisk, Bench.listerAt, freshCell, hlister]
    exact start_ofConfig hvalid state lister bench
  interval := by
    rw [startedOn]
    split <;> rfl

theorem looksAtRoot_ofConfig (hvalid : config.validate = .ok ()) :
    World.looksAtRoot (Harvester.ofConfig config) .start = true := by
  simp only [World.looksAtRoot, Harvester.ofConfig, hvalid]
  rfl

end HarvesterConfig

end CatalogSync
