import CatalogSync.Proofs.Application.Listeners
import CatalogSync.Proofs.Application.Startup
import CatalogSync.Proofs.Config.Entries
import CatalogSync.Proofs.Registry.Calls

namespace CatalogSync.Application

open Simulation HarvesterConfig

/-- A harvester that has been brought up, which one it is, and the loop that polls it. -/
structure Launch where
  config : HarvesterConfig
  ref : HarvesterRef
  poller : TaskId

/-- A harvester that polls as it is configured, for the listeners that watch it. -/
structure Attends (watches : List Watch) (config : HarvesterConfig) (h : Harvester) : Prop where
  isPolling : h.status = .polling
  id : h.id = config.id
  configured : h.config = config
  interval : h.interval = config.interval
  members : h.members = ((watches.filter fun watch => watch.harvester = config.id).map
    Watch.listener).foldl (Registry.join config.policy) []

/-- A world in which some harvesters have been brought up, and no others. -/
structure Launches (lister : Nat) (disk : Disk) (listeners : List ListenerRef)
    (watches : List Watch) (launches : List Launch) (world : World) : Prop where
  launched : World.Launched lister none world
  onDisk : world.bench.disk = disk
  heard : world.listeners = listeners
  watched : world.registry.watches = watches
  isRegistered : ∀ id ref, world.registry.harvesters.get? id = some ref ↔
    ∃ launch ∈ launches, launch.config.id = id ∧ launch.ref = ref
  isPolled : ∀ task ref, world.Polls task ref ↔
    ∃ launch ∈ launches, launch.ref = ref ∧ launch.poller = task
  attends : ∀ launch ∈ launches,
    ∃ h, world.harvester? launch.ref = some h ∧ Attends watches launch.config h
  distinct : (launches.map Launch.ref).Nodup

section Steps

variable {lister : Nat} {disk : Disk} {listeners : List ListenerRef} {watches : List Watch}
variable {launches : List Launch} {world : World} {config : HarvesterConfig} {state : Connection}

theorem startHarvester_eq (h : World.Launched lister none world) (hvalid : config.validate = .ok ())
    (state : Connection) :
    ∃ world', startHarvester config lister state world =
        (if config.StartsOn world.bench.disk state then some world.harvesters.length
          else none, world') ∧
      World.AfterStart lister world.harvesters.length (freshCell config lister state)
        (config.startedOn world.bench.disk state).2
        (World.addHarvester config lister
          (StoreRef.ofConnection state Harvester.snapshotNamespace) world).2 world' := by
  have hcell : (World.addHarvester config lister
      (StoreRef.ofConnection state Harvester.snapshotNamespace) world).2.cell?
        world.harvesters.length =
        some (freshCell config lister state) :=
    List.getElem?_concat_length
  obtain ⟨world', hcall, hafter⟩ := World.call_start
    (h.addHarvester config lister (StoreRef.ofConnection state Harvester.snapshotNamespace))
    hcell h.isFree_new rfl (looksAtRoot_ofConfig hvalid)
    (startsAs_startedOn hvalid world.bench.disk state lister)
  refine ⟨world', ?_, hafter⟩
  have hadd : World.addHarvester config lister
      (StoreRef.ofConnection state Harvester.snapshotNamespace) world =
        (world.harvesters.length, (World.addHarvester config lister
          (StoreRef.ofConnection state Harvester.snapshotNamespace) world).2) := rfl
  simp only [startHarvester, bind, StateT.bind]
  rw [hadd]
  simp only [hcall, startsOn_iff_startedOn hvalid]
  cases (config.startedOn world.bench.disk state).1 with
  | error e => rfl
  | ok _ => rfl

theorem harvester?_afterStart {world' : World} {store : StoreRef} {started : Harvester}
    (h : World.AfterStart lister world.harvesters.length (freshCell config lister state) started
      (World.addHarvester config lister store world).2 world') (ref : HarvesterRef) :
    world'.harvester? ref =
      if ref = world.harvesters.length then some started else world.harvester? ref := by
  have hlist : world'.harvesters.map HarvesterCell.harvester =
      world.harvesters.map HarvesterCell.harvester ++ [started] := by
    rw [h.harvesters, World.addHarvester, List.map_append]
    simp
  rw [World.harvester?, World.cell?, ← List.getElem?_map, hlist, getElem?_concat_eq,
    List.length_map, List.getElem?_map]
  rfl

theorem Launches.ref_lt (h : Launches lister disk listeners watches launches world)
    {launch : Launch} (hlaunch : launch ∈ launches) : launch.ref < world.harvesters.length := by
  obtain ⟨harvester, hharvester, -⟩ := h.attends launch hlaunch
  obtain ⟨cell, hcell, -⟩ := Option.map_eq_some_iff.mp hharvester
  exact (List.getElem?_eq_some_iff.mp hcell).1

theorem polls_afterStart {world' : World} {store : StoreRef} {started : Harvester}
    (h : World.AfterStart lister world.harvesters.length (freshCell config lister state) started
      (World.addHarvester config lister store world).2 world') (task : TaskId)
    (ref : HarvesterRef) : world'.Polls task ref ↔ world.Polls task ref := by
  rw [World.polls_iff_of_concat h.outlines]
  simp [World.addHarvester, World.Polls]

theorem Launches.skip (h : Launches lister disk listeners watches launches world)
    (hvalid : config.validate = .ok ()) (hfails : ¬config.StartsOn disk state) :
    ∃ world', startHarvester config lister state world = (none, world') ∧
      Launches lister disk listeners watches launches world' := by
  obtain ⟨world', hstart, hafter⟩ := startHarvester_eq h.launched hvalid state
  rw [h.onDisk, if_neg hfails] at hstart
  refine ⟨world', hstart, hafter.launched, hafter.disk.trans h.onDisk,
    hafter.listeners.trans h.heard, hafter.registry ▸ h.watched, hafter.registry ▸ h.isRegistered,
    fun task ref => ?_, ?_, h.distinct⟩
  · rw [polls_afterStart hafter, h.isPolled]
  · intro launch hlaunch
    obtain ⟨harvester, hharvester, hattends⟩ := h.attends launch hlaunch
    refine ⟨harvester, ?_, hattends⟩
    rw [harvester?_afterStart hafter, if_neg (Nat.ne_of_lt (h.ref_lt hlaunch)), hharvester]

theorem startedOn_of_startsOn (hvalid : config.validate = .ok ())
    (hstarts : config.StartsOn disk state) :
    ∃ blob, config.startedOn disk state = (.ok (), config.startedWith blob) := by
  have hroot := (startsOn_iff hvalid disk state).mp hstarts
  rw [startedOn, hroot]
  exact ⟨_, rfl⟩

/-- A harvester with those who watch it. -/
def withWatching (registry : Registry) (h : Harvester) : Harvester :=
  (Registry.attachAll h (registry.watchesOn h.id)).1

theorem attends_withWatching (config : HarvesterConfig) {registry : Registry}
    (hwatches : registry.watches = watches)
    (blob : Option Bytes) : Attends watches config
      (withWatching registry (config.startedWith blob)) := by
  rw [withWatching, Registry.attachAll_fst, Registry.watchesOn, hwatches]
  exact ⟨rfl, rfl, rfl, rfl, rfl⟩

/-- The world once a harvester is registered. -/
def enrolled (world : World) (ref : HarvesterRef) (cell : HarvesterCell) : World :=
  { world with registry := { world.registry with
      harvesters := world.registry.harvesters.insert cell.harvester.id ref } }.setCell ref
    { cell with harvester := withWatching world.registry cell.harvester }

theorem registerHarvester_eq {ref : HarvesterRef} {cell : HarvesterCell}
    (hcell : world.cell? ref = some cell)
    (hnew : world.registry.harvesters.get? cell.harvester.id = none) :
    ∃ attached, World.registerHarvester ref world = (.ok attached, enrolled world ref cell) := by
  simp only [World.registerHarvester, hcell, Registry.addHarvester, Table.contains, hnew,
    Option.isSome_none, Bool.false_eq_true, if_false]
  exact ⟨_, rfl⟩

theorem launched_enrolled (h : World.Launched lister none world) {ref : HarvesterRef}
    (hfree : world.IsFree ref) (cell : HarvesterCell) :
    World.Launched lister none (enrolled world ref cell) := by
  have hregistered : World.Launched lister none { world with registry := { world.registry with
      harvesters := world.registry.harvesters.insert cell.harvester.id ref } } :=
    h.of_same rfl rfl fun _ _ _ _ => rfl
  exact hregistered.setCell hfree _

theorem harvester?_enrolled {ref : HarvesterRef} {cell : HarvesterCell}
    (hcell : world.cell? ref = some cell)
    (other : HarvesterRef) : (enrolled world ref cell).harvester? other =
      if other = ref then some (withWatching world.registry cell.harvester)
        else world.harvester? other :=
  World.harvester?_setCell { world with registry := _ } ref other hcell _

theorem Launches.get?_eq_none (h : Launches lister disk listeners watches launches world)
    (hnew : ∀ launch ∈ launches, launch.config.id ≠ config.id) :
    world.registry.harvesters.get? config.id = none := by
  rw [Option.eq_none_iff_forall_ne_some]
  intro ref href
  obtain ⟨launch, hlaunch, hid, -⟩ := (h.isRegistered _ _).mp href
  exact hnew launch hlaunch hid

theorem Launches.isFree_new (h : Launches lister disk listeners watches launches world)
    {started : World} (hlaunched : World.Launched lister none started)
    (hpolls : ∀ task ref, started.Polls task ref ↔ world.Polls task ref) :
    started.IsFree world.harvesters.length := by
  refine hlaunched.isFree_of_not_polls fun task htask => ?_
  obtain ⟨launch, hlaunch, href, -⟩ := (h.isPolled _ _).mp ((hpolls _ _).mp htask)
  exact Nat.ne_of_lt (h.ref_lt hlaunch) href

theorem Launches.get?_insert_iff (h : Launches lister disk listeners watches launches world)
    (hnew : ∀ launch ∈ launches, launch.config.id ≠ config.id) (ref : HarvesterRef)
    (poller : TaskId) (id : String) (other : HarvesterRef) :
    (world.registry.harvesters.insert config.id ref).get? id = some other ↔
      ∃ launch ∈ launches ++ [⟨config, ref, poller⟩],
        launch.config.id = id ∧ launch.ref = other := by
  simp only [List.mem_append, List.mem_singleton, or_and_right, exists_or, exists_eq_left,
    ← h.isRegistered]
  rw [Table.get?_insert]
  by_cases hid : id = config.id
  · simp [hid, h.get?_eq_none hnew]
  · simp [hid, Ne.symm hid]

theorem Launches.distinct_concat (h : Launches lister disk listeners watches launches world)
    (config : HarvesterConfig) (poller : TaskId) :
    ((launches ++ [Launch.mk config world.harvesters.length poller]).map Launch.ref).Nodup := by
  rw [List.map_append, List.nodup_append]
  refine ⟨h.distinct, List.nodup_singleton _, ?_⟩
  intro ref href ref' href'
  obtain ⟨launch, hlaunch, rfl⟩ := List.mem_map.mp href
  obtain rfl := List.mem_singleton.mp href'
  exact Nat.ne_of_lt (h.ref_lt hlaunch)

theorem Launches.bringUp (h : Launches lister disk listeners watches launches world)
    (hvalid : config.validate = .ok ()) (hstarts : config.StartsOn disk state)
    (hnew : ∀ launch ∈ launches, launch.config.id ≠ config.id) :
    ∃ ref started attached registered poller world',
      startHarvester config lister state world = (some ref, started) ∧
      World.registerHarvester ref started = (.ok attached, registered) ∧
      World.spawnPoller ref registered = (poller, world') ∧
      Launches lister disk listeners watches (launches ++ [⟨config, ref, poller⟩]) world' := by
  obtain ⟨started, hstart, hafter⟩ := startHarvester_eq h.launched hvalid state
  rw [h.onDisk, if_pos hstarts] at hstart
  obtain ⟨blob, hstarted⟩ := startedOn_of_startsOn hvalid hstarts
  rw [h.onDisk, hstarted] at hafter
  have hregistry : started.registry = world.registry := hafter.registry
  have hpolls := polls_afterStart hafter
  have hfree := h.isFree_new hafter.launched hpolls
  have hwatches : started.registry.watches = watches :=
    (congrArg Registry.watches hregistry).trans h.watched
  obtain ⟨attached, hregister⟩ :=
    registerHarvester_eq hafter.isKept (by rw [hregistry]; exact h.get?_eq_none hnew)
  have hattends := attends_withWatching config hwatches blob
  refine ⟨_, started, attached, _, _, _, hstart, hregister, rfl, ?_⟩
  exact {
    launched := by
      refine (launched_enrolled hafter.launched hfree _).spawnPoller hfree
        (World.cell?_setCell hafter.isKept _) rfl ?_ rfl rfl rfl
      rw [hattends.interval]
      exact interval_ne_zero_of_validate hvalid
    onDisk := hafter.disk.trans h.onDisk
    heard := hafter.listeners.trans h.heard
    watched := hwatches
    isRegistered := fun id ref => by
      rw [← h.get?_insert_iff hnew, ← hregistry]
      rfl
    isPolled := by
      intro task ref
      simp only [List.mem_append, List.mem_singleton, or_and_right, exists_or, exists_eq_left,
        ← h.isPolled, ← hpolls]
      refine (World.polls_spawnPoller _ task).trans (or_congr Iff.rfl ?_)
      exact and_comm.trans (and_congr Iff.rfl eq_comm)
    attends := by
      intro launch hlaunch
      rcases List.mem_append.mp hlaunch with hold | hlast
      · obtain ⟨harvester, hharvester, hold'⟩ := h.attends launch hold
        have hne := Nat.ne_of_lt (h.ref_lt hold)
        refine ⟨harvester, (harvester?_enrolled hafter.isKept launch.ref).trans ?_, hold'⟩
        rw [if_neg hne, harvester?_afterStart hafter, if_neg hne, hharvester]
      · obtain rfl := List.mem_singleton.mp hlast
        refine ⟨_, (harvester?_enrolled hafter.isKept _).trans (if_pos rfl), hattends⟩
    distinct := h.distinct_concat config _ }

end Steps

/-- The harvester with an id, if its settings make sense and it can be started on a disk. -/
def startable? (settings : Settings) (disk : Disk) (state : Connection) (id : String) :
    Option HarvesterConfig :=
  (ofSettings settings id).toOption.filter fun config => config.StartsOn disk state

theorem startable?_eq_some_iff {settings : Settings} {disk : Disk} {state : Connection}
    {id : String} {config : HarvesterConfig} : startable? settings disk state id = some config ↔
      ofSettings settings id = .ok config ∧ config.StartsOn disk state := by
  rw [startable?, Option.filter_eq_some_iff, decide_eq_true_iff, toOption_eq_some_iff]

section Runs

variable {lister : Nat} {disk : Disk} {listeners : List ListenerRef} {watches : List Watch}
variable {launches : List Launch} {world : World}

/-- Those that can be started are brought up one after the other; nobody else gets in their way. -/
theorem Launches.restore (h : Launches lister disk listeners watches launches world)
    {ids : List String}
    (hids : ids.Nodup) (hnew : ∀ launch ∈ launches, launch.config.id ∉ ids) {settings : Settings}
    (state : Connection) (app : Application)
    (hsettings : disk.settings app.settings = .ok settings) :
    ∃ more world', app.restoreHarvestersWithIds lister state ids world =
        ((.ok more.length, { app with pollers := app.pollers ++ more.map Launch.poller }), world') ∧
      more.map Launch.config = ids.filterMap (startable? settings disk state) ∧
      Launches lister disk listeners watches (launches ++ more) world' := by
  induction ids generalizing launches world app with
  | nil =>
    refine ⟨[], world, ?_, rfl, ?_⟩
    · rw [restoreHarvestersWithIds, List.map_nil, List.append_nil]
      rfl
    · rwa [List.append_nil]
  | cons id rest ih =>
    obtain ⟨hid, hrest⟩ := List.nodup_cons.mp hids
    have hlater : ∀ launch ∈ launches, launch.config.id ∉ rest :=
      fun launch hlaunch hmem => hnew launch hlaunch (List.mem_cons_of_mem _ hmem)
    have hread := readEntry_eq app (fun settings => ofSettings settings id) world
    rw [h.onDisk, hsettings] at hread
    cases hconfig : ofSettings settings id with
    | error e =>
      obtain ⟨more, world', hrun, hmore, hlaunches⟩ := ih h hrest hlater app hsettings
      refine ⟨more, world', ?_, ?_, hlaunches⟩
      · simp only [restoreHarvestersWithIds, bind, StateT.bind, hread, Except.bind, hconfig, hrun]
      · rw [hmore, List.filterMap_cons_none]
        simp [startable?, hconfig, Except.toOption]
    | ok config =>
      obtain ⟨rfl, hvalid, -⟩ := ofSettings_eq_ok hconfig
      by_cases hstarts : config.StartsOn disk state
      · obtain ⟨ref, started, attached, registered, poller, world₁, hstart, hregister, hspawn,
          hstep⟩ := h.bringUp hvalid hstarts fun launch hlaunch heq =>
            hnew launch hlaunch (heq ▸ List.mem_cons_self)
        obtain ⟨more, world', hrun, hmore, hlaunches⟩ := ih hstep hrest (by
          intro launch hlaunch
          rcases List.mem_append.mp hlaunch with hold | hlast
          · exact hlater launch hold
          · rw [List.mem_singleton.mp hlast]
            exact hid) { app with pollers := app.pollers ++ [poller] } hsettings
        refine ⟨⟨config, ref, poller⟩ :: more, world', ?_, ?_, ?_⟩
        · simp only [restoreHarvestersWithIds, bind, StateT.bind, hread, Except.bind, hconfig,
            hstart, hregister, hspawn, hrun]
          rw [List.append_assoc]
          rfl
        · rw [List.filterMap_cons_some (startable?_eq_some_iff.mpr ⟨hconfig, hstarts⟩), ← hmore]
          rfl
        · rwa [List.append_assoc] at hlaunches
      · obtain ⟨world₁, hstart, hstep⟩ := h.skip hvalid hstarts
        obtain ⟨more, world', hrun, hmore, hlaunches⟩ := ih hstep hrest hlater app hsettings
        refine ⟨more, world', ?_, ?_, hlaunches⟩
        · simp only [restoreHarvestersWithIds, bind, StateT.bind, hread, Except.bind, hconfig,
            hstart, hrun]
        · rw [hmore, List.filterMap_cons_none]
          simp [startable?, hconfig, Except.toOption, hstarts]

end Runs

end CatalogSync.Application
