import CatalogSync.Proofs.Application.Harvesters
import CatalogSync.Proofs.Application.Listeners
import CatalogSync.Proofs.Disk.Opening

/-!
Restoring an application from its settings, whatever they are. Every entry counts for itself: one
that is misconfigured or cannot be started is left out, and the others come up as if it were not
there.
-/

namespace CatalogSync.Application

open Simulation

/-- An application that nothing has been restored for, in a world in which nothing goes on. -/
structure IsFresh (app : Application) (world : World) : Prop where
  pollers : app.pollers = []
  registry : world.registry = Registry.empty
  idle : ∀ (task : TaskId) (work : Task), world.tasks[task]? = some work → work.IsOver

theorem isFresh_openAt {dataDir : String} {app : Application} {before world : World}
    (hidle : ∀ (task : TaskId) (work : Task), before.tasks[task]? = some work → work.IsOver)
    (hopen : openAt dataDir before = (.ok app, world)) : app.IsFresh world := by
  simp only [openAt, bind, StateT.bind] at hopen
  split at hopen
  rename_i result made hmade
  cases result with
  | error e => cases hopen
  | ok _ =>
    simp only [StateT.bind, bind] at hopen
    split at hopen
    rename_i result opened hopened
    cases result with
    | error e => cases hopen
    | ok settings =>
      cases hopen
      have htasks : opened.tasks = before.tasks :=
        (congrArg (fun done => done.2.tasks) hopened).symm.trans
          (congrArg (fun done => done.2.tasks) hmade).symm
      refine ⟨rfl, rfl, fun task work hwork => hidle task work ?_⟩
      rwa [← htasks]

/-- Opens what the listeners of an application need, and then the database with its state once
more. -/
def openPlaces (app : Application) (settings : Settings) :
    StateM Disk (Except ApplicationError (List Connection × Connection)) := fun disk =>
  match app.openListeners (configuredListeners settings) disk with
  | (.error e, disk) => (.error e, disk)
  | (.ok states, disk) =>
    match Disk.openBlobs (Bytes.ofText (Path.join app.dataDir stateFile)) disk with
    | (.error e, disk) => (.error (.store e), disk)
    | (.ok state, disk) => (.ok (states, state), disk)

/-- The catalogs and the stores of an application can be opened, which takes a disk to another one,
on which the settings can still be read. -/
structure Opens (app : Application) (settings : Settings) (disk : Disk) (states : List Connection)
    (state : Connection) (disk' : Disk) : Prop where
  places : app.openPlaces settings disk = (.ok (states, state), disk')
  settings : (disk'.settings app.settings).isOk = true

/-- The listeners that watch a harvester, by number, of those that are numbered from some number
on. -/
def watching (first : ListenerId) (configs : List ListenerConfig) (id : String) : List ListenerId :=
  ((configs.zipIdx first).filter fun (config, _) => config.watch = id).map Prod.snd

/-- What has been restored: the harvesters that can be started, each with those of the listeners
that watch it, and each with a loop of its own. -/
structure IsRestored (settings : Settings) (disk : Disk) (state : Connection) (first : ListenerId)
    (app : Application) (world : World) : Prop where
  isRegistered : ∀ id, world.registry.harvesters.contains id = true ↔
    settings.contains (HarvesterConfig.key id "root") = true ∧
      ∃ config, HarvesterConfig.ofSettings settings id = .ok config ∧ config.StartsOn disk state
  attends : ∀ id ref, world.registry.harvesters.get? id = some ref → ∃ config h,
    HarvesterConfig.ofSettings settings id = .ok config ∧ world.harvester? ref = some h ∧
      h.id = id ∧ h.config = config ∧ h.status = .polling ∧
      Registry.Holds config.policy h.members (watching first (configuredListeners settings) id)
  isPolled : ∀ id ref, world.registry.harvesters.get? id = some ref →
    ∃ poller ∈ app.pollers, ∀ task, world.Polls task ref ↔ task = poller
  polls : app.pollers.length = world.registry.harvesters.size

section Opening

variable {app : Application} {settings : Settings} {disk disk' : Disk} {states : List Connection}
variable {state : Connection}

theorem openPlaces_eq_ok (h : app.openPlaces settings disk = (.ok (states, state), disk')) :
    ∃ between, app.openListeners (configuredListeners settings) disk = (.ok states, between) ∧
      Disk.openBlobs (Bytes.ofText (Path.join app.dataDir stateFile)) between =
        (.ok state, disk') := by
  rw [openPlaces] at h
  split at h
  · cases h
  · rename_i between hlisteners
    split at h
    · cases h
    · rename_i hstate
      cases h
      exact ⟨between, hlisteners, hstate⟩

theorem Opens.settings_eq (h : app.Opens settings disk states state disk')
    (hsettings : disk.settings app.settings = .ok settings) :
    disk'.settings app.settings = .ok settings := by
  obtain ⟨between, hlisteners, hstate⟩ := openPlaces_eq_ok h.places
  have hopened := Disk.keepsContents_openBlobs (Bytes.ofText (Path.join app.dataDir stateFile))
    between
  rw [hstate] at hopened
  exact ((keepsContents_openListeners hlisteners).trans hopened).settings_eq hsettings h.settings

theorem Opens.not_isShutOut {between : Disk} (h : app.Opens settings disk states state disk')
    (hstate : Disk.openBlobs (Bytes.ofText (Path.join app.dataDir stateFile)) between =
      (.ok state, disk')) :
    ¬Disk.IsShutOut app.settings (Bytes.ofText (Path.join app.dataDir stateFile)) between := by
  intro hout
  have hsettings := h.settings
  rw [Disk.settings, (hout.openBlobs hstate).isKept] at hsettings
  cases hsettings

end Opening

section Restoring

variable {app : Application} {settings : Settings} {world : World} {between disk : Disk}
variable {states : List Connection} {state : Connection} {configs : List ListenerConfig}

theorem launches_nil (hfresh : app.IsFresh world) (configs : List ListenerConfig)
    (states : List Connection) (disk : Disk) :
    Launches (addDiskLister (app.listening configs states disk world)).1 disk
      (world.listeners ++ List.zipWith app.listenerOf configs states)
      (watchesFrom world.listeners.length configs) []
      (addDiskLister (app.listening configs states disk world)).2 where
  launched := {
    isDisk := by
      simp [addDiskLister, listening, Bench.isDiskLister, Bench.listerCell, Part.item]
    isFast := by
      simp [addDiskLister, listening, Bench.listerCell, Part.item]
    loops := fun task work hwork _ => Or.inl (hfresh.idle task work hwork)
    apart := fun task _ work _ hwork _ hopen => absurd (hfresh.idle task work hwork) hopen }
  onDisk := rfl
  heard := rfl
  watched := by
    simp [addDiskLister, listening, hfresh.registry, Registry.empty]
  isRegistered := by
    intro id ref
    simp only [addDiskLister, listening, hfresh.registry, Registry.empty]
    simp [Table.get?, Table.empty, Table.lookupEntry]
  isPolled := by
    intro task ref
    simp only [List.not_mem_nil, false_and, exists_false, iff_false]
    exact World.not_polls_of_isOver (hfresh.idle task)
  attends := by simp
  distinct := List.nodup_nil

theorem restoreListeners_eq (hfresh : app.IsFresh world)
    (hsettings : world.bench.disk.settings app.settings = .ok settings)
    (hopens : app.openListeners (configuredListeners settings) world.bench.disk =
      (.ok states, between))
    (hreadable : ¬Disk.IsShutOut app.settings (Bytes.ofText (Path.join app.dataDir stateFile))
      between) :
    app.restoreListeners world = (.ok (configuredListeners settings).length,
      app.listening (configuredListeners settings) states between world) := by
  have hempty : world.registry.harvesters = Table.empty := by rw [hfresh.registry, Registry.empty]
  simp only [restoreListeners, bind, StateT.bind, readSettings_eq, hsettings]
  exact restoreListenersNamed_eq hsettings hopens hreadable hempty

theorem restoreHarvesters_eq (hsettings : disk.settings app.settings = .ok settings)
    (hstate : Disk.openBlobs (Bytes.ofText (Path.join app.dataDir stateFile)) between =
      (.ok state, disk)) :
    app.restoreHarvesters (app.listening configs states between world) =
      app.restoreHarvestersWithIds (addDiskLister (app.listening configs states disk world)).1 state
        settings.harvesterIds (addDiskLister (app.listening configs states disk world)).2 := by
  have hopened := onDisk_eq (app.listening configs states between world) hstate
  have hread : app.readSettings (app.listening configs states disk world) =
      (.ok settings, app.listening configs states disk world) := by
    rw [readSettings_eq]
    exact congrArg (·, _) hsettings
  have hopenState : app.openState (app.listening configs states between world) =
      (.ok state, app.listening configs states disk world) := by
    simp only [openState, bind, StateT.bind, hopened]
    rfl
  simp only [restoreHarvesters, bind, StateT.bind, hopenState, hread]
  rfl

theorem mem_filterMap_startable?_iff {config : HarvesterConfig} :
    config ∈ settings.harvesterIds.filterMap (startable? settings disk state) ↔
      HarvesterConfig.ofSettings settings config.id = .ok config ∧ config.StartsOn disk state := by
  rw [List.mem_filterMap, ← startable?_eq_some_iff]
  constructor
  · rintro ⟨id, -, hstartable⟩
    obtain ⟨hconfig, -⟩ := startable?_eq_some_iff.mp hstartable
    rwa [(HarvesterConfig.ofSettings_eq_ok hconfig).1]
  · intro hstartable
    obtain ⟨hconfig, -⟩ := startable?_eq_some_iff.mp hstartable
    exact ⟨config.id, HarvesterConfig.mem_harvesterIds_of_ofSettings hconfig, hstartable⟩

theorem nodup_filterMap_startable? :
    ((settings.harvesterIds.filterMap (startable? settings disk state)).map
      HarvesterConfig.id).Nodup := by
  have hids := settings.nodup_idsBetween "harvester." ".root"
  rw [List.Nodup, List.pairwise_map, List.pairwise_filterMap]
  refine hids.imp ?_
  rintro id id' hne config hconfig config' hconfig' hsame
  have hid := (HarvesterConfig.ofSettings_eq_ok (startable?_eq_some_iff.mp hconfig).1).1
  have hid' := (HarvesterConfig.ofSettings_eq_ok (startable?_eq_some_iff.mp hconfig').1).1
  exact hne (hid.symm.trans (hsame.trans hid'))

theorem map_listener_watchesFrom (first : ListenerId) (configs : List ListenerConfig)
    (id : String) :
    ((watchesFrom first configs).filter fun watch => watch.harvester = id).map Watch.listener =
      watching first configs id := by
  simp only [watchesFrom, watching, List.filter_map, List.map_map]
  rfl

section Launched

variable {lister : Nat} {listeners : List ListenerRef} {watches : List Watch} {first : ListenerId}
variable {launches : List Launch} {restored : World}

theorem Launches.contains_iff (h : Launches lister disk listeners watches launches restored)
    (id : String) :
    restored.registry.harvesters.contains id = true ↔
      ∃ launch ∈ launches, launch.config.id = id := by
  rw [Table.contains, Option.isSome_iff_exists]
  constructor
  · rintro ⟨ref, href⟩
    obtain ⟨launch, hlaunch, hid, -⟩ := (h.isRegistered id ref).mp href
    exact ⟨launch, hlaunch, hid⟩
  · rintro ⟨launch, hlaunch, hid⟩
    exact ⟨launch.ref, (h.isRegistered id launch.ref).mpr ⟨launch, hlaunch, hid, rfl⟩⟩

theorem Launches.size_eq (h : Launches lister disk listeners watches launches restored)
    (hids : ((launches.map Launch.config).map HarvesterConfig.id).Nodup) :
    restored.registry.harvesters.size = launches.length := by
  have hperm : restored.registry.harvesters.keys.Perm
      ((launches.map Launch.config).map HarvesterConfig.id) := by
    rw [List.perm_ext_iff_of_nodup (Table.nodup_keys _) hids]
    intro id
    rw [← Table.contains_eq_true_iff, h.contains_iff]
    simp
  rw [← Table.length_keys, hperm.length_eq, List.length_map, List.length_map]

theorem isRestored_of_launches
    (h : Launches lister disk listeners (watchesFrom first (configuredListeners settings)) launches
      restored)
    (hlaunches : launches.map Launch.config =
      settings.harvesterIds.filterMap (startable? settings disk state))
    (hpollers : app.pollers = launches.map Launch.poller) :
    IsRestored settings disk state first app restored := by
  have hstartable : ∀ launch ∈ launches,
      HarvesterConfig.ofSettings settings launch.config.id = .ok launch.config ∧
        launch.config.StartsOn disk state := by
    intro launch hlaunch
    rw [← mem_filterMap_startable?_iff, ← hlaunches]
    exact List.mem_map_of_mem hlaunch
  refine ⟨fun id => ?_, ?_, ?_, ?_⟩
  · rw [h.contains_iff]
    constructor
    · rintro ⟨launch, hlaunch, rfl⟩
      obtain ⟨hconfig, hstarts⟩ := hstartable launch hlaunch
      exact ⟨(HarvesterConfig.ofSettings_eq_ok hconfig).2.2, launch.config, hconfig, hstarts⟩
    · rintro ⟨-, config, hconfig, hstarts⟩
      obtain ⟨rfl, -⟩ := HarvesterConfig.ofSettings_eq_ok hconfig
      have hmem := mem_filterMap_startable?_iff.mpr ⟨hconfig, hstarts⟩
      rw [← hlaunches] at hmem
      obtain ⟨launch, hlaunch, rfl⟩ := List.mem_map.mp hmem
      exact ⟨launch, hlaunch, rfl⟩
  · intro id ref href
    obtain ⟨launch, hlaunch, rfl, rfl⟩ := (h.isRegistered id ref).mp href
    obtain ⟨harvester, hharvester, hattends⟩ := h.attends launch hlaunch
    refine ⟨launch.config, harvester, (hstartable launch hlaunch).1, hharvester, hattends.id,
      hattends.configured, hattends.isPolling, ?_⟩
    rw [hattends.members, map_listener_watchesFrom]
    exact Registry.holds_foldl_join_nil
  · intro id ref href
    obtain ⟨launch, hlaunch, -, rfl⟩ := (h.isRegistered id ref).mp href
    refine ⟨launch.poller, hpollers ▸ List.mem_map_of_mem hlaunch, fun task => ?_⟩
    rw [h.isPolled]
    constructor
    · rintro ⟨other, hother, href, rfl⟩
      rw [List.inj_on_of_nodup_map h.distinct hother hlaunch href]
    · rintro rfl
      exact ⟨launch, hlaunch, rfl, rfl⟩
  · rw [hpollers, List.length_map, h.size_eq (hlaunches ▸ nodup_filterMap_startable?)]

end Launched

theorem length_of_openListeners {disk' : Disk}
    (h : app.openListeners configs disk = (.ok states, disk')) :
    states.length = configs.length := by
  induction configs generalizing disk states with
  | nil =>
    cases h
    rfl
  | cons config configs ih =>
    obtain ⟨_, _, _, rest, -, -, hrest, rfl⟩ := openListeners_cons_eq_ok h
    rw [List.length_cons, List.length_cons, ih hrest]

/-- Whether a harvester is restored can be told without the settings of the others, and from the
files alone. -/
theorem IsRestored.contains_iff {first : ListenerId} {restored : World}
    (h : IsRestored settings disk state first app restored) {id : String} {settings' : Settings}
    {disk' : Disk} (state' : Connection)
    (hsettings : HarvesterConfig.SameButOthers id settings settings')
    (hroot : disk'.root = disk.root) (hdir : disk'.workingDir = disk.workingDir) :
    restored.registry.harvesters.contains id = true ↔
      ∃ config, HarvesterConfig.ofSettings settings' id = .ok config ∧
        config.StartsOn disk' state' := by
  rw [h.isRegistered, HarvesterConfig.ofSettings_of_sameButOthers hsettings]
  constructor
  · rintro ⟨-, config, hconfig, hstarts⟩
    obtain ⟨-, hvalid, -⟩ := HarvesterConfig.ofSettings_eq_ok hconfig
    exact ⟨config, hconfig, (HarvesterConfig.startsOn_congr hvalid hroot hdir).mpr hstarts⟩
  · rintro ⟨config, hconfig, hstarts⟩
    obtain ⟨-, hvalid, hkey⟩ := HarvesterConfig.ofSettings_eq_ok hconfig
    exact ⟨hkey, config, hconfig, (HarvesterConfig.startsOn_congr hvalid hroot hdir).mp hstarts⟩

/-- Restoring an application whose catalogs and stores can be opened succeeds, whatever the settings
are. All listeners that are described come up, in the order of their keys, and then all harvesters
that are described and can be started, no matter what the settings of others say. -/
theorem restoration_is_entrywise (hfresh : app.IsFresh world)
    (hsettings : world.bench.disk.settings app.settings = .ok settings)
    (hopens : app.Opens settings world.bench.disk states state disk) :
    ∃ listened app' restored,
      app.restoreListeners world = (.ok (configuredListeners settings).length, listened) ∧
      app.restoreHarvesters listened = ((.ok restored.registry.harvesters.size, app'), restored) ∧
      states.length = (configuredListeners settings).length ∧
      restored.listeners =
        world.listeners ++ List.zipWith app.listenerOf (configuredListeners settings) states ∧
      Describes settings (configuredListeners settings) ∧
      IsRestored settings disk state world.listeners.length app' restored ∧
      ∀ id settings' disk' state', HarvesterConfig.SameButOthers id settings settings' →
        disk'.root = disk.root → disk'.workingDir = disk.workingDir →
        (restored.registry.harvesters.contains id = true ↔ ∃ config,
          HarvesterConfig.ofSettings settings' id = .ok config ∧ config.StartsOn disk' state') := by
  obtain ⟨between, hlisteners, hstate⟩ := openPlaces_eq_ok hopens.places
  have hlaunches := launches_nil hfresh (configuredListeners settings) states disk
  obtain ⟨launches, restored, hrun, hconfigs, hlaunched⟩ :=
    hlaunches.restore (settings.nodup_idsBetween "harvester." ".root") (by simp) state app
      (hopens.settings_eq hsettings)
  have hrestored : IsRestored settings disk state world.listeners.length
      { app with pollers := app.pollers ++ launches.map Launch.poller } restored :=
    isRestored_of_launches hlaunched hconfigs (by rw [hfresh.pollers]; rfl)
  refine ⟨_, _, restored, restoreListeners_eq hfresh hsettings hlisteners
    (hopens.not_isShutOut hstate), ?_,
    length_of_openListeners hlisteners, hlaunched.heard, describes_configuredListeners settings,
    hrestored, fun id settings' disk' state' hsame hroot hdir =>
      hrestored.contains_iff state' hsame hroot hdir⟩
  rw [restoreHarvesters_eq (hopens.settings_eq hsettings) hstate,
    hlaunched.size_eq (hconfigs ▸ nodup_filterMap_startable?)]
  exact hrun

end Restoring

section Garden

/-- A harvester whose root is missing, one with an interval that is no number, and one for a single
listener with two that watch it; a third listener watches nobody. -/
def gardenSettings : Settings where
  entries := [("harvester.bare.root", "/none"), ("harvester.herbs.poll_interval_secs", "soon"),
    ("harvester.herbs.root", "/t"), ("harvester.ivy.listener_policy", "single"),
    ("harvester.ivy.root", "/t"), ("listener.bee.watch", "ivy"), ("listener.fox.watch", "ivy"),
    ("listener.owl.watch", " ")]
  ascending := by
    unfold Ascending
    decide

def gardener : Application :=
  ⟨"/d", ⟨0, some [Bytes.ofText "d", Bytes.ofText "config.sqlite"], false⟩, []⟩

/-- A disk with a database in which these settings have been made. -/
def garden : Disk :=
  (Disk.changeSettings gardener.settings (fun _ => gardenSettings)
    (Disk.openSettings (Bytes.ofText "/d/config.sqlite") (Disk.start "/d" "/t")).2).2

def gardenState : Connection :=
  ⟨1, some [Bytes.ofText "d", Bytes.ofText "state.sqlite"], false⟩

def opened : Disk := (gardener.openPlaces gardenSettings garden).2

theorem configuredListeners_garden :
    configuredListeners gardenSettings = [⟨"bee", "ivy", none⟩, ⟨"fox", "ivy", none⟩] := by
  decide

theorem ofSettings_ivy : HarvesterConfig.ofSettings gardenSettings "ivy" =
    .ok ⟨"ivy", "/t", 5000, Table.empty, .single, true⟩ := by
  decide

theorem ofSettings_bare : HarvesterConfig.ofSettings gardenSettings "bare" =
    .ok ⟨"bare", "/none", 5000, Table.empty, .fanOut, true⟩ := by
  decide

theorem ofSettings_herbs : HarvesterConfig.ofSettings gardenSettings "herbs" =
    .error (.invalidValue "harvester.herbs.poll_interval_secs" "soon") := by
  decide

theorem garden_holds :
    garden.settings gardener.settings = .ok gardenSettings ∧
      (Disk.makeDirectory (Bytes.ofText "/d") garden).1 = .error .alreadyExists ∧
      garden.isDirectory (Bytes.ofText "/d") = true ∧
      garden.databaseNames? (Bytes.ofText "/d/config.sqlite") =
        some [Bytes.ofText "d", Bytes.ofText "config.sqlite"] ∧
      (garden.root.at? [Bytes.ofText "d", Bytes.ofText "config.sqlite"]).bind
        Node.databaseNumber? = some 0 ∧
      garden.openFault? [Bytes.ofText "d", Bytes.ofText "config.sqlite"] 0 = none ∧
      ((Disk.database 0).get garden).settings.isSome = true := by
  decide +kernel

theorem garden_opens :
    (gardener.openPlaces gardenSettings garden).1 =
        .ok ([gardenState, gardenState], gardenState) ∧
      (opened.settings gardener.settings).isOk = true ∧
      (DirectoryLister.checkRoot "/none" opened).1 =
        .error (.invalidRoot "/none" "does not exist") ∧
      (DirectoryLister.checkRoot "/t" opened).1 = .ok () := by
  decide +kernel

theorem openPlaces_garden : gardener.openPlaces gardenSettings garden =
    (.ok ([gardenState, gardenState], gardenState), opened) := by
  rw [← garden_opens.1, opened, Prod.eta]

theorem opens_garden :
    gardener.Opens gardenSettings garden [gardenState, gardenState] gardenState opened :=
  ⟨openPlaces_garden, garden_opens.2.1⟩

theorem openSettings_garden : Disk.openSettings (Bytes.ofText "/d/config.sqlite") garden =
    (.ok gardener.settings, garden) := by
  have haddress : DatabaseAddress.ofName? (Bytes.ofText "/d/config.sqlite") =
      some ⟨.file (Bytes.ofText "/d/config.sqlite"), true, true⟩ := by
    decide
  obtain ⟨-, -, -, hnames, hnumber, hfault, htable⟩ := garden_holds
  exact Disk.openSettings_of_holds haddress hnames ⟨by decide, hnumber⟩ hfault htable

theorem openAt_garden : openAt "/d" (World.start garden) = (.ok gardener, World.start garden) := by
  have hpath : Path.join "/d" configFile = "/d/config.sqlite" := by decide
  obtain ⟨-, hmade, hthere, -⟩ := garden_holds
  have hensured : onDisk (Disk.ensureDirectory (Bytes.ofText "/d")) (World.start garden) =
      (.ok (), World.start garden) := onDisk_eq _ (Disk.ensureDirectory_of_exists hmade hthere)
  have hopened : onDisk (Disk.openSettings (Bytes.ofText "/d/config.sqlite")) (World.start garden) =
      (.ok gardener.settings, World.start garden) := onDisk_eq _ openSettings_garden
  simp only [openAt, bind, StateT.bind, hpath, hensured, hopened]
  rfl

theorem not_startsOn_bare :
    ¬HarvesterConfig.StartsOn ⟨"bare", "/none", 5000, Table.empty, .fanOut, true⟩ opened
      gardenState := by
  rw [HarvesterConfig.startsOn_iff (by decide), garden_opens.2.2.1]
  simp

theorem ivy_startsOn :
    HarvesterConfig.StartsOn ⟨"ivy", "/t", 5000, Table.empty, .single, true⟩ opened
      gardenState := by
  rw [HarvesterConfig.startsOn_iff (by decide)]
  exact garden_opens.2.2.2

/-- Of three harvesters one is restored, and of two listeners that watch it the first one gets
through. -/
theorem ivy_is_restored_alone :
    ∃ listened app' restored,
      gardener.restoreListeners (World.start garden) = (.ok 2, listened) ∧
      gardener.restoreHarvesters listened =
        ((.ok restored.registry.harvesters.size, app'), restored) ∧
      (∀ id ∈ ["bare", "herbs"], restored.registry.harvesters.contains id = false) ∧
      ∃ ref ivy, restored.registry.harvesters.get? "ivy" = some ref ∧
        restored.harvester? ref = some ivy ∧ ivy.status = .polling ∧ ivy.members = [0] := by
  have hfresh : gardener.IsFresh (World.start garden) :=
    isFresh_openAt (fun task work hwork => by cases hwork) openAt_garden
  obtain ⟨listened, app', restored, hlisteners, hharvesters, -, -, -, hrestored, -⟩ :=
    restoration_is_entrywise hfresh garden_holds.1 opens_garden
  rw [configuredListeners_garden] at hlisteners
  have hcontains : restored.registry.harvesters.contains "ivy" = true :=
    (hrestored.isRegistered "ivy").mpr ⟨by decide, _, ofSettings_ivy, ivy_startsOn⟩
  obtain ⟨ref, href⟩ := Option.isSome_iff_exists.mp hcontains
  obtain ⟨config, ivy, hconfig, hh, -, -, hstatus, hholds⟩ := hrestored.attends "ivy" ref href
  obtain rfl := Except.ok.inj (ofSettings_ivy.symm.trans hconfig)
  refine ⟨listened, app', restored, hlisteners, hharvesters, ?_, ref, ivy, href, hh, hstatus, ?_⟩
  · intro id hid
    rw [← Bool.not_eq_true, hrestored.isRegistered]
    rintro ⟨-, config, hconfig, hstarts⟩
    rcases List.mem_pair.mp hid with rfl | rfl
    · obtain rfl := Except.ok.inj (ofSettings_bare.symm.trans hconfig)
      exact not_startsOn_bare hstarts
    · rw [ofSettings_herbs] at hconfig
      cases hconfig
  · rw [hholds.single rfl, configuredListeners_garden]
    rfl

end Garden

end CatalogSync.Application
