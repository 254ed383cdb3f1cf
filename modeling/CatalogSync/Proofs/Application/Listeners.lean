import CatalogSync.Application
import CatalogSync.Proofs.Config.Entries
import CatalogSync.Proofs.Disk.Exclusion
import CatalogSync.Proofs.Disk.Settings

namespace CatalogSync.Application

open Simulation

/-- The listeners with some names, but for those that the settings do not describe. -/
def configured (settings : Settings) (names : List String) : List ListenerConfig :=
  names.filterMap fun name => (ListenerConfig.ofSettings settings name).toOption

/-- The listeners that the settings describe, in the order of their keys. -/
def configuredListeners (settings : Settings) : List ListenerConfig :=
  configured settings settings.listenerNames

/-- Listeners that the settings describe, all of them, in the order of their keys. -/
structure Describes (settings : Settings) (configs : List ListenerConfig) : Prop where
  mem_iff : ∀ config, config ∈ configs ↔
    config.name ≠ "" ∧ ListenerConfig.ofSettings settings config.name = .ok config
  ordered : configs.Pairwise fun a b =>
    Text.before (ListenerConfig.key a.name "watch") (ListenerConfig.key b.name "watch") = true

theorem describes_configuredListeners (settings : Settings) :
    Describes settings (configuredListeners settings) := by
  constructor
  · intro config
    simp only [configuredListeners, configured, List.mem_filterMap, toOption_eq_some_iff,
      Settings.mem_listenerNames_iff]
    constructor
    · rintro ⟨name, ⟨hname, -⟩, hconfig⟩
      obtain ⟨rfl, -⟩ := ListenerConfig.ofSettings_eq_ok hconfig
      exact ⟨hname, hconfig⟩
    · rintro ⟨hname, hconfig⟩
      exact ⟨config.name, ⟨hname, (ListenerConfig.ofSettings_eq_ok hconfig).2⟩, hconfig⟩
  · have hkey : ∀ name, ListenerConfig.key name "watch" = "listener." ++ name ++ ".watch" := by
      intro name
      simp only [ListenerConfig.key, String.append_assoc]
      rfl
    rw [configuredListeners, configured, List.pairwise_filterMap]
    refine (settings.pairwise_idsBetween "listener." ".watch").imp ?_
    intro name name' hbefore config hconfig config' hconfig'
    obtain ⟨rfl, -⟩ := ListenerConfig.ofSettings_eq_ok (toOption_eq_some_iff.mp hconfig)
    obtain ⟨rfl, -⟩ := ListenerConfig.ofSettings_eq_ok (toOption_eq_some_iff.mp hconfig')
    rwa [hkey, hkey]

section Places

variable (app : Application)

/-- Opens what some listeners need, one after the other: the directory of the catalog, and the
database with the state. -/
def openListeners : List ListenerConfig → StateM Disk (Except ApplicationError (List Connection))
  | [] => pure (.ok [])
  | config :: rest => fun disk =>
    match DirectoryCatalog.openAt (app.catalogDir config) disk with
    | (.error e, disk) => (.error (.catalog e), disk)
    | (.ok _, disk) =>
      match Disk.openBlobs (Bytes.ofText (Path.join app.dataDir stateFile)) disk with
      | (.error e, disk) => (.error (.store e), disk)
      | (.ok state, disk) =>
        match openListeners rest disk with
        | (.error e, disk) => (.error e, disk)
        | (.ok states, disk) => (.ok (state :: states), disk)

/-- A listener with its catalog and its store. -/
def listenerOf (config : ListenerConfig) (state : Connection) : ListenerRef :=
  .persistent config.name (.directory ⟨app.catalogDir config⟩)
    (StoreRef.ofConnection state (Correlation.namespaceOf config.name))

end Places

/-- The watches of listeners that are numbered from some number on. -/
def watchesFrom (first : ListenerId) (configs : List ListenerConfig) : List Watch :=
  (configs.zipIdx first).map fun (config, listener) => ⟨config.watch, listener, config.name⟩

/-- The world once some listeners have been brought up, with nobody there yet whom they watch. -/
def listening (app : Application) (configs : List ListenerConfig) (states : List Connection)
    (disk : Disk) (world : World) : World :=
  { world with
    bench := { world.bench with disk := disk }
    listeners := world.listeners ++ List.zipWith app.listenerOf configs states
    registry := { world.registry with
      watches := world.registry.watches ++ watchesFrom world.listeners.length configs } }

section Restoring

variable {app : Application} {config : ListenerConfig} {configs : List ListenerConfig}
variable {state : Connection} {states : List Connection} {disk disk' : Disk} {world : World}

theorem snd_openAt (dir : String) (disk : Disk) :
    (DirectoryCatalog.openAt dir disk).2 = (Disk.ensureDirectory (Bytes.ofText dir) disk).2 := by
  simp only [DirectoryCatalog.openAt, bind, StateT.bind]
  split
  rename_i result made hresult
  rw [hresult]
  cases result <;> rfl

theorem databases_openAt (dir : String) (disk : Disk) :
    (DirectoryCatalog.openAt dir disk).2.databases = disk.databases := by
  rw [snd_openAt]
  exact Disk.databases_makeDirectories _ _ disk

theorem keepsContents_turn {dir : String} {name : Bytes} {made opened : Disk}
    {catalog : Except IngestError DirectoryCatalog} {result : Except StoreError Connection}
    (hcatalog : DirectoryCatalog.openAt dir disk = (catalog, made))
    (hstate : Disk.openBlobs name made = (result, opened)) : Disk.KeepsContents disk opened := by
  have hmade := databases_openAt dir disk
  have hopened := Disk.keepsContents_openBlobs name made
  rw [hcatalog] at hmade
  rw [hstate] at hopened
  exact (Disk.KeepsContents.of_databases_eq hmade).trans hopened

theorem dir_of_openAt {dir : String} {catalog : DirectoryCatalog}
    (h : DirectoryCatalog.openAt dir disk = (.ok catalog, disk')) : catalog = ⟨dir⟩ := by
  simp only [DirectoryCatalog.openAt, bind, StateT.bind] at h
  split at h
  rename_i result _ _
  cases result <;> cases h
  rfl

theorem openListeners_cons_eq_ok
    (h : app.openListeners (config :: configs) disk = (.ok states, disk')) :
    ∃ made state opened rest,
      DirectoryCatalog.openAt (app.catalogDir config) disk = (.ok ⟨app.catalogDir config⟩, made) ∧
      Disk.openBlobs (Bytes.ofText (Path.join app.dataDir stateFile)) made = (.ok state, opened) ∧
      app.openListeners configs opened = (.ok rest, disk') ∧ states = state :: rest := by
  simp only [openListeners] at h
  split at h
  · cases h
  · rename_i catalog made hcatalog
    obtain rfl := dir_of_openAt hcatalog
    split at h
    · cases h
    · rename_i state opened hstate
      split at h
      · cases h
      · rename_i rest last hrest
        cases h
        exact ⟨made, state, opened, rest, hcatalog, hstate, hrest, rfl⟩

theorem keepsContents_openListeners (h : app.openListeners configs disk = (.ok states, disk')) :
    Disk.KeepsContents disk disk' := by
  induction configs generalizing disk states with
  | nil =>
    cases h
    exact .refl _
  | cons config configs ih =>
    obtain ⟨made, state, opened, rest, hcatalog, hstate, hrest, rfl⟩ := openListeners_cons_eq_ok h
    exact (keepsContents_turn hcatalog hstate).trans (ih hrest)

/-- Whoever is shut out of the settings stays so while listeners get what they need. -/
theorem isShutOut_openListeners {connection : Connection}
    (hout : Disk.IsShutOut connection (Bytes.ofText (Path.join app.dataDir stateFile)) disk)
    (h : app.openListeners configs disk = (.ok states, disk')) :
    Disk.IsShutOut connection (Bytes.ofText (Path.join app.dataDir stateFile)) disk' := by
  induction configs generalizing disk states with
  | nil =>
    cases h
    exact hout
  | cons config configs ih =>
    obtain ⟨made, state, opened, rest, hcatalog, hstate, hrest, rfl⟩ := openListeners_cons_eq_ok h
    have hmade := hout.ensureDirectory (Bytes.ofText (app.catalogDir config))
    rw [← snd_openAt, hcatalog] at hmade
    exact ih (hmade.openBlobs hstate) hrest

theorem settings_of_turn {settings : Settings} {name : Bytes} {dir : String} {made opened : Disk}
    {catalog : Except IngestError DirectoryCatalog} {connection : Connection}
    (hsettings : disk.settings connection = .ok settings)
    (hcatalog : DirectoryCatalog.openAt dir disk = (catalog, made))
    (hstate : Disk.openBlobs name made = (.ok state, opened))
    (hout : ¬Disk.IsShutOut connection name opened) :
    opened.settings connection = .ok settings := by
  refine (keepsContents_turn hcatalog hstate).settings_of_not_kept hsettings ?_
  rw [← Bool.not_eq_true]
  intro hkept
  have hmade := databases_openAt dir disk
  rw [hcatalog] at hmade
  have hthere := Disk.lt_length_of_readable hsettings
  rw [← hmade] at hthere
  exact hout (Disk.isShutOut_of_openBlobs hthere hstate hkept)

theorem readSettings_eq (app : Application) (world : World) :
    app.readSettings world = (world.bench.disk.settings app.settings, world) := rfl

theorem readEntry_eq {α : Type} (app : Application) (entry : Settings → Except ConfigError α)
    (world : World) :
    app.readEntry entry world = ((world.bench.disk.settings app.settings).bind entry, world) := rfl

theorem onDisk_eq (world : World) {α : Type} {action : StateM Disk α} {answer : α}
    (h : action world.bench.disk = (answer, disk)) :
    onDisk action world = (answer, { world with bench := { world.bench with disk := disk } }) := by
  simp only [onDisk, World.onBench, Part.lift, Bench.diskPart, h]

theorem watch_of_empty (world : World) (hempty : world.registry.harvesters = Table.empty)
    (id : String) (listener : ListenerId) : World.watch id listener world =
      (false, { world with
        registry := world.registry.addWatch ⟨id, listener, world.listenerName listener⟩ }) := by
  rw [World.watch, hempty]
  rfl

theorem listenerName_last (bench : Bench) (ref : ListenerRef) :
    World.listenerName { world with bench := bench, listeners := world.listeners ++ [ref] }
      world.listeners.length = ref.listener.name := by
  simp [World.listenerName, World.listener]

theorem restoreListener_eq {made opened : Disk}
    (hcatalog : DirectoryCatalog.openAt (app.catalogDir config) world.bench.disk =
      (.ok ⟨app.catalogDir config⟩, made))
    (hstate : Disk.openBlobs (Bytes.ofText (Path.join app.dataDir stateFile)) made =
      (.ok state, opened))
    (hempty : world.registry.harvesters = Table.empty) :
    app.restoreListener config world = (.ok (), app.listening [config] [state] opened world) := by
  have hopened := onDisk_eq { world with bench := { world.bench with disk := made } } hstate
  simp only [restoreListener, openState, bind, StateT.bind, onDisk_eq world hcatalog, hopened]
  let added : World := { world with
    bench := { world.bench with disk := opened }
    listeners := world.listeners ++ [app.listenerOf config state] }
  have hwatch := watch_of_empty added hempty config.watch world.listeners.length
  rw [listenerName_last] at hwatch
  exact congrArg (fun watched : Bool × World => (Except.ok (), watched.2)) hwatch

theorem listening_cons (opened : Disk) :
    app.listening configs states disk (app.listening [config] [state] opened world) =
      app.listening (config :: configs) (state :: states) disk world := by
  simp only [listening, watchesFrom, List.zipWith_cons_cons, List.zipWith_nil_left,
    List.zipIdx_cons, List.zipIdx_nil, List.map_cons, List.map_nil, List.append_assoc,
    List.singleton_append, List.length_append, List.length_singleton]

/-- Listeners are brought up in the order of their names; those that are misconfigured are left
out. -/
theorem restoreListenersNamed_eq {settings : Settings} {names : List String}
    (hsettings : world.bench.disk.settings app.settings = .ok settings)
    (hopens : app.openListeners (configured settings names) world.bench.disk = (.ok states, disk))
    (hreadable : ¬Disk.IsShutOut app.settings (Bytes.ofText (Path.join app.dataDir stateFile)) disk)
    (hempty : world.registry.harvesters = Table.empty) :
    app.restoreListenersNamed names world = (.ok (configured settings names).length,
      app.listening (configured settings names) states disk world) := by
  induction names generalizing world states with
  | nil =>
    cases hopens
    simp only [configured, listening, watchesFrom, List.filterMap_nil, List.zipWith_nil_left,
      List.zipIdx_nil, List.map_nil, List.append_nil]
    rfl
  | cons name names ih =>
    have hread := readEntry_eq app (fun settings => ListenerConfig.ofSettings settings name) world
    rw [hsettings] at hread
    cases hconfig : ListenerConfig.ofSettings settings name with
    | error e =>
      have hskip : configured settings (name :: names) = configured settings names :=
        List.filterMap_cons_none (by rw [hconfig]; rfl)
      rw [hskip] at hopens ⊢
      simp only [restoreListenersNamed, bind, StateT.bind, hread, Except.bind, hconfig]
      exact ih hsettings hopens hempty
    | ok config =>
      have hkeep : configured settings (name :: names) = config :: configured settings names :=
        List.filterMap_cons_some (by rw [hconfig]; rfl)
      rw [hkeep] at hopens ⊢
      obtain ⟨made, state, opened, rest, hcatalog, hstate, hrest, rfl⟩ :=
        openListeners_cons_eq_ok hopens
      have hfirst := restoreListener_eq hcatalog hstate hempty
      have hsettings' : opened.settings app.settings = .ok settings :=
        settings_of_turn hsettings hcatalog hstate fun hout =>
          hreadable (isShutOut_openListeners hout hrest)
      have hlater : app.restoreListenersNamed names (app.listening [config] [state] opened world) =
          (.ok (configured settings names).length, _) := ih hsettings' hrest hempty
      simp only [restoreListenersNamed, bind, StateT.bind, hread, Except.bind, hconfig, hfirst,
        hlater]
      rw [listening_cons]
      rfl

end Restoring

end CatalogSync.Application
