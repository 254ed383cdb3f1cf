import CatalogSync.Proofs.Application.Listeners

namespace CatalogSync.Application

open Simulation

/-- The turn of a listener: whether the settings can be read then, and what is opened for it once
its catalog is there, or why its catalog is not. -/
structure Turn where
  config : ListenerConfig
  isLegible : Bool
  opened : Except IngestError Connection

/-- Whether the catalog of a listener can be opened. -/
def Turn.isReady (turn : Turn) : Bool :=
  turn.opened.isOk

/-- The turn of a listener that gets what it needs. -/
def Turn.served (listener : ListenerConfig × Connection) : Turn :=
  ⟨listener.1, true, .ok listener.2⟩

/-- Each listener has its turn, whatever happens to the others. The database with the state can be
opened every time. -/
inductive Turns (app : Application) : Disk → List Turn → Prop where
  | done {disk : Disk} : Turns app disk []
  | ready {disk made opened : Disk} {config : ListenerConfig} {state : Connection}
      {later : List Turn}
      (hcatalog : DirectoryCatalog.openAt (app.catalogDir config) disk =
        (.ok ⟨app.catalogDir config⟩, made))
      (hstate : Disk.openBlobs (Bytes.ofText (Path.join app.dataDir stateFile)) made =
        (.ok state, opened))
      (hlater : Turns app opened later) :
      Turns app disk (⟨config, (disk.settings app.settings).isOk, .ok state⟩ :: later)
  | shut {disk made : Disk} {config : ListenerConfig} {later : List Turn} {e : IngestError}
      (hcatalog : DirectoryCatalog.openAt (app.catalogDir config) disk = (.error e, made))
      (hlater : Turns app made later) :
      Turns app disk (⟨config, (disk.settings app.settings).isOk, .error e⟩ :: later)

/-- The listeners and the watches that a world has gained: those of some listeners, in their
order. -/
structure Gains (app : Application) (world : World) (gained : List (ListenerConfig × Connection))
    (after : World) : Prop where
  listeners : after.listeners =
    world.listeners ++ gained.map fun (config, state) => app.listenerOf config state
  watches : after.registry.watches =
    world.registry.watches ++ watchesFrom world.listeners.length (gained.map Prod.fst)

/-- How the turns end: when all listeners have been served, with the first one whose catalog is
shut, or when the settings can no longer be read, which hides all listeners that are left. -/
inductive Ends : List Turn → List (ListenerConfig × Connection) → Except ApplicationError Nat →
    Prop where
  | complete {gained : List (ListenerConfig × Connection)} :
      Ends (gained.map Turn.served) gained (.ok gained.length)
  | blocked {gained : List (ListenerConfig × Connection)} {config : ListenerConfig}
      {e : IngestError} {rest : List Turn} :
      Ends (gained.map Turn.served ++ ⟨config, true, .error e⟩ :: rest) gained (.error (.catalog e))
  | unread {gained : List (ListenerConfig × Connection)} {turn : Turn} {rest : List Turn}
      (hunread : turn.isLegible = false) :
      Ends (gained.map Turn.served ++ turn :: rest) gained (.ok gained.length)

section Turning

variable {app : Application} {world after last : World} {turn : Turn} {turns rest : List Turn}
  {gained more : List (ListenerConfig × Connection)} {answer : Except ApplicationError Nat}

theorem watchesFrom_append (first : ListenerId) (configs more : List ListenerConfig) :
    watchesFrom first (configs ++ more) =
      watchesFrom first configs ++ watchesFrom (first + configs.length) more := by
  rw [watchesFrom, List.zipIdx_append, List.map_append]
  rfl

theorem Gains.refl (app : Application) (world : World) : Gains app world [] world :=
  ⟨(List.append_nil _).symm, (List.append_nil _).symm⟩

theorem Gains.trans (h : Gains app world gained after) (h' : Gains app after more last) :
    Gains app world (gained ++ more) last := by
  have hlength : after.listeners.length =
    world.listeners.length + (gained.map Prod.fst).length := by
    rw [h.listeners, List.length_append, List.length_map, List.length_map]
  constructor
  · rw [h'.listeners, h.listeners, List.map_append, List.append_assoc]
  · rw [h'.watches, h.watches, hlength, List.map_append, watchesFrom_append, List.append_assoc]

theorem Ends.cons (h : Ends turns gained answer) (listener : ListenerConfig × Connection) :
    Ends (Turn.served listener :: turns) (listener :: gained) (answer.map (· + 1)) := by
  cases h with
  | complete => exact @Ends.complete (listener :: gained)
  | blocked => exact @Ends.blocked (listener :: gained) _ _ _
  | unread hunread => exact @Ends.unread (listener :: gained) _ _ hunread

theorem filter_isReady_served (gained : List (ListenerConfig × Connection)) :
    (gained.map Turn.served).filter Turn.isReady = gained.map Turn.served := by
  rw [List.filter_eq_self]
  intro turn hturn
  obtain ⟨listener, -, rfl⟩ := List.mem_map.mp hturn
  rfl

theorem isLegible_of_served (hturn : turn ∈ gained.map Turn.served) : turn.isLegible = true := by
  obtain ⟨listener, -, rfl⟩ := List.mem_map.mp hturn
  rfl

theorem filter_subset_iff (hnodup : (gained.map Turn.served ++ turn :: rest).Nodup)
    (hnot : turn.isReady = false ∨ turn.isLegible = false) :
    (gained.map Turn.served ++ turn :: rest).filter Turn.isReady ⊆ gained.map Turn.served ↔
      (gained.map Turn.served ++ turn :: rest).filter Turn.isReady <+:
          gained.map Turn.served ++ turn :: rest ∧
        ∀ other ∈ gained.map Turn.served ++ turn :: rest, other.isReady = true →
          other.isLegible = true := by
  obtain ⟨-, -, hdisjoint⟩ := List.nodup_append.mp hnodup
  rw [List.filter_append, filter_isReady_served, List.prefix_append_right_inj]
  constructor
  · intro hall
    have hnobody : (turn :: rest).filter Turn.isReady = [] := by
      rw [List.eq_nil_iff_forall_not_mem]
      intro other hother
      exact hdisjoint _ (hall (List.mem_append_right _ hother)) _ (List.mem_of_mem_filter hother)
        rfl
    refine ⟨hnobody ▸ List.nil_prefix, fun other hother hready => ?_⟩
    rcases List.mem_append.mp hother with hserved | hleft
    · exact isLegible_of_served hserved
    · exact absurd (hnobody ▸ List.mem_filter.mpr ⟨hleft, hready⟩) List.not_mem_nil
  · rintro ⟨hfront, hlegible⟩
    have hturn : ¬turn.isReady = true := by
      intro hready
      rcases hnot with hshut | hhidden
      · rw [hshut] at hready
        cases hready
      · rw [hlegible turn (by simp) hready] at hhidden
        cases hhidden
    cases hleft : (turn :: rest).filter Turn.isReady with
    | nil => rw [List.append_nil]; exact List.Subset.refl _
    | cons first others =>
      rw [hleft] at hfront
      obtain ⟨rfl, -⟩ := List.cons_prefix_cons.mp hfront
      exact absurd (List.of_mem_filter (hleft ▸ List.mem_cons_self)) hturn

/-- All who are ready have been served exactly if nobody who is ready comes behind one who is not,
and if the settings could be read at all of their turns. -/
theorem Ends.subset_iff (h : Ends turns gained answer) (hnodup : turns.Nodup) :
    turns.filter Turn.isReady ⊆ gained.map Turn.served ↔
      turns.filter Turn.isReady <+: turns ∧
        ∀ turn ∈ turns, turn.isReady = true → turn.isLegible = true := by
  cases h with
  | complete =>
    rw [filter_isReady_served]
    exact iff_of_true (List.Subset.refl _) ⟨List.prefix_refl _, fun _ hturn _ =>
      isLegible_of_served hturn⟩
  | blocked => exact filter_subset_iff hnodup (.inl rfl)
  | unread hunread => exact filter_subset_iff hnodup (.inr hunread)

end Turning

section Restoring

variable {app : Application} {settings : Settings} {disk made opened : Disk} {world : World}
  {config : ListenerConfig} {state : Connection} {turns : List Turn} {names : List String}

theorem watch_eq (world : World) (id : String) (listener : ListenerId) :
    (World.watch id listener world).2.listeners = world.listeners ∧
      (World.watch id listener world).2.bench = world.bench ∧
      (World.watch id listener world).2.registry.watches =
        world.registry.watches ++ [⟨id, listener, world.listenerName listener⟩] := by
  rw [World.watch]
  split
  · exact ⟨rfl, rfl, rfl⟩
  · split <;> exact ⟨rfl, rfl, rfl⟩

theorem restoreListener_of_opened
    (hcatalog : DirectoryCatalog.openAt (app.catalogDir config) world.bench.disk =
      (.ok ⟨app.catalogDir config⟩, made))
    (hstate : Disk.openBlobs (Bytes.ofText (Path.join app.dataDir stateFile)) made =
      (.ok state, opened)) :
    ∃ after, app.restoreListener config world = (.ok (), after) ∧
      Gains app world [(config, state)] after ∧ after.bench.disk = opened := by
  have hopened := onDisk_eq { world with bench := { world.bench with disk := made } } hstate
  let added : World := { world with
    bench := { world.bench with disk := opened }
    listeners := world.listeners ++ [app.listenerOf config state] }
  obtain ⟨hlisteners, hbench, hwatches⟩ := watch_eq added config.watch world.listeners.length
  refine ⟨(World.watch config.watch world.listeners.length added).2, ?_, ⟨hlisteners, ?_⟩, ?_⟩
  · simp only [restoreListener, openState, bind, StateT.bind, onDisk_eq world hcatalog, hopened]
    rfl
  · rw [hwatches, listenerName_last]
    rfl
  · rw [hbench]

theorem restoreListener_of_shut {e : IngestError}
    (hcatalog : DirectoryCatalog.openAt (app.catalogDir config) world.bench.disk =
      (.error e, made)) :
    ∃ after, app.restoreListener config world = (.error (.catalog e), after) ∧
      Gains app world [] after := by
  refine ⟨{ world with bench := { world.bench with disk := made } }, ?_,
    ⟨(Gains.refl app world).listeners, (Gains.refl app world).watches⟩⟩
  simp only [restoreListener, bind, StateT.bind, onDisk_eq world hcatalog]
  rfl

theorem restoreListenersNamed_of_unread {e : ConfigError}
    (hunread : world.bench.disk.settings app.settings = .error e) (names : List String) :
    app.restoreListenersNamed names world = (.ok 0, world) := by
  induction names with
  | nil => rfl
  | cons name names ih =>
    have hread := readEntry_eq app (fun settings => ListenerConfig.ofSettings settings name) world
    rw [hunread] at hread
    simp only [restoreListenersNamed, bind, StateT.bind, hread, Except.bind]
    exact ih

theorem isLegible_of_turns (h : Turns app disk turns) :
    ∀ turn ∈ turns.head?, turn.isLegible = (disk.settings app.settings).isOk := by
  cases h <;> simp

/-- The listeners have their turns in the order of their names, up to the first one whose catalog is
shut or at whose turn the settings cannot be read. -/
theorem restoreListenersNamed_ends (hsettings : disk.settings app.settings = .ok settings)
    (hkeeps : Disk.KeepsContents disk world.bench.disk) (hturns : Turns app world.bench.disk turns)
    (hconfigs : turns.map Turn.config = configured settings names) :
    ∃ answer after gained, app.restoreListenersNamed names world = (answer, after) ∧
      Gains app world gained after ∧ Ends turns gained answer := by
  induction names generalizing world turns with
  | nil =>
    obtain rfl := List.map_eq_nil_iff.mp hconfigs
    exact ⟨_, world, [], rfl, .refl app world, @Ends.complete []⟩
  | cons name names ih =>
    cases hread : world.bench.disk.settings app.settings with
    | error e =>
      refine ⟨_, world, [], restoreListenersNamed_of_unread hread _, .refl app world, ?_⟩
      have hlegible := isLegible_of_turns hturns
      cases turns with
      | nil => exact @Ends.complete []
      | cons turn rest =>
        refine @Ends.unread [] turn rest ?_
        rw [hlegible turn rfl, hread]
        rfl
    | ok found =>
      obtain rfl : found = settings := by
        have hsame := hkeeps.settings_eq hsettings (by rw [hread]; rfl)
        exact Except.ok.inj (hread.symm.trans hsame)
      have hentry := readEntry_eq app (fun settings => ListenerConfig.ofSettings settings name)
        world
      rw [hread] at hentry
      cases hconfig : ListenerConfig.ofSettings found name with
      | error e =>
        rw [configured, List.filterMap_cons_none (by rw [hconfig]; rfl)] at hconfigs
        simp only [restoreListenersNamed, bind, StateT.bind, hentry, Except.bind, hconfig]
        exact ih hkeeps hturns hconfigs
      | ok config =>
        rw [configured, List.filterMap_cons_some (by rw [hconfig]; rfl)] at hconfigs
        cases hturns with
        | done => cases hconfigs
        | ready hcatalog hstate hlater =>
          obtain ⟨rfl, hrest⟩ := List.cons.inj hconfigs
          obtain ⟨middle, hfirst, hgained, rfl⟩ := restoreListener_of_opened hcatalog hstate
          obtain ⟨answer, after, gained, hrun, hmore, hends⟩ :=
            ih (hkeeps.trans (keepsContents_turn hcatalog hstate)) hlater hrest
          rw [hread]
          refine ⟨answer.map (· + 1), after, _, ?_, hgained.trans hmore, hends.cons (_, _)⟩
          simp only [restoreListenersNamed, bind, StateT.bind, hentry, Except.bind, hconfig, hfirst,
            hrun]
          cases answer <;> rfl
        | @shut _ made _ _ e hcatalog hlater =>
          obtain ⟨rfl, -⟩ := List.cons.inj hconfigs
          obtain ⟨after, hfirst, hgained⟩ := restoreListener_of_shut hcatalog
          rw [hread]
          refine ⟨.error (.catalog e), after, [], ?_, hgained, @Ends.blocked [] _ _ _⟩
          simp only [restoreListenersNamed, bind, StateT.bind, hentry, Except.bind, hconfig, hfirst]
          rfl

theorem nodup_configuredListeners (settings : Settings) : (configuredListeners settings).Nodup := by
  refine (describes_configuredListeners settings).ordered.imp ?_
  rintro config _ hbefore rfl
  rw [Text.before_irrefl] at hbefore
  cases hbefore

theorem restoreListeners_ends (hsettings : world.bench.disk.settings app.settings = .ok settings)
    (hturns : Turns app world.bench.disk turns)
    (hconfigs : turns.map Turn.config = configuredListeners settings) :
    ∃ answer after gained, app.restoreListeners world = (answer, after) ∧
      Gains app world gained after ∧ Ends turns gained answer := by
  obtain ⟨answer, after, gained, hrestore, hends⟩ :=
    restoreListenersNamed_ends hsettings (.refl _) hturns hconfigs
  have hread := readSettings_eq app world
  rw [hsettings] at hread
  refine ⟨answer, after, gained, ?_, hends⟩
  simp only [restoreListeners, bind, StateT.bind, hread]
  exact hrestore

/-- All listeners that are described have their turns, in the order of their keys. Those whose
catalogs can be opened are brought up and registered, up to the first one whose catalog cannot,
which ends the restoration with an error, or at whose turn the settings cannot be read, which leaves
out all that come then. So everyone whose catalog can be opened is brought up exactly if nobody of
them comes behind one whose catalog cannot, and the settings can be read at all their turns. -/
theorem listeners_restored_iff_unobstructed (app : Application) (world : World)
    (settings : Settings) (turns : List Turn)
    (hsettings : world.bench.disk.settings app.settings = .ok settings)
    (hturns : Turns app world.bench.disk turns)
    (hconfigs : turns.map Turn.config = configuredListeners settings) :
    Describes settings (configuredListeners settings) ∧
      ∃ answer after gained, app.restoreListeners world = (answer, after) ∧
        Gains app world gained after ∧ Ends turns gained answer ∧
        (turns.filter Turn.isReady ⊆ gained.map Turn.served ↔
          turns.filter Turn.isReady <+: turns ∧
            ∀ turn ∈ turns, turn.isReady = true → turn.isLegible = true) := by
  obtain ⟨answer, after, gained, hrestore, hgains, hends⟩ :=
    restoreListeners_ends hsettings hturns hconfigs
  have hnodup : turns.Nodup := .of_map _ (hconfigs ▸ nodup_configuredListeners settings)
  exact ⟨describes_configuredListeners settings, answer, after, gained, hrestore, hgains, hends,
    hends.subset_iff hnodup⟩

end Restoring

section Hedge

/-- The catalog of one listener cannot be opened, for a file is in its place; the other one is
fine. -/
def hedgeSettings : Settings where
  entries := [("listener.bee.catalog_dir", "/t/block"), ("listener.bee.watch", "ivy"),
    ("listener.fox.watch", "ivy")]
  ascending := by
    unfold Ascending
    decide

def hedger : Application :=
  ⟨"/d", ⟨0, some [Bytes.ofText "d", Bytes.ofText "config.sqlite"], false⟩, []⟩

/-- A disk with the file, and with a database in which these settings have been made. -/
def hedge : Disk :=
  (Disk.writeFile (Bytes.ofText "/t/block") [] none
    (Disk.changeSettings hedger.settings (fun _ => hedgeSettings)
      (Disk.openSettings (Bytes.ofText "/d/config.sqlite") (Disk.start "/d" "/t")).2).2).2

def bee : ListenerConfig := ⟨"bee", "ivy", some "/t/block"⟩

def fox : ListenerConfig := ⟨"fox", "ivy", none⟩

theorem configuredListeners_hedge : configuredListeners hedgeSettings = [bee, fox] := by
  decide

theorem catalogDir_of_fox : hedger.catalogDir fox = "/d/catalog/fox" := by
  decide

theorem statePath_hedger : Path.join hedger.dataDir stateFile = "/d/state.sqlite" := by
  decide

/-- The disk once the turn of the first listener is over. -/
def hedgeTried : Disk := (DirectoryCatalog.openAt "/t/block" hedge).2

def hedgeMade : Disk := (DirectoryCatalog.openAt "/d/catalog/fox" hedgeTried).2

def hedgeState : Connection :=
  ⟨1, some [Bytes.ofText "d", Bytes.ofText "state.sqlite"], false⟩

theorem hedge_holds :
    hedge.settings hedger.settings = .ok hedgeSettings ∧
      (DirectoryCatalog.openAt "/d/catalog/fox" hedge).1 = .ok ⟨"/d/catalog/fox"⟩ ∧
      (DirectoryCatalog.openAt "/t/block" hedge).1 =
        .error (.storage "File exists (os error 17)") := by
  decide +kernel

theorem hedgeTried_holds :
    (hedgeTried.settings hedger.settings).isOk = true ∧
      (DirectoryCatalog.openAt "/d/catalog/fox" hedgeTried).1 = .ok ⟨"/d/catalog/fox"⟩ ∧
      (Disk.openBlobs (Bytes.ofText "/d/state.sqlite") hedgeMade).1 = .ok hedgeState := by
  decide +kernel

theorem openAt_bee : DirectoryCatalog.openAt (hedger.catalogDir bee) hedge =
    (.error (.storage "File exists (os error 17)"), hedgeTried) :=
  Prod.ext hedge_holds.2.2 rfl

theorem openAt_fox : DirectoryCatalog.openAt (hedger.catalogDir fox) hedgeTried =
    (.ok ⟨hedger.catalogDir fox⟩, hedgeMade) := by
  rw [catalogDir_of_fox]
  exact Prod.ext hedgeTried_holds.2.1 rfl

def hedgeTurns : List Turn :=
  [⟨bee, true, .error (.storage "File exists (os error 17)")⟩, ⟨fox, true, .ok hedgeState⟩]

theorem turns_hedge : Turns hedger hedge hedgeTurns := by
  obtain ⟨hlegible', -, hstate⟩ := hedgeTried_holds
  have hlegible : (hedge.settings hedger.settings).isOk = true := by
    rw [hedge_holds.1]
    rfl
  have hopened : Disk.openBlobs (Bytes.ofText (Path.join hedger.dataDir stateFile)) hedgeMade =
      (.ok hedgeState, (Disk.openBlobs (Bytes.ofText "/d/state.sqlite") hedgeMade).2) := by
    rw [statePath_hedger]
    exact Prod.ext hstate rfl
  have hfox := Turns.ready openAt_fox hopened .done
  have hbee := Turns.shut openAt_bee hfox
  rwa [hlegible, hlegible'] at hbee

theorem configs_hedgeTurns : hedgeTurns.map Turn.config = configuredListeners hedgeSettings := by
  rw [configuredListeners_hedge]
  rfl

theorem hedge_is_obstructed :
    Turns hedger (World.start hedge).bench.disk hedgeTurns ∧
      hedgeTurns.map Turn.config = configuredListeners hedgeSettings ∧
      ∃ answer after gained, hedger.restoreListeners (World.start hedge) = (answer, after) ∧
        Gains hedger (World.start hedge) gained after ∧
        ¬hedgeTurns.filter Turn.isReady ⊆ gained.map Turn.served := by
  obtain ⟨-, answer, after, gained, hrestore, hgains, -, hlaw⟩ :=
    listeners_restored_iff_unobstructed hedger (World.start hedge) hedgeSettings _ hedge_holds.1
      turns_hedge configs_hedgeTurns
  refine ⟨turns_hedge, configs_hedgeTurns, answer, after, gained, hrestore, hgains, fun hall => ?_⟩
  have hfront : [Turn.served (fox, hedgeState)] <+: hedgeTurns := (hlaw.mp hall).1
  exact absurd (congrArg Turn.isReady (List.cons_prefix_cons.mp hfront).1) (by decide)

theorem fox_is_left_out :
    hedge.settings hedger.settings = .ok hedgeSettings ∧
      ListenerConfig.ofSettings hedgeSettings "fox" = .ok fox ∧
      (DirectoryCatalog.openAt (hedger.catalogDir fox) hedge).1 = .ok ⟨hedger.catalogDir fox⟩ ∧
      Turns hedger hedge hedgeTurns ∧ Turn.served (fox, hedgeState) ∈ hedgeTurns ∧
      ∃ e after, hedger.restoreListeners (World.start hedge) = (.error e, after) ∧
        after.listeners = [] ∧ after.registry.watches = [] := by
  obtain ⟨hsettings, hopens, -⟩ := hedge_holds
  rw [← catalogDir_of_fox] at hopens
  obtain ⟨answer, after, gained, hrestore, hgains, hends⟩ :=
    @restoreListeners_ends hedger hedgeSettings (World.start hedge) _ hsettings turns_hedge
      configs_hedgeTurns
  have hfirst : gained = [] ∧ ∃ e, answer = .error e := by
    generalize hturns : hedgeTurns = turns at hends
    cases gained with
    | nil =>
      refine ⟨rfl, ?_⟩
      cases hends with
      | complete => cases hturns
      | blocked => exact ⟨_, rfl⟩
      | unread hunread =>
        cases hturns
        cases hunread
    | cons first gained =>
      have hready : hedgeTurns.head?.map Turn.isReady = some true := by
        rw [hturns]
        cases hends <;> rfl
      exact absurd hready (by decide)
  obtain ⟨rfl, e, rfl⟩ := hfirst
  exact ⟨hsettings, by decide, hopens, turns_hedge,
    by simp [hedgeTurns, Turn.served], e, after, hrestore, hgains.listeners, hgains.watches⟩

end Hedge

end CatalogSync.Application
