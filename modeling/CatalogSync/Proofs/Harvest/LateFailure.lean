import CatalogSync.Proofs.Harvest.Detour
import CatalogSync.Proofs.Harvest.Settings

namespace CatalogSync.Surroundings

open Harvester

/-- What a harvester was told, how things were at that moment, and what came of it. -/
structure Episode where
  stage : Stage
  command : Command
  answer : Reply × Stage

/-- What comes of commands. Each finds the world as others have left it. -/
def episodes (answers : Answers) : Harvester → List (World × Command) → List Episode
  | _, [] => []
  | h, (world, command) :: turns =>
    let answer := obey answers ⟨h, world⟩ command
    ⟨⟨h, world⟩, command, answer⟩ :: episodes answers answer.2.harvester turns

def afterwards (answers : Answers) (h : Harvester) (turns : List (World × Command)) : Harvester :=
  turns.foldl (fun h turn => (obey answers ⟨h, turn.1⟩ turn.2).2.harvester) h

namespace Episode

def BringsUp (episode : Episode) : Prop :=
  (episode.command = .start ∨ ∃ config, episode.command = .reconfigure config) ∧
    episode.answer.1 = .done (.ok ())

/-- A configuration is taken over, whether the harvester can be brought up with it or not. -/
def Adopts (episode : Episode) : Prop :=
  ∃ config, episode.command = .reconfigure config ∧
    episode.stage.harvester.checkConfig config = .ok () ∧
    episode.stage.harvester.admitsPolicy config.policy = true

end Episode

/-- A poll comes to its end before anybody is asked anything. -/
def RefusesPolls (h : Harvester) : Prop :=
  ∀ (σ : Type) (lister : Lister σ) (store : BlobStore σ) (listenerOf : ListenerId → Listener σ),
    h.poll lister store listenerOf = pure (.error (.notRunning h.id), h)

/-- A start does what it would do to reconfigure the harvester as it was before. -/
structure Completes (answers : Answers) (stage : Stage) (before : Harvester)
    (config : HarvesterConfig) : Prop where
  checks : before.checkConfig config = .ok () ∧ before.admitsPolicy config.policy = true
  reply : (obey answers stage .start).1 =
    (obey answers ⟨before, stage.world⟩ (.reconfigure config)).1
  world : (obey answers stage .start).2.world =
    (obey answers ⟨before, stage.world⟩ (.reconfigure config)).2.world
  harvester : (obey answers stage .start).1 = .done (.ok ()) →
    (obey answers stage .start).2.harvester =
      (obey answers ⟨before, stage.world⟩ (.reconfigure config)).2.harvester
  succeeds : answers.checkRoot stage.world.calls = .ok () →
    answers.loadError? (stage.world.note (.checkRoot config.root)).calls = none →
    (obey answers stage .start).1 = .done (.ok ())

/-- What a reconfiguration leaves to be done that has failed late. -/
structure LeftToStart (answers : Answers) (before : Harvester) (config : HarvesterConfig)
    (failed : Harvester) : Prop where
  stopped : failed.status = .stopped
  silent : ∀ turns, (∀ episode ∈ episodes answers failed turns, ¬ episode.BringsUp) →
    (afterwards answers failed turns).status = .stopped ∧
      ∀ episode ∈ episodes answers failed turns, episode.command = .poll →
        episode.answer = (.polled (.error (.notRunning before.id)), episode.stage) ∧
          RefusesPolls episode.stage.harvester
  /-- The listeners are those that are there when the start comes. -/
  completed : ∀ turns,
    (∀ episode ∈ episodes answers failed turns, ¬ episode.BringsUp ∧ ¬ episode.Adopts) →
    ∀ world, Completes answers ⟨afterwards answers failed turns, world⟩
      { before with members := (afterwards answers failed turns).members } config

variable {answers : Answers} {stage : Stage}

theorem forall_mem_episodes_cons {P : Episode → Prop} {h : Harvester} {turn : World × Command}
    {turns : List (World × Command)} :
    (∀ episode ∈ episodes answers h (turn :: turns), P episode) ↔
      P ⟨⟨h, turn.1⟩, turn.2, obey answers ⟨h, turn.1⟩ turn.2⟩ ∧
        ∀ episode ∈ episodes answers (obey answers ⟨h, turn.1⟩ turn.2).2.harvester turns,
          P episode :=
  List.forall_mem_cons

theorem admitsPolicy_iff {h : Harvester} {policy : ListenerPolicy} :
    h.admitsPolicy policy = true ↔ (policy = .single → h.members.length ≤ 1) := by
  simp [admitsPolicy, imp_iff_not_or]

section Bringing

theorem raised_of_sameSettings {h twin : Harvester} (hsame : SameSettings h twin)
    (blobs : Table Bytes) : raised twin blobs = raised h blobs := by
  obtain ⟨hid, hconfig, hpolicy, hmembers, hinterval⟩ := hsame
  simp only [raised, hid, hconfig, hpolicy, hmembers, hinterval]

/-- What is answered when a harvester is brought up, and what has been asked for it, is a matter of
its configuration alone. -/
theorem bringUp_of_sameConfig {h twin : Harvester} (hconfig : twin.config = h.config)
    (world : World) :
    (bringUp (lister answers) (store answers) twin world).1.1 =
        (bringUp (lister answers) (store answers) h world).1.1 ∧
      (bringUp (lister answers) (store answers) twin world).2 =
        (bringUp (lister answers) (store answers) h world).2 := by
  simp only [bringUp, loadState, hconfig]
  cases h.config.validate with
  | error e => exact ⟨rfl, rfl⟩
  | ok _ =>
    simp only [bind, StateT.bind, checkRoot_lister]
    cases answers.checkRoot world.calls with
    | error e => exact ⟨rfl, rfl⟩
    | ok _ =>
      simp only [StateT.bind, load_store]
      cases answers.loadError? (world.note (.checkRoot h.config.root)).calls with
      | some e => exact ⟨rfl, rfl⟩
      | none => exact ⟨rfl, rfl⟩

theorem bringUp_ok {h : Harvester} {world : World} (hvalid : h.config.validate = .ok ())
    (hroot : answers.checkRoot world.calls = .ok ())
    (hload : answers.loadError? (world.note (.checkRoot h.config.root)).calls = none) :
    (bringUp (lister answers) (store answers) h world).1.1 = .ok () := by
  simp only [bringUp, loadState, hvalid, bind, StateT.bind, checkRoot_lister, hroot, load_store,
    hload]
  rfl

theorem obey_start (hresting : stage.harvester.status ≠ .polling) : obey answers stage .start =
    (.done (bringUp (lister answers) (store answers) stage.harvester stage.world).1.1,
      (staged (bringUp (lister answers) (store answers) stage.harvester stage.world)).2) := by
  rw [obey, startOnce, Harvester.start, if_neg hresting]
  rfl

theorem obey_reconfigure {config : HarvesterConfig}
    (hcheck : stage.harvester.checkConfig config = .ok ())
    (hadmits : stage.harvester.admitsPolicy config.policy = true) :
    obey answers stage (.reconfigure config) =
      (.done (bringUp (lister answers) (store answers) (stage.harvester.adopt config)
        stage.world).1.1,
        (staged (bringUp (lister answers) (store answers) (stage.harvester.adopt config)
          stage.world)).2) := by
  rw [obey, reconfigureOnce, reconfigure, hcheck]
  simp only [applyConfig, hadmits, if_true]
  rfl

theorem obey_reconfigure_of_not_adopts {config : HarvesterConfig}
    (h : ¬ (stage.harvester.checkConfig config = .ok () ∧
      stage.harvester.admitsPolicy config.policy = true)) :
    (obey answers stage (.reconfigure config)).2 = stage := by
  rw [obey, reconfigureOnce, reconfigure]
  cases hcheck : stage.harvester.checkConfig config with
  | error e => rfl
  | ok _ =>
    have hfull : ¬ stage.harvester.admitsPolicy config.policy = true := fun hadmits =>
      h ⟨hcheck, hadmits⟩
    simp only [applyConfig, hfull, Bool.false_eq_true, if_false]
    rfl

end Bringing

section Waiting

theorem stopped_of_broughtUp {h : Harvester} {world : World}
    {answer : (Except HarvestError Unit × Harvester) × World} (hbrought : BroughtUp h world answer)
    (hfailed : answer.1.1 ≠ .ok ()) : answer.1.2.status = .stopped := by
  cases hbrought with
  | failed => rfl
  | up => exact absurd rfl hfailed

theorem stopped_obey (stage : Stage) (hstopped : stage.harvester.status = .stopped)
    {command : Command} (hdown : ¬ Episode.BringsUp ⟨stage, command, obey answers stage command⟩) :
    (obey answers stage command).2.harvester.status = .stopped := by
  have hobeyed := @obeyed_obey answers stage command
  generalize obey answers stage command = answer at hobeyed hdown ⊢
  cases hobeyed with
  | refused => exact hstopped
  | running hrunning => exact absurd (hstopped.symm.trans hrunning) nofun
  | started answer _ hbrought =>
    apply stopped_of_broughtUp hbrought
    intro hok
    exact hdown ⟨Or.inl rfl, congrArg Reply.done hok⟩
  | stopped => rfl
  | adopted config answer hbrought =>
    apply stopped_of_broughtUp hbrought
    intro hok
    exact hdown ⟨Or.inr ⟨config, rfl⟩, congrArg Reply.done hok⟩
  | registered | unregistered => exact hstopped
  | polled answer hpolled =>
    cases hpolled with
    | failed _ _ hharvester =>
      rw [hharvester]
      exact hstopped
    | idle => exact hstopped
    | completed _ _ _ _ hrunning => exact absurd (hstopped.symm.trans hrunning) nofun

theorem refusesPolls_of_stopped {h : Harvester} (hstopped : h.status = .stopped) :
    RefusesPolls h := by
  intro σ lister store listenerOf
  have hbegin : h.beginPoll = .notRunning := by
    rw [beginPoll, hstopped]
    rfl
  rw [poll, hbegin]

theorem obey_poll_of_stopped (hstopped : stage.harvester.status = .stopped) :
    obey answers stage .poll = (.polled (.error (.notRunning stage.harvester.id)), stage) := by
  rw [obey, pollOnce, refusesPolls_of_stopped hstopped]
  rfl

theorem silent_of_stopped {h : Harvester} (hstopped : h.status = .stopped)
    (turns : List (World × Command))
    (hdown : ∀ episode ∈ episodes answers h turns, ¬ episode.BringsUp) :
    (afterwards answers h turns).status = .stopped ∧
      ∀ episode ∈ episodes answers h turns, episode.command = .poll →
        episode.answer = (.polled (.error (.notRunning h.id)), episode.stage) ∧
          RefusesPolls episode.stage.harvester := by
  -- The induction is on the turns: the harvester may be told to start or to reconfigure, and stays
  -- stopped.
  induction turns generalizing h with
  | nil => exact ⟨hstopped, List.forall_mem_nil _⟩
  | cons turn turns ih =>
    obtain ⟨hfirst, hlater⟩ := forall_mem_episodes_cons.mp hdown
    have hid : (obey answers ⟨h, turn.1⟩ turn.2).2.harvester.id = h.id := id_obey _ turn.2
    obtain ⟨hlast, hpolls⟩ := ih (stopped_obey ⟨h, turn.1⟩ hstopped hfirst) hlater
    rw [hid] at hpolls
    refine ⟨hlast, forall_mem_episodes_cons.mpr ⟨?_, hpolls⟩⟩
    intro hpoll
    change turn.2 = .poll at hpoll
    refine ⟨?_, refusesPolls_of_stopped hstopped⟩
    show obey answers ⟨h, turn.1⟩ turn.2 = _
    rw [hpoll]
    exact obey_poll_of_stopped hstopped

end Waiting

/-- A harvester that has taken over a configuration and waits to be brought up with it. -/
structure Awaits (before : Harvester) (config : HarvesterConfig) (h : Harvester) : Prop where
  stopped : h.status = .stopped
  settings : SameSettings ({ before with members := h.members }.adopt config) h
  admits : h.admitsPolicy config.policy = true

section Awaiting

variable {before h : Harvester} {config : HarvesterConfig}

theorem Awaits.withMembers (hawaits : Awaits before config h) {members : List ListenerId}
    (hfew : config.policy = .single → members.length ≤ 1) :
    Awaits before config { h with members := members } := by
  obtain ⟨hid, hconfig, hpolicy, -, hinterval⟩ := hawaits.settings
  exact ⟨hawaits.stopped, ⟨hid, hconfig, hpolicy, rfl, hinterval⟩, admitsPolicy_iff.mpr hfew⟩

theorem Awaits.still (hawaits : Awaits before config h) (key : String)
    (snapshot : Option Snapshot) (properties : Properties) :
    Awaits before config { h with
      snapshotKey := key, snapshot := snapshot, properties := properties, status := .stopped } := by
  obtain ⟨hid, hconfig, hpolicy, -, hinterval⟩ := hawaits.settings
  exact ⟨rfl, ⟨hid, hconfig, hpolicy, rfl, hinterval⟩, hawaits.admits⟩

theorem Awaits.join (hawaits : Awaits before config h) (listener : ListenerId) :
    Awaits before config { h with members := Registry.join h.policy h.members listener } := by
  apply hawaits.withMembers
  intro hsingle
  have hpolicy : h.policy = .single := hawaits.settings.policy.trans hsingle
  rw [hpolicy]
  exact length_join_single listener (admitsPolicy_iff.mp hawaits.admits hsingle)

theorem Awaits.unregister (hawaits : Awaits before config h) (listener : ListenerId) :
    Awaits before config (h.unregister listener) := by
  apply hawaits.withMembers
  intro hsingle
  exact Nat.le_trans (List.length_filter_le _ _) (admitsPolicy_iff.mp hawaits.admits hsingle)

theorem Awaits.start (hawaits : Awaits before config stage.harvester)
    (hfailed : (obey answers stage .start).1 ≠ .done (.ok ())) :
    Awaits before config (obey answers stage .start).2.harvester := by
  have hobeyed := @obeyed_start answers stage
  generalize obey answers stage .start = answer at hobeyed hfailed ⊢
  cases hobeyed with
  | refused => exact hawaits
  | running => exact absurd rfl hfailed
  | started answer _ hbrought =>
    cases hbrought with
    | failed e key properties => exact hawaits.still key stage.harvester.snapshot properties
    | up => exact absurd rfl hfailed

theorem Awaits.obey (stage : Stage) (hawaits : Awaits before config stage.harvester)
    {command : Command}
    (hdown : ¬ Episode.BringsUp ⟨stage, command, obey answers stage command⟩)
    (hkeeps : ¬ Episode.Adopts ⟨stage, command, obey answers stage command⟩) :
    Awaits before config (obey answers stage command).2.harvester := by
  cases command with
  | start =>
    apply hawaits.start
    intro hok
    exact hdown ⟨Or.inl rfl, hok⟩
  | stop => exact hawaits.still stage.harvester.snapshotKey none stage.harvester.properties
  | reconfigure other =>
    rw [obey_reconfigure_of_not_adopts]
    · exact hawaits
    · rintro ⟨hcheck, hadmits⟩
      exact hkeeps ⟨other, rfl, hcheck, hadmits⟩
  | register listener name =>
    rw [Surroundings.obey]
    rcases Registry.register_eq_join stage.harvester listener name with hok | ⟨⟨e, herror⟩, -⟩
    · rw [hok]
      exact hawaits.join listener
    · rw [herror]
      exact hawaits
  | unregister listener => exact hawaits.unregister listener
  | poll =>
    rw [obey_poll_of_stopped hawaits.stopped]
    exact hawaits

theorem awaits_afterwards (hawaits : Awaits before config h) (turns : List (World × Command))
    (hquiet : ∀ episode ∈ episodes answers h turns, ¬ episode.BringsUp ∧ ¬ episode.Adopts) :
    Awaits before config (afterwards answers h turns) := by
  induction turns generalizing h with
  | nil => exact hawaits
  | cons turn turns ih =>
    obtain ⟨⟨hdown, hkeeps⟩, hlater⟩ := forall_mem_episodes_cons.mp hquiet
    exact ih (Awaits.obey ⟨h, turn.1⟩ hawaits hdown hkeeps) hlater

theorem awaits_reconfigure {world : World} (hcheck : h.checkConfig config = .ok ())
    (hadmits : h.admitsPolicy config.policy = true)
    (hfailed : (obey answers ⟨h, world⟩ (.reconfigure config)).1 ≠ .done (.ok ())) :
    Awaits h config (obey answers ⟨h, world⟩ (.reconfigure config)).2.harvester := by
  rw [obey_reconfigure hcheck hadmits] at hfailed ⊢
  have hbrought := @broughtUp_bringUp answers (h.adopt config) world
  change Awaits h config (bringUp (lister answers) (store answers) (h.adopt config) world).1.2
  change Reply.done (bringUp (lister answers) (store answers) (h.adopt config) world).1.1 ≠ _
    at hfailed
  generalize bringUp (lister answers) (store answers) (h.adopt config) world = answer
    at hbrought hfailed ⊢
  cases hbrought with
  | failed => exact ⟨rfl, ⟨rfl, rfl, rfl, rfl, rfl⟩, hadmits⟩
  | up => exact absurd rfl hfailed

theorem Awaits.completes (hawaits : Awaits before config h)
    (hcheck : before.checkConfig config = .ok ()) (world : World) :
    Completes answers ⟨h, world⟩ { before with members := h.members } config := by
  have hresting : h.status ≠ .polling := by
    rw [hawaits.stopped]
    exact nofun
  have hconfig : h.config = config := hawaits.settings.config
  obtain ⟨hreply, hworld⟩ :=
    @bringUp_of_sameConfig answers _ _ hawaits.settings.config world
  have hstart := @obey_start answers ⟨h, world⟩ hresting
  have hreconfigure := @obey_reconfigure answers ⟨{ before with members := h.members }, world⟩
    config hcheck hawaits.admits
  refine ⟨⟨hcheck, hawaits.admits⟩, ?_, ?_, ?_, ?_⟩
  · rw [hstart, hreconfigure]
    exact congrArg Reply.done hreply
  · rw [hstart, hreconfigure]
    exact hworld
  -- Both are brought up with the same settings, and all the rest is overwritten.
  · rw [hstart, hreconfigure]
    intro hok
    have hbrought := raised_of_broughtUp (@broughtUp_bringUp answers h world)
      (Reply.done.inj hok)
    have hbrought' := raised_of_broughtUp (@broughtUp_bringUp answers _ world)
      (hreply.symm.trans (Reply.done.inj hok))
    exact hbrought.trans ((raised_of_sameSettings hawaits.settings _).trans hbrought'.symm)
  · intro hroot hload
    rw [hstart]
    apply congrArg Reply.done
    apply bringUp_ok _ hroot
    · rw [hconfig]
      exact hload
    · rw [hconfig]
      exact (checkConfig_eq_ok_iff.mp hcheck).2

end Awaiting

/-- Whatever state a harvester is in, a reconfiguration that passes the checks and fails afterwards
leaves it stopped; until it is brought up its polls ask nobody anything; and a start then does what
the reconfiguration would do if it came instead. -/
theorem start_completes_reconfigure (answers : Answers) (h : Harvester) (world : World)
    (config : HarvesterConfig) (hcheck : h.checkConfig config = .ok ())
    (hadmits : h.admitsPolicy config.policy = true)
    (hfailed : (obey answers ⟨h, world⟩ (.reconfigure config)).1 ≠ .done (.ok ())) :
    LeftToStart answers h config (obey answers ⟨h, world⟩ (.reconfigure config)).2.harvester := by
  have hawaits := awaits_reconfigure hcheck hadmits hfailed
  have hid : (obey answers ⟨h, world⟩ (.reconfigure config)).2.harvester.id = h.id :=
    id_obey _ _
  refine ⟨hawaits.stopped, ?_, ?_⟩
  · intro turns hdown
    rw [← hid]
    exact silent_of_stopped hawaits.stopped turns hdown
  · intro turns hquiet world'
    exact (awaits_afterwards hawaits turns hquiet).completes hcheck world'

/-- Surroundings in which a snapshot cannot be loaded at one moment, and the root cannot be reached
at the next. -/
def flaky : Answers :=
  { budding with
    checkRoot := fun calls => if calls.length = 4 then .error (.unreachable "") else .ok ()
    loadError? := fun calls => if calls.length = 3 then some (.database "") else none }

def moved : HarvesterConfig :=
  { HarvesterConfig.ofRoot "h" "s" with interval := 1000 }

def settled : Stage :=
  obeyAll flaky ⟨.ofConfig (.ofRoot "h" "r"), ⟨Table.empty, []⟩⟩ [.start, .register 0 "l"]

def stranded : Stage :=
  (obey flaky settled (.reconfigure moved)).2

def strandedTurns : List (World × Command) :=
  [(stranded.world, .poll), (stranded.world, .register 1 "m"), (stranded.world, .start)]

theorem quiet_strandedTurns : ∀ episode ∈ episodes flaky stranded.harvester strandedTurns,
    ¬ episode.BringsUp ∧ ¬ episode.Adopts := by
  simp only [strandedTurns, forall_mem_episodes_cons]
  refine ⟨⟨?_, nofun⟩, ⟨?_, nofun⟩, ⟨?_, nofun⟩, List.forall_mem_nil _⟩
  · rintro ⟨hcommand | ⟨_, hcommand⟩, -⟩ <;> cases hcommand
  · rintro ⟨hcommand | ⟨_, hcommand⟩, -⟩ <;> cases hcommand
  · rintro ⟨-, hreply⟩
    cases hreply

theorem stranded_completed :
    settled.harvester.checkConfig moved = .ok () ∧
      settled.harvester.admitsPolicy moved.policy = true ∧
      (obey flaky settled (.reconfigure moved)).1 =
        .done (.error (.persistence (.database ""))) ∧
      LeftToStart flaky settled.harvester moved stranded.harvester ∧
      ∀ world : World, world.calls.length = 5 →
        (obey flaky ⟨afterwards flaky stranded.harvester strandedTurns, world⟩ .start).1 =
          .done (.ok ()) := by
  have hfailed : (obey flaky settled (.reconfigure moved)).1 =
      .done (.error (.persistence (.database ""))) := rfl
  have hleft : LeftToStart flaky settled.harvester moved stranded.harvester := by
    apply start_completes_reconfigure flaky settled.harvester settled.world moved rfl rfl
    rw [hfailed]
    exact nofun
  refine ⟨rfl, rfl, hfailed, hleft, fun world hcalls => ?_⟩
  apply (hleft.completed strandedTurns quiet_strandedTurns world).succeeds
  · simp [flaky, hcalls]
  · simp [flaky, World.note, hcalls]

end CatalogSync.Surroundings
