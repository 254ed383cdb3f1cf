import CatalogSync.Proofs.Poller.Shutdown

namespace CatalogSync.Surroundings

open Harvester Poller

/-- The next tick would be due when there is no time any more. -/
def IsOverlong (notice : Nat × Nat) : Prop :=
  endOfTime ≤ notice.1 + notice.2

variable {answers : Answers} {first : Stage} {scene : Scene} {turns : Turns}

section Intervals

theorem interval_advance (stage : Stage) (progress : Progress) :
    (advance answers stage progress).2.harvester.interval = stage.harvester.interval ∨
      progress.isCommitted ∧ (advance answers stage progress).2.harvester.interval =
        (complete answers stage progress).2.harvester.interval := by
  cases progress with
  | announcing interval =>
    exact Or.inr ⟨rfl, (sameSettings_of_broughtUp (broughtUp_bringUp _ _)).interval.symm⟩
  | stopping | resting | halting | adopting | initializing | closing | keeping => exact Or.inl rfl
  | starting | admitting | beginning | gathering =>
    apply Or.inl
    simp only [advance]
    split <;> rfl
  | checking =>
    apply Or.inl
    simp only [advance]
    split
    · rfl
    · split <;> rfl
  | loading =>
    apply Or.inl
    simp only [advance, loadStored]
    split <;> rfl
  | listing =>
    apply Or.inl
    simp only [advance]
    split <;> rfl
  | telling diff rest failures =>
    apply Or.inl
    cases rest with
    | nil => rfl
    | cons notice rest =>
      simp only [advance]
      split <;> rfl
  | committing =>
    apply Or.inl
    simp only [advance]
    split
    · rfl
    · split <;> rfl

theorem stage_proceed {turn : Turn} (hturn : turns.turn? = some turn) :
    (turns.proceed answers).stage = (advance answers turns.stage turn.progress).2 := by
  simp only [Turns.proceed, hturn]
  rcases advance answers turns.stage turn.progress with ⟨next | reply, after⟩ <;> rfl

theorem interval_proceed (turns : Turns) :
    (turns.proceed answers).stage.harvester.interval = turns.stage.harvester.interval ∨
      (turns.proceed answers).stage.harvester.interval =
        (turns.prospect answers).harvester.interval := by
  cases hturn : turns.turn? with
  | none =>
    apply Or.inl
    simp only [Turns.proceed, hturn]
  | some turn =>
    rw [stage_proceed hturn]
    refine (interval_advance turns.stage turn.progress).imp_right ?_
    rintro ⟨hcommitted, hinterval⟩
    simp only [Turns.prospect, hturn, hcommitted, if_true]
    exact hinterval

theorem interval_happen (h : Serial answers first turns) (hfirst : first.harvester.interval ≠ 0)
    (hinterval : turns.stage.harvester.interval ≠ 0) (event : Event) :
    (turns.happen answers event).stage.harvester.interval ≠ 0 := by
  cases event with
  | register listener name =>
    rw [Turns.happen, Turns.snd_register]
    exact hinterval
  | unregister listener => exact hinterval
  | ask request =>
    rw [Turns.happen, Turns.ask]
    split <;> exact hinterval
  | grant place =>
    rw [Turns.happen, Turns.grant]
    split <;> exact hinterval
  | proceed =>
    obtain ⟨commands, hserial⟩ := h.prospect
    rcases @interval_proceed answers turns with hsame | hnew
    · exact hsame.trans_ne hinterval
    · refine hnew.trans_ne ?_
      rw [hserial]
      exact interval_obeyAll hfirst commands

end Intervals

/-- A loop whose handle is held is over if it has followed an overlong interval, and only then. -/
structure Enduring (scene : Scene) : Prop where
  interval : scene.interval ≠ 0
  held : scene.handle = .held →
    (scene.poller.stage = .ended ↔ ∃ notice ∈ scene.followed, IsOverlong notice)

section Steps

theorem enduring_of_stage (h : Enduring scene) (poller : Poller)
    (hbefore : scene.poller.stage ≠ .ended) (hafter : poller.stage ≠ .ended) :
    Enduring { scene with poller := poller } := by
  refine ⟨h.interval, ?_⟩
  intro hheld
  have hnone := (h.held hheld).not.mp hbefore
  exact ⟨fun hended => absurd hended hafter, fun hlong => absurd hlong hnone⟩

theorem enduring_follow (h : Enduring scene) {ticker : Ticker}
    (hwaiting : scene.poller.stage = .waiting ticker) : Enduring (scene.choose .follow) := by
  refine ⟨h.interval, ?_⟩
  intro hheld
  have hnone : ¬ ∃ notice ∈ scene.followed, IsOverlong notice :=
    (h.held hheld).not.mp (by simp [hwaiting])
  have hinterval := h.interval
  simp only [Scene.choose, Poller.choose, followInterval, hinterval, false_or, List.mem_append,
    List.mem_singleton]
  split
  · rename_i hlong
    exact ⟨fun _ => ⟨_, Or.inr rfl, hlong⟩, fun _ => rfl⟩
  · rename_i hshort
    constructor
    · rintro ⟨⟩
    · rintro ⟨notice, hold | rfl, hlong⟩
      · exact absurd ⟨notice, hold, hlong⟩ hnone
      · exact absurd hlong hshort

theorem enduring_take (hlooping : Looping answers first scene) (h : Enduring scene)
    (branch : Branch) : Enduring (scene.take branch) := by
  unfold Scene.take
  split
  · rename_i hready
    obtain ⟨ticker, hwaiting⟩ := waiting_of_isReady hready
    have hopen : scene.poller.stage ≠ .ended := by simp [hwaiting]
    cases branch with
    | tick =>
      have hnext := enduring_of_stage h
        (scene.poller.choose scene.now scene.interval scene.changes .tick) hopen
        (by simp [Poller.choose, hwaiting])
      exact ⟨h.interval, hnext.held⟩
    | follow => exact enduring_follow h hwaiting
    | leave =>
      -- Whoever holds the handle has neither told the loop to leave nor left it alone.
      refine ⟨h.interval, ?_⟩
      intro (hheld : scene.handle = .held)
      have hstopping := hlooping.stopping
      simp [isReady, hwaiting, hheld, hstopping] at hready
  · exact h

theorem enduring_resume (hlooping : Looping answers first scene) (h : Enduring scene) :
    Enduring scene.resume := by
  unfold Scene.resume
  split
  · refine ⟨h.interval, ?_⟩
    intro (hheld : scene.handle = .held)
    have hgoesOn : scene.poller.stopping = false := by
      simpa [hheld] using hlooping.stopping
    have hsame : scene.poller.pollDone.stage = .ended ↔ scene.poller.stage = .ended := by
      unfold pollDone
      split <;> simp_all
    exact hsame.trans (h.held hheld)
  · exact h

theorem enduring_happen (hfirst : first.harvester.interval ≠ 0)
    (hlooping : Looping answers first scene) (h : Enduring scene) (incident : Incident) :
    Enduring (scene.happen answers incident) := by
  cases incident with
  | meanwhile event hothers =>
    exact ⟨interval_happen hlooping.serial hfirst h.interval event, h.held⟩
  | elapse time => exact ⟨h.interval, h.held⟩
  | wake =>
    simp only [Scene.happen, Scene.wake]
    split
    · rename_i hfresh
      refine enduring_of_stage h _ (by simp [hfresh]) ?_
      simp [begin, h.interval]
    · exact h
  | take branch => exact enduring_take hlooping h branch
  | resume => exact enduring_resume hlooping h
  | shutdown | finish | drop =>
    simp only [Scene.happen, Scene.shutdown, Scene.finish, Scene.drop]
    split
    · refine ⟨h.interval, ?_⟩
      rintro ⟨⟩
    · exact h

theorem enduring_happenAll (hfirst : first.harvester.interval ≠ 0)
    (hlooping : Looping answers first scene) (h : Enduring scene) (incidents : List Incident) :
    Enduring (scene.happenAll answers incidents) := by
  suffices hboth : Looping answers first (scene.happenAll answers incidents) ∧
      Enduring (scene.happenAll answers incidents) from hboth.2
  apply Scene.happenAll_invariant (P := fun after => Looping answers first after ∧ Enduring after)
  · rintro after incident ⟨hlooping, h⟩
    exact ⟨looping_happen hlooping incident, enduring_happen hfirst hlooping h incident⟩
  · exact ⟨hlooping, h⟩

end Steps

/-- With valid configurations, a loop whose handle is held is over if and only if it has followed an
interval beyond the end of time. -/
theorem held_loop_ends_iff_overlong (answers : Answers) (config : HarvesterConfig) (world : World)
    (hvalid : config.validate = .ok ()) (incidents : List Incident)
    (hheld : ((Scene.spawned ⟨.ofConfig config, world⟩).happenAll answers incidents).handle =
      .held) :
    ((Scene.spawned ⟨.ofConfig config, world⟩).happenAll answers incidents).poller.stage = .ended ↔
      ∃ notice ∈ ((Scene.spawned ⟨.ofConfig config, world⟩).happenAll answers incidents).followed,
        IsOverlong notice := by
  have hinterval : config.interval ≠ 0 := HarvesterConfig.interval_ne_zero_of_validate hvalid
  have hspawned : Enduring (.spawned ⟨.ofConfig config, world⟩) :=
    ⟨hinterval, fun _ => by simp [Scene.spawned, spawned]⟩
  have hfirst : (⟨.ofConfig config, world⟩ : Stage).harvester.interval ≠ 0 := hinterval
  exact (enduring_happenAll hfirst (looping_spawned _) hspawned incidents).held hheld

def docsEvery (interval : Nat) : HarvesterConfig :=
  { HarvesterConfig.ofRoot "docs" "/data/docs" with interval := interval }

/-- A loop polls once. Then its harvester gets another interval, which the loop follows. -/
def untilFollowed (interval : Nat) : List Incident :=
  [.wake, .take .tick, .granting 0, .proceeding, .resume, .elapse 1500,
    .asking 0 (.reconfigure (docsEvery interval)), .granting 0] ++
    List.replicate 8 .proceeding ++ [.take .follow]

def followedScene (interval : Nat) : Scene :=
  (Scene.spawned ⟨.ofConfig (docsEvery 1000), ⟨.empty, []⟩⟩).happenAll growing
    (untilFollowed interval)

theorem shorter_interval_followed :
    (followedScene 300).followed = [(1500, 300)] ∧
      ((followedScene 300).poller.stage = .ended ↔
        ∃ notice ∈ (followedScene 300).followed, IsOverlong notice) :=
  ⟨rfl, held_loop_ends_iff_overlong growing (docsEvery 1000) ⟨.empty, []⟩ rfl (untilFollowed 300)
    rfl⟩

/-- As many seconds as 64 bits can count are a valid interval, which is fine for a loop that is
spawned with it. A loop that follows it is gone. -/
theorem longest_interval_ends_loop :
    (docsEvery (0xFFFF_FFFF_FFFF_FFFF * 1000)).validate = .ok () ∧
      (followedScene (0xFFFF_FFFF_FFFF_FFFF * 1000)).turns.stage.harvester.status = .polling ∧
      (followedScene (0xFFFF_FFFF_FFFF_FFFF * 1000)).handle = .held ∧
      (followedScene (0xFFFF_FFFF_FFFF_FFFF * 1000)).poller.stage = .ended :=
  ⟨rfl, rfl, rfl, rfl⟩

end CatalogSync.Surroundings
