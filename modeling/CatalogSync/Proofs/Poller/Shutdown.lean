import CatalogSync.Proofs.Harvest.Baseline
import CatalogSync.Proofs.Poller.Loop

namespace CatalogSync.Surroundings

open Harvester Poller

/-- What has been listed is what is known, and what is stored. -/
def Stage.Keeps (stage : Stage) (listing : List ListingEntry) : Prop :=
  stage.harvester.snapshot = some (Snapshot.ofListing listing) ∧
    storedSnapshot? (stage.world.blobs.get? (persistenceKey stage.harvester.config.root)) =
      some (Snapshot.ofListing listing)

/-- A poll is over: it has failed, or nobody listened, or it leaves behind what it has listed. -/
def Answered.IsOver (answered : Answered) : Prop :=
  ∃ result, answered.reply = .polled result ∧ ∀ report, result = .ok report → report.idle = true ∨
    ∃ listing, .list answered.after.harvester.config.root (.ok listing) ∈
        answered.after.world.calls.drop answered.since ∧
      answered.after.Keeps listing

/-- What a shutdown that returns leaves behind, in view of how things were when it began: no poll of
the loop is on its way, all are over, of those that had not been answered then there has been one at
most, and none will follow. -/
structure Silenced (answers : Answers) (signalled scene : Scene) : Prop where
  nobody : ∀ request ∈ scene.turns.pending, request.caller ≠ .poller
  answered : scene.polled = scene.started
  concluded : ∀ answered ∈ scene.turns.answered, answered.caller = .poller → answered.IsOver
  once : scene.started ≤ signalled.polled + 1
  forGood : ∀ later, (scene.happenAll answers later).started = scene.started ∧
    ∀ request ∈ (scene.happenAll answers later).turns.pending, request.caller ≠ .poller

variable {answers : Answers} {first : Stage} {scene : Scene}

section Outcomes

theorem isOver_of_answeredAlone (hfirst : Consistent first) {answered : Answered}
    (hpoll : answered.errand = .poll)
    (halone : AnsweredAlone answers first answered.errand answered.since
      (answered.reply, answered.after)) : answered.IsOver := by
  obtain ⟨commands, members, hsince, hreply, hafter⟩ := halone
  have hbegan := @consistent_obeyAll answers first hfirst commands
  generalize obeyAll answers first commands = began at hsince hreply hafter hbegan
  rw [hpoll] at hreply hafter
  have hlast : Consistent (obey answers began .poll).2 := consistent_obey hbegan .poll
  have hpolled : Polled answers began (pollOnce answers began) := polled_pollOnce began
  change answered.reply = .polled (pollOnce answers began).1 at hreply
  change answered.after = (pollOnce answers began).2.withMembers members at hafter
  change Consistent (pollOnce answers began).2 at hlast
  refine ⟨_, hreply, ?_⟩
  rw [hafter]
  generalize pollOnce answers began = answer at hpolled hlast ⊢
  cases hpolled with
  | failed => rintro _ ⟨⟩
  | idle =>
    rintro _ ⟨⟩
    exact Or.inl rfl
  | completed listing failures after last hrunning hcalls _ hharvester hblobs =>
    rintro _ ⟨⟩
    obtain ⟨hkey, -, hstored⟩ := hlast.running (by rw [hharvester]; exact hrunning)
    refine Or.inr ⟨listing, ?_, ?_, ?_⟩
    · change .list after.harvester.config.root _ ∈ after.world.calls.drop _
      rw [hcalls, hharvester, List.drop_append_of_le_length hsince]
      simp
    · change after.harvester.snapshot = _
      rw [hharvester]
    · change storedSnapshot? (after.world.blobs.get? (persistenceKey after.harvester.config.root)) =
        _
      rw [← hkey, ← hstored, hharvester]

theorem Looping.isOver (h : Looping answers first scene) (hfirst : Consistent first) :
    ∀ answered ∈ scene.turns.answered, answered.caller = .poller → answered.IsOver := by
  intro answered hanswered hcaller
  have hrequest : answered.toRequest ∈ scene.turns.requests :=
    List.mem_append_right _ (List.mem_map_of_mem hanswered)
  exact isOver_of_answeredAlone hfirst (h.polls _ hrequest hcaller)
    (h.serial.answered answered hanswered)

end Outcomes

section Signal

/-- A loop that has been told to end has one more poll at most, and the one that is under way
counts. -/
structure Signalled (base : Nat) (scene : Scene) : Prop where
  stopping : scene.poller.stopping = true
  few : scene.started ≤ base + 1
  rest : scene.poller.isPolling = false → scene.poller.stage ≠ .ended → scene.started ≤ base

variable {base : Nat}

theorem signalled_shutdown (h : Looping answers first scene) (hheld : scene.handle = .held) :
    Signalled scene.polled scene.shutdown := by
  simp only [Scene.shutdown, hheld, if_true]
  refine ⟨rfl, h.busy, ?_⟩
  intro hidle _
  exact (h.idle hidle).ge

theorem signalled_take (h : Signalled base scene) (branch : Branch) :
    Signalled base (scene.take branch) := by
  unfold Scene.take
  split
  · rename_i hready
    obtain ⟨ticker, hwaiting⟩ := waiting_of_isReady hready
    have hrest : scene.started ≤ base := h.rest (by simp [isPolling, hwaiting]) (by simp [hwaiting])
    have hstopping : (scene.poller.choose scene.now scene.interval scene.changes branch).stopping =
      true := (stopping_choose branch).trans h.stopping
    cases branch with
    | tick =>
      refine ⟨hstopping, Nat.succ_le_succ hrest, ?_⟩
      intro hidle
      simp [Scene.choose, Poller.choose, hwaiting, isPolling] at hidle
    | follow | leave => exact ⟨hstopping, h.few, fun _ _ => hrest⟩
  · exact h

theorem signalled_resume (h : Signalled base scene) : Signalled base scene.resume := by
  unfold Scene.resume
  split
  · refine ⟨stopping_pollDone.trans h.stopping, h.few, ?_⟩
    intro _ hopen
    simp only [pollDone, h.stopping, if_true] at hopen
    split at hopen
    · exact absurd rfl hopen
    · rename_i hstage
      refine h.rest ?_ hopen
      unfold isPolling
      split
      · rename_i ticker hpolling
        exact absurd hpolling (hstage ticker)
      · rfl
  · exact h

theorem signalled_happen (h : Signalled base scene) (incident : Incident) :
    Signalled base (scene.happen answers incident) := by
  cases incident with
  | meanwhile | elapse => exact ⟨h.stopping, h.few, h.rest⟩
  | wake =>
    simp only [Scene.happen, Scene.wake]
    split
    · rename_i hfresh
      refine ⟨stopping_begin.trans h.stopping, h.few, ?_⟩
      intro _ _
      exact h.rest (by simp [isPolling, hfresh]) (by simp [hfresh])
    · exact h
  | take branch => exact signalled_take h branch
  | resume => exact signalled_resume h
  | shutdown =>
    simp only [Scene.happen, Scene.shutdown]
    split
    · exact ⟨rfl, h.few, h.rest⟩
    · exact h
  | finish | drop =>
    simp only [Scene.happen, Scene.finish, Scene.drop]
    split
    · exact ⟨h.stopping, h.few, h.rest⟩
    · exact h

theorem signalled_happenAll (h : Signalled base scene) (incidents : List Incident) :
    Signalled base (scene.happenAll answers incidents) := by
  apply Scene.happenAll_invariant (P := Signalled base)
  · intro after incident h
    exact signalled_happen h incident
  · exact h

end Signal

section Ended

theorem ended_happen (hended : scene.poller.stage = .ended) (incident : Incident) :
    (scene.happen answers incident).poller.stage = .ended ∧
      (scene.happen answers incident).started = scene.started := by
  cases incident with
  | meanwhile | elapse => exact ⟨hended, rfl⟩
  | wake =>
    simp only [Scene.happen, Scene.wake, hended]
    exact ⟨trivial, trivial⟩
  | take branch => simp [Scene.happen, Scene.take, isReady, hended]
  | resume =>
    simp only [Scene.happen, Scene.resume]
    split
    · simp [pollDone, hended]
    · exact ⟨hended, rfl⟩
  | shutdown | finish | drop =>
    simp only [Scene.happen, Scene.shutdown, Scene.finish, Scene.drop]
    split <;> exact ⟨hended, rfl⟩

theorem ended_happenAll (hended : scene.poller.stage = .ended) (incidents : List Incident) :
    (scene.happenAll answers incidents).poller.stage = .ended ∧
      (scene.happenAll answers incidents).started = scene.started := by
  apply Scene.happenAll_invariant
    (P := fun after => after.poller.stage = .ended ∧ after.started = scene.started)
  · rintro after incident ⟨hended, hstarted⟩
    obtain ⟨hstill, hsame⟩ := @ended_happen answers after hended incident
    exact ⟨hstill, hsame.trans hstarted⟩
  · exact ⟨hended, rfl⟩

theorem Looping.nobody (h : Looping answers first scene) (hended : scene.poller.stage = .ended) :
    scene.polled = scene.started ∧ ∀ request ∈ scene.turns.pending, request.caller ≠ .poller := by
  have hall : scene.polled = scene.started := h.idle (by simp [isPolling, hended])
  have hnone : (scene.turns.pending.countP fun request => request.caller = .poller) = 0 := by
    have hpending := h.pending
    omega
  refine ⟨hall, ?_⟩
  intro request hrequest
  simpa using List.countP_eq_zero.mp hnone request hrequest

end Ended

section Return

/-- Neither the loop nor its handle has moved. -/
structure Scene.LoopRests (scene after : Scene) : Prop where
  poller : after.poller = scene.poller
  handle : after.handle = scene.handle
  started : after.started = scene.started

theorem Scene.happenAll_append (scene : Scene) (first second : List Incident) :
    scene.happenAll answers (first ++ second) =
      (scene.happenAll answers first).happenAll answers second :=
  List.foldl_append

theorem happenAll_proceeding (scene : Scene) (steps : Nat) :
    (scene.happenAll answers (List.replicate steps .proceeding)).turns =
        scene.turns.happenAll answers (List.replicate steps .proceed) ∧
      scene.LoopRests (scene.happenAll answers (List.replicate steps .proceeding)) := by
  induction steps generalizing scene with
  | zero => exact ⟨rfl, rfl, rfl, rfl⟩
  | succ steps ih =>
    obtain ⟨hturns, hrests⟩ := ih (scene.happen answers .proceeding)
    exact ⟨hturns, hrests.poller, hrests.handle, hrests.started⟩

theorem exists_free (scene : Scene) : ∃ rest,
    (scene.happenAll answers rest).turns.turn? = none ∧
      scene.LoopRests (scene.happenAll answers rest) := by
  cases hturn : scene.turns.turn? with
  | none => exact ⟨[], hturn, rfl, rfl, rfl⟩
  | some turn =>
    obtain ⟨steps, reply, last, hanswer⟩ := @exists_answer answers scene.turns turn hturn
    obtain ⟨hturns, hrests⟩ := @happenAll_proceeding answers scene steps
    refine ⟨_, ?_, hrests⟩
    rw [hturns, hanswer]
    rfl

theorem exists_polled_of_free (h : Looping answers first scene) (hfree : scene.turns.turn? = none)
    (hopen : scene.polled ≠ scene.started) : ∃ rest,
    (scene.happenAll answers rest).polled = scene.polled + 1 ∧
      scene.LoopRests (scene.happenAll answers rest) := by
  obtain ⟨request, hrequest, hcaller⟩ : ∃ request ∈ scene.turns.waiting, request.caller =
    .poller := by
    have hpending := h.pending
    simp only [Turns.pending, hfree, Option.toList_none, List.map_nil, List.nil_append] at hpending
    have hsome : 0 < scene.turns.waiting.countP fun request => request.caller = .poller := by omega
    simpa using List.countP_pos_iff.mp hsome
  obtain ⟨place, hplace, rfl⟩ := List.getElem_of_mem hrequest
  have hgranted : (scene.turns.grant place).turn? = some ⟨scene.turns.waiting[place],
      scene.turns.stage.world.calls.length, scene.turns.waiting[place].errand.opening⟩ := by
    simp [Turns.grant, hfree, List.getElem?_eq_getElem hplace]
  have hanswered : (scene.turns.grant place).answered = scene.turns.answered := by
    simp [Turns.grant, hfree, List.getElem?_eq_getElem hplace]
  obtain ⟨steps, reply, last, hanswer⟩ := @exists_answer answers _ _ hgranted
  obtain ⟨hturns, hrests⟩ := @happenAll_proceeding answers
    (scene.happen answers (.granting place)) steps
  refine ⟨.granting place :: List.replicate steps .proceeding, ?_, hrests.poller, hrests.handle,
    hrests.started⟩
  change ((scene.happen answers (.granting place)).happenAll answers
    (List.replicate steps .proceeding)).polled = _
  simp only [Scene.polled, hturns]
  change (((scene.turns.grant place).happenAll answers _).answered.countP _) = _
  rw [hanswer]
  simp [Turns.answer, hanswered, hcaller]

theorem exists_polled (h : Looping answers first scene) : ∃ rest,
    (scene.happenAll answers rest).polled = scene.started ∧
      scene.LoopRests (scene.happenAll answers rest) := by
  obtain ⟨rest, hfree, hrests⟩ := @exists_free answers scene
  have hafter := looping_happenAll h rest
  by_cases hall : (scene.happenAll answers rest).polled = (scene.happenAll answers rest).started
  · exact ⟨rest, hall.trans hrests.started, hrests⟩
  · obtain ⟨more, hpolled, hmore⟩ := exists_polled_of_free hafter hfree hall
    refine ⟨rest ++ more, ?_, ?_⟩
    · rw [Scene.happenAll_append, hpolled, ← hrests.started]
      have hbusy := hafter.busy
      have hpending := hafter.pending
      omega
    · rw [Scene.happenAll_append]
      exact ⟨hmore.poller.trans hrests.poller, hmore.handle.trans hrests.handle,
        hmore.started.trans hrests.started⟩

theorem closed_of_leave (hclosing : scene.handle = .closing)
    (hstopping : scene.poller.stopping = true)
    (hstage : scene.poller.stage = .ended ∨ ∃ ticker, scene.poller.stage = .waiting ticker) :
    (scene.happenAll answers [.take .leave, .finish]).handle = .closed := by
  rcases hstage with hended | ⟨ticker, hwaiting⟩
  · simp [Scene.happenAll, Scene.happen, Scene.take, isReady, Scene.finish, hended, hclosing]
  · simp [Scene.happenAll, Scene.happen, Scene.take, isReady, Scene.finish, Scene.choose,
      Poller.choose, hwaiting, hstopping, hclosing]

theorem closed_of_polled (hclosing : scene.handle = .closing)
    (hstopping : scene.poller.stopping = true)
    {ticker : Ticker} (hpolling : scene.poller.stage = .polling ticker)
    (hpolled : scene.polled = scene.started) :
    (scene.happenAll answers [.resume, .finish]).handle = .closed := by
  simp [Scene.happenAll, Scene.happen, Scene.resume, Scene.finish, pollDone, hpolled, hpolling,
    hstopping, hclosing]

/-- Whatever the loop is doing, a shutdown can return. -/
theorem exists_closed (h : Looping answers first scene) (hclosing : scene.handle = .closing) :
    ∃ rest, (scene.happenAll answers rest).handle = .closed := by
  have hstopping : scene.poller.stopping = true := h.stopping.mpr (Or.inl hclosing)
  cases hstage : scene.poller.stage with
  | ended => exact ⟨_, closed_of_leave hclosing hstopping (Or.inl hstage)⟩
  | waiting ticker => exact ⟨_, closed_of_leave hclosing hstopping (Or.inr ⟨ticker, hstage⟩)⟩
  | fresh =>
    have hwake : scene.wake =
        { scene with poller := scene.poller.begin scene.now scene.interval scene.changes } := by
      simp only [Scene.wake, hstage]
    refine ⟨.wake :: [.take .leave, .finish], ?_⟩
    change (scene.wake.happenAll answers [.take .leave, .finish]).handle = .closed
    rw [hwake]
    refine closed_of_leave hclosing (stopping_begin.trans hstopping) ?_
    simp only [begin]
    split
    · exact Or.inl rfl
    · exact Or.inr ⟨_, rfl⟩
  | polling ticker =>
    obtain ⟨rest, hpolled, hrests⟩ := exists_polled h
    refine ⟨rest ++ [.resume, .finish], ?_⟩
    rw [Scene.happenAll_append]
    rw [← hrests.poller] at hstopping hstage
    rw [← hrests.handle] at hclosing
    exact closed_of_polled hclosing hstopping hstage (hpolled.trans hrests.started.symm)

end Return

/-- Whenever a shutdown begins, it can return; and when it does, the loop has come to its end: no
poll of it is left, and at most one has started since, counting the one that was under way. -/
theorem shutdown_silences_loop (answers : Answers) (config : HarvesterConfig) (world : World)
    (before since : List Incident)
    (hheld : ((Scene.spawned ⟨.ofConfig config, world⟩).happenAll answers before).handle = .held) :
    let signalled := (Scene.spawned ⟨.ofConfig config, world⟩).happenAll answers before
    let scene := signalled.happenAll answers (.shutdown :: since)
    (∃ rest, (scene.happenAll answers rest).handle = .closed) ∧
      (scene.handle = .closed → Silenced answers signalled scene) := by
  intro signalled scene
  have hsignalled : Looping answers _ signalled := looping_happenAll (looping_spawned _) before
  have hscene : Looping answers _ scene := looping_happenAll hsignalled _
  have hlast : Signalled signalled.polled scene :=
    signalled_happenAll (signalled_shutdown hsignalled hheld) since
  constructor
  · rcases hscene.stopping.mp hlast.stopping with hclosing | hclosed
    · exact exists_closed hscene hclosing
    · exact ⟨[], hclosed⟩
  · intro hclosed
    have hended := hscene.closed hclosed
    obtain ⟨hall, hnobody⟩ := hscene.nobody hended
    refine ⟨hnobody, hall, hscene.isOver (consistent_ofConfig config world), hlast.few, ?_⟩
    intro later
    obtain ⟨hlater, hstarted⟩ := @ended_happenAll answers scene hended later
    exact ⟨hstarted, ((looping_happenAll hscene later).nobody hlater).2⟩

/-- The harvester is brought up, the loop has begun a poll, and somebody waits to stop the
harvester. -/
def beforeSignal : List Incident :=
  [.meanwhile (.register 1 "l") rfl, .asking 0 .start, .granting 0] ++
    List.replicate 5 .proceeding ++
    [.wake, .take .tick, .granting 0, .proceeding, .asking 0 .stop]

def afterSignal : List Incident :=
  List.replicate 6 .proceeding ++ [.granting 0, .resume] ++ List.replicate 2 .proceeding ++
    [.finish]

def docsScene : Scene :=
  .spawned ⟨.ofConfig (.ofRoot "docs" "/data/docs"), ⟨.empty, []⟩⟩

theorem docs_silenced :
    (docsScene.happenAll growing beforeSignal).handle = .held ∧
      ((docsScene.happenAll growing beforeSignal).polled,
        (docsScene.happenAll growing beforeSignal).started) = (0, 1) ∧
      Silenced growing (docsScene.happenAll growing beforeSignal)
        ((docsScene.happenAll growing beforeSignal).happenAll growing (.shutdown :: afterSignal)) :=
  ⟨rfl, rfl, (shutdown_silences_loop growing (.ofRoot "docs" "/data/docs") ⟨.empty, []⟩ beforeSignal
    afterSignal rfl).2 rfl⟩

end CatalogSync.Surroundings
