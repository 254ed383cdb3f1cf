import CatalogSync.Harvest.Poller
import CatalogSync.Proofs.Harvest.Turns

namespace CatalogSync

namespace Poller

/-- How a loop that waits can go on. -/
inductive Branch where
  | tick
  | follow
  | leave
  deriving DecidableEq

/-- A loop leaves if it has been told to, or if nobody is left to tell it. -/
def isReady (poller : Poller) (now changes : Nat) (abandoned : Bool) (branch : Branch) : Bool :=
  match poller.stage with
  | .waiting ticker =>
    match branch with
    | .tick => ticker.due ≤ now
    | .follow => poller.seen ≠ changes
    | .leave => poller.stopping || abandoned
  | _ => false

def choose (poller : Poller) (now interval changes : Nat) : Branch → Poller
  | .tick =>
    match poller.stage with
    | .waiting ticker => { poller with stage := .polling (ticker.take now) }
    | _ => poller
  | .follow => poller.followInterval now interval changes
  | .leave => { poller with stage := .ended }

def isPolling (poller : Poller) : Bool :=
  match poller.stage with
  | .polling _ => true
  | _ => false

/-- A loop on its own clock is one that takes the first branch that is ready, in this order. -/
theorem next?_eq_map_choose {poller : Poller} {ticker : Ticker}
    (hwaiting : poller.stage = .waiting ticker) (now interval changes : Nat) :
    poller.next? now interval changes =
      ([Branch.leave, .follow, .tick].find? (poller.isReady now changes false)).map
        (poller.choose now interval changes) := by
  obtain ⟨stage, seen, stopping⟩ := poller
  obtain rfl : stage = .waiting ticker := hwaiting
  simp only [next?, List.find?_cons, List.find?_nil, isReady, Bool.or_false]
  cases stopping with
  | true => rfl
  | false =>
    by_cases hseen : seen = changes
    · by_cases hdue : ticker.due ≤ now
      · simp [hseen, hdue, choose]
      · simp [hseen, hdue]
    · simp [hseen, choose]

section Stages

variable {poller : Poller} {now interval changes : Nat}

theorem waiting_of_isReady {abandoned : Bool} {branch : Branch}
    (h : poller.isReady now changes abandoned branch = true) :
    ∃ ticker, poller.stage = .waiting ticker := by
  unfold isReady at h
  split at h
  · rename_i ticker hwaiting
    exact ⟨ticker, hwaiting⟩
  · cases h

theorem stopping_begin : (poller.begin now interval changes).stopping = poller.stopping := by
  unfold begin
  split <;> rfl

theorem stopping_choose (branch : Branch) :
    (poller.choose now interval changes branch).stopping = poller.stopping := by
  cases branch with
  | tick =>
    simp only [choose]
    split <;> rfl
  | follow =>
    simp only [choose, followInterval]
    split <;> rfl
  | leave => rfl

theorem stopping_pollDone : poller.pollDone.stopping = poller.stopping := by
  unfold pollDone
  split
  · split <;> rfl
  · rfl

end Stages

end Poller

namespace Surroundings

open Poller

/-- How it stands between a loop and whoever has spawned it. -/
inductive Handle where
  | held
  /-- The loop has been told to end and is waited for. -/
  | closing
  | closed
  | dropped
  deriving DecidableEq

structure Scene where
  turns : Turns
  now : Nat
  /-- How often the interval has changed. -/
  changes : Nat
  poller : Poller
  handle : Handle
  /-- How many polls the loop has started. -/
  started : Nat
  /-- The intervals that the loop has taken notice of, each with its time. -/
  followed : List (Nat × Nat)

def Event.isFromPoller : Event → Bool
  | .ask request => request.caller = .poller
  | _ => false

inductive Incident where
  /-- Something that others do, or a step of whoever has the turn. -/
  | meanwhile (event : Event) (hothers : event.isFromPoller = false)
  | elapse (time : Nat)
  | wake
  | take (branch : Branch)
  | resume
  | shutdown
  /-- The shutdown returns. -/
  | finish
  | drop

namespace Incident

def asking (number : Nat) (errand : Errand) : Incident :=
  .meanwhile (.ask ⟨.owner number, errand⟩) rfl

def granting (place : Nat) : Incident :=
  .meanwhile (.grant place) rfl

def proceeding : Incident :=
  .meanwhile .proceed rfl

end Incident

namespace Scene

def spawned (stage : Stage) : Scene :=
  ⟨.opened stage, 0, 0, .spawned, .held, 0, []⟩

def interval (scene : Scene) : Nat :=
  scene.turns.stage.harvester.interval

/-- How many polls of the loop have been answered. -/
def polled (scene : Scene) : Nat :=
  scene.turns.answered.countP fun answered => answered.caller = .poller

/-- A changed interval is noticed by those who poll. -/
def update (scene : Scene) (turns : Turns) : Scene :=
  { scene with
    turns := turns
    changes :=
      if turns.stage.harvester.interval = scene.interval then scene.changes else scene.changes + 1 }

def wake (scene : Scene) : Scene :=
  match scene.poller.stage with
  | .fresh => { scene with poller := scene.poller.begin scene.now scene.interval scene.changes }
  | _ => scene

def choose (scene : Scene) (branch : Branch) : Scene :=
  let poller := scene.poller.choose scene.now scene.interval scene.changes branch
  match branch with
  | .tick =>
    { scene with
      poller := poller
      turns := (scene.turns.ask ⟨.poller, .poll⟩).2
      started := scene.started + 1 }
  | .follow =>
    { scene with poller := poller, followed := scene.followed ++ [(scene.now, scene.interval)] }
  | .leave => { scene with poller := poller }

def take (scene : Scene) (branch : Branch) : Scene :=
  if scene.poller.isReady scene.now scene.changes (scene.handle = .dropped) branch then
    scene.choose branch
  else scene

/-- The loop goes on when its poll is answered. -/
def resume (scene : Scene) : Scene :=
  if scene.polled = scene.started then { scene with poller := scene.poller.pollDone } else scene

def shutdown (scene : Scene) : Scene :=
  if scene.handle = .held then
    { scene with handle := .closing, poller := scene.poller.requestStop }
  else scene

def finish (scene : Scene) : Scene :=
  if scene.handle = .closing ∧ scene.poller.stage = .ended then { scene with handle := .closed }
  else scene

def drop (scene : Scene) : Scene :=
  if scene.handle = .held then { scene with handle := .dropped } else scene

section Run

variable (answers : Answers)

def happen (scene : Scene) : Incident → Scene
  | .meanwhile event _ => scene.update (scene.turns.happen answers event)
  | .elapse time => { scene with now := scene.now + time }
  | .wake => scene.wake
  | .take branch => scene.take branch
  | .resume => scene.resume
  | .shutdown => scene.shutdown
  | .finish => scene.finish
  | .drop => scene.drop

def happenAll (scene : Scene) (incidents : List Incident) : Scene :=
  incidents.foldl (happen answers) scene

variable {answers}

theorem happenAll_invariant {P : Scene → Prop}
    (hstep : ∀ scene incident, P scene → P (scene.happen answers incident)) {scene : Scene}
    (h : P scene) (incidents : List Incident) : P (scene.happenAll answers incidents) := by
  induction incidents generalizing scene with
  | nil => exact h
  | cons incident incidents ih => exact ih (hstep scene incident h)

end Run

end Scene

/-- How the polls of a loop are among all calls, and how the loop stands to its handle. -/
structure Looping (answers : Answers) (first : Stage) (scene : Scene) : Prop where
  serial : Serial answers first scene.turns
  polls : ∀ request ∈ scene.turns.requests, request.caller = .poller → request.errand = .poll
  counted : (scene.turns.requests.countP fun request => request.caller = .poller) = scene.started
  idle : scene.poller.isPolling = false → scene.polled = scene.started
  busy : scene.started ≤ scene.polled + 1
  stopping : scene.poller.stopping = true ↔ scene.handle = .closing ∨ scene.handle = .closed
  closed : scene.handle = .closed → scene.poller.stage = .ended

section Steps

variable {answers : Answers} {first : Stage} {scene : Scene}

theorem looping_spawned (first : Stage) : Looping answers first (.spawned first) := by
  refine ⟨serial_opened first, ?_, rfl, fun _ => rfl, Nat.zero_le _, ?_, ?_⟩
  · rintro _ ⟨⟩
  · simp [Scene.spawned, spawned]
  · rintro ⟨⟩

theorem countP_requests (turns : Turns) :
    (turns.requests.countP fun request => request.caller = .poller) =
      (turns.pending.countP fun request => request.caller = .poller) +
        turns.answered.countP fun answered => answered.caller = .poller := by
  rw [Turns.requests, List.countP_append, List.countP_map]
  rfl

theorem Looping.pending (h : Looping answers first scene) :
    (scene.turns.pending.countP fun request => request.caller = .poller) + scene.polled =
      scene.started := by
  rw [← h.counted, countP_requests]
  rfl

theorem looping_meanwhile (h : Looping answers first scene) (event : Event)
    (hothers : event.isFromPoller = false) :
    Looping answers first (scene.update (scene.turns.happen answers event)) := by
  obtain ⟨asked, hrequests, hasked⟩ := @requests_happen answers scene.turns event
  have hnone : ∀ request ∈ asked, request.caller ≠ .poller := by
    intro request hmem hcaller
    rw [hasked request hmem, Event.isFromPoller, hcaller] at hothers
    cases hothers
  have hcounted : ((scene.turns.happen answers event).requests.countP
      fun request => request.caller = .poller) = scene.started := by
    have hasked : (asked.countP fun request => request.caller = .poller) = 0 := by
      simpa [List.countP_eq_zero] using hnone
    rw [hrequests.countP_eq, List.countP_append, hasked, ← h.counted]
    rfl
  have hmore : scene.polled ≤ (scene.turns.happen answers event).answered.countP
      fun answered => answered.caller = .poller :=
    (answered_prefix_happen scene.turns event).sublist.countP_le
  have hfew : ((scene.turns.happen answers event).answered.countP
      fun answered => answered.caller = .poller) ≤ scene.started := by
    rw [← hcounted, countP_requests]
    exact Nat.le_add_left _ _
  refine ⟨serial_happen h.serial event, ?_, hcounted, ?_, ?_, h.stopping, h.closed⟩
  · intro request hrequest hcaller
    rcases List.mem_append.mp (hrequests.mem_iff.mp hrequest) with hold | hnew
    · exact h.polls request hold hcaller
    · exact absurd hcaller (hnone request hnew)
  · intro hidle
    have hall := h.idle hidle
    exact Nat.le_antisymm hfew (hall ▸ hmore)
  · exact h.busy.trans (Nat.succ_le_succ hmore)

theorem ne_closed_of_waiting (h : Looping answers first scene) {ticker : Ticker}
    (hwaiting : scene.poller.stage = .waiting ticker) : scene.handle ≠ .closed := by
  intro hclosed
  have hended := h.closed hclosed
  rw [hwaiting] at hended
  cases hended

theorem looping_of_poller (h : Looping answers first scene) (poller : Poller)
    (hstopping : poller.stopping = scene.poller.stopping) (hopen : scene.handle ≠ .closed)
    (hpolled : scene.polled = scene.started) :
    Looping answers first { scene with poller := poller } := by
  refine ⟨h.serial, h.polls, h.counted, fun _ => hpolled, h.busy, ?_, ?_⟩
  · rw [hstopping]
    exact h.stopping
  · intro hclosed
    exact absurd hclosed hopen

theorem looping_wake (h : Looping answers first scene) : Looping answers first scene.wake := by
  unfold Scene.wake
  split
  · rename_i hfresh
    refine looping_of_poller h _ stopping_begin ?_ (h.idle ?_)
    · intro hclosed
      have hended := h.closed hclosed
      rw [hfresh] at hended
      cases hended
    · simp [isPolling, hfresh]
  · exact h

theorem looping_tick (h : Looping answers first scene) {ticker : Ticker}
    (hwaiting : scene.poller.stage = .waiting ticker) :
    Looping answers first (scene.choose .tick) := by
  have hrequests := @requests_ask scene.turns ⟨.poller, .poll⟩ rfl
  have hall : scene.polled = scene.started := h.idle (by simp [isPolling, hwaiting])
  refine ⟨serial_ask h.serial _, ?_, ?_, ?_, ?_, ?_, ?_⟩
  · intro request hrequest hcaller
    rcases List.mem_append.mp (hrequests.mem_iff.mp hrequest) with hold | hnew
    · exact h.polls request hold hcaller
    · rw [List.mem_singleton.mp hnew]
  · change _ = scene.started + 1
    rw [← h.counted]
    exact (hrequests.countP_eq _).trans (by simp [List.countP_append])
  · intro hidle
    simp [Scene.choose, Poller.choose, hwaiting, isPolling] at hidle
  · exact Nat.succ_le_succ hall.ge
  · simp only [Scene.choose, stopping_choose]
    exact h.stopping
  · intro (hclosed : scene.handle = .closed)
    exact absurd hclosed (ne_closed_of_waiting h hwaiting)

theorem looping_take (h : Looping answers first scene) (branch : Branch) :
    Looping answers first (scene.take branch) := by
  unfold Scene.take
  split
  · rename_i hready
    obtain ⟨ticker, hwaiting⟩ := waiting_of_isReady hready
    have hall : scene.polled = scene.started := h.idle (by simp [isPolling, hwaiting])
    have hopen := ne_closed_of_waiting h hwaiting
    have hnext := looping_of_poller h
      (scene.poller.choose scene.now scene.interval scene.changes branch) (stopping_choose branch)
      hopen hall
    cases branch with
    | tick => exact looping_tick h hwaiting
    | follow =>
      exact ⟨hnext.serial, hnext.polls, hnext.counted, hnext.idle, hnext.busy, hnext.stopping,
        hnext.closed⟩
    | leave => exact hnext
  · exact h

theorem looping_resume (h : Looping answers first scene) : Looping answers first scene.resume := by
  unfold Scene.resume
  split
  · rename_i hall
    refine ⟨h.serial, h.polls, h.counted, fun _ => hall, h.busy, ?_, ?_⟩
    · rw [stopping_pollDone]
      exact h.stopping
    · intro hclosed
      simp [pollDone, h.closed hclosed]
  · exact h

theorem looping_happen (h : Looping answers first scene) (incident : Incident) :
    Looping answers first (scene.happen answers incident) := by
  cases incident with
  | meanwhile event hothers => exact looping_meanwhile h event hothers
  | elapse time =>
    exact ⟨h.serial, h.polls, h.counted, h.idle, h.busy, h.stopping, h.closed⟩
  | wake => exact looping_wake h
  | take branch => exact looping_take h branch
  | resume => exact looping_resume h
  | shutdown =>
    simp only [Scene.happen, Scene.shutdown]
    split
    · refine ⟨h.serial, h.polls, h.counted, h.idle, h.busy, ?_, ?_⟩
      · simp [requestStop]
      · rintro ⟨⟩
    · exact h
  | finish =>
    simp only [Scene.happen, Scene.finish]
    split
    · rename_i hended
      refine ⟨h.serial, h.polls, h.counted, h.idle, h.busy, ?_, fun _ => hended.2⟩
      simpa [hended.1] using h.stopping
    · exact h
  | drop =>
    simp only [Scene.happen, Scene.drop]
    split
    · rename_i hheld
      refine ⟨h.serial, h.polls, h.counted, h.idle, h.busy, ?_, ?_⟩
      · simpa [hheld] using h.stopping
      · rintro ⟨⟩
    · exact h

theorem looping_happenAll (h : Looping answers first scene) (incidents : List Incident) :
    Looping answers first (scene.happenAll answers incidents) := by
  apply Scene.happenAll_invariant (P := Looping answers first)
  · intro after incident h
    exact looping_happen h incident
  · exact h

end Steps

end Surroundings

end CatalogSync
