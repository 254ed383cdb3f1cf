import CatalogSync.Proofs.Harvest.Progress
import CatalogSync.Proofs.Harvest.Settings

/-!
Calls from all sides. Whoever starts, stops, reconfigures or polls a harvester waits for a turn and
then goes on step by step; listeners come and go at any moment. However all this is interleaved, the
calls take effect one after the other, and each is answered as if it had been alone.
-/

namespace CatalogSync.Surroundings

open Harvester

inductive Caller where
  | poller
  | owner (number : Nat)
  deriving DecidableEq

/-- What takes a turn. -/
inductive Errand where
  | start
  | stop
  | reconfigure (config : HarvesterConfig)
  | poll

namespace Errand

def command : Errand → Command
  | .start => .start
  | .stop => .stop
  | .reconfigure config => .reconfigure config
  | .poll => .poll

def opening : Errand → Progress
  | .start => .starting
  | .stop => .stopping
  | .reconfigure config => .admitting config
  | .poll => .beginning

/-- What is checked before anyone gets in line. -/
def check (h : Harvester) : Errand → Except HarvestError Unit
  | .reconfigure config => h.checkConfig config
  | _ => .ok ()

end Errand

structure Request where
  caller : Caller
  errand : Errand

structure Turn extends Request where
  /-- How many calls the surroundings had got when the turn began. -/
  since : Nat
  progress : Progress

structure Answered extends Request where
  since : Nat
  reply : Reply
  /-- How things stood when the answer was given. -/
  after : Stage

structure Turns where
  stage : Stage
  turn? : Option Turn
  waiting : List Request
  answered : List Answered

inductive Event where
  | register (listener : ListenerId) (name : String)
  | unregister (listener : ListenerId)
  | ask (request : Request)
  /-- Anyone who waits may be next. -/
  | grant (place : Nat)
  | proceed

namespace Turns

def opened (stage : Stage) : Turns := ⟨stage, none, [], []⟩

def register (turns : Turns) (listener : ListenerId) (name : String) :
    Except HarvestError Unit × Turns :=
  match turns.stage.harvester.register listener name with
  | .ok h => (.ok (), { turns with stage := turns.stage.alter fun _ => h })
  | .error e => (.error e, turns)

def unregister (turns : Turns) (listener : ListenerId) : Turns :=
  { turns with stage := turns.stage.alter fun h => h.unregister listener }

def ask (turns : Turns) (request : Request) : Except HarvestError Unit × Turns :=
  match request.errand.check turns.stage.harvester with
  | .ok () => (.ok (), { turns with waiting := turns.waiting ++ [request] })
  | .error e => (.error e, turns)

def grant (turns : Turns) (place : Nat) : Turns :=
  match turns.turn?, turns.waiting[place]? with
  | none, some request =>
    { turns with
      turn? := some ⟨request, turns.stage.world.calls.length, request.errand.opening⟩
      waiting := turns.waiting.eraseIdx place }
  | _, _ => turns

/-- Those that have the turn or wait for it. -/
def pending (turns : Turns) : List Request :=
  turns.turn?.toList.map Turn.toRequest ++ turns.waiting

def requests (turns : Turns) : List Request :=
  turns.pending ++ turns.answered.map Answered.toRequest

def answer (turns : Turns) (turn : Turn) (reply : Reply) (after : Stage) : Turns :=
  { turns with
    stage := after
    turn? := none
    answered := turns.answered ++ [⟨turn.toRequest, turn.since, reply, after⟩] }

section Run

variable (answers : Answers)

def proceed (turns : Turns) : Turns :=
  match turns.turn? with
  | none => turns
  | some turn =>
    match advance answers turns.stage turn.progress with
    | (.step next, after) =>
      { turns with stage := after, turn? := some { turn with progress := next } }
    | (.reply reply, after) => turns.answer turn reply after

def happen (turns : Turns) : Event → Turns
  | .register listener name => (turns.register listener name).2
  | .unregister listener => turns.unregister listener
  | .ask request => (turns.ask request).2
  | .grant place => turns.grant place
  | .proceed => turns.proceed answers

def happenAll (turns : Turns) (events : List Event) : Turns :=
  events.foldl (happen answers) turns

/-- What becomes of the harvester if nobody else comes: a call that is committed goes on to its
end. -/
def prospect (turns : Turns) : Stage :=
  match turns.turn? with
  | none => turns.stage
  | some turn =>
    if turn.progress.isCommitted then (complete answers turns.stage turn.progress).2
    else turns.stage

end Run

end Turns

section Serial

variable (answers : Answers) (first : Stage)

/-- An answer is what the harvester says if it is left alone, after some commands. Meanwhile others
may have come to listen. -/
def AnsweredAlone (errand : Errand) (since : Nat) (answer : Reply × Stage) : Prop :=
  ∃ commands members,
    since ≤ (obeyAll answers first commands).world.calls.length ∧
      answer.1 = (obey answers (obeyAll answers first commands) errand.command).1 ∧
      answer.2 =
        (obey answers (obeyAll answers first commands) errand.command).2.withMembers members

structure OnCourse (stage : Stage) (turn : Turn) : Prop where
  early : turn.progress.isCommitted = false → turn.since ≤ stage.world.calls.length ∧
    ∀ members, complete answers (stage.withMembers members) turn.progress =
      obey answers (stage.withMembers members) turn.errand.command
  late : turn.progress.isCommitted →
    AnsweredAlone answers first turn.errand turn.since (complete answers stage turn.progress)

structure Serial (turns : Turns) : Prop where
  prospect : ∃ commands, turns.prospect answers = obeyAll answers first commands
  turn : ∀ turn ∈ turns.turn?, OnCourse answers first turns.stage turn
  waiting : ∀ request ∈ turns.waiting, request.errand.check first.harvester = .ok ()
  answered : ∀ answered ∈ turns.answered,
    AnsweredAlone answers first answered.errand answered.since (answered.reply, answered.after)

end Serial

variable {answers : Answers} {first : Stage} {turns : Turns}

theorem obeyAll_concat (stage : Stage) (commands : List Command) (command : Command) :
    obeyAll answers stage (commands ++ [command]) =
      (obey answers (obeyAll answers stage commands) command).2 := by
  simp only [obeyAll, List.foldl_append, List.foldl_cons, List.foldl_nil]

section Listeners

theorem obey_register (stage : Stage) (listener : ListenerId) (name : String) :
    (obey answers stage (.register listener name)).2 = stage.withMembers
      (Registry.join stage.harvester.policy stage.harvester.members listener) := by
  rw [obey]
  rcases Registry.register_eq_join stage.harvester listener name with hok | ⟨⟨e, herror⟩, hsame⟩
  · rw [hok]
    rfl
  · rw [herror, hsame]
    rfl

theorem Turns.snd_register (turns : Turns) (listener : ListenerId) (name : String) :
    (turns.register listener name).2 = { turns with
      stage := turns.stage.withMembers
        (Registry.join turns.stage.harvester.policy turns.stage.harvester.members listener) } := by
  rw [Turns.register]
  rcases Registry.register_eq_join turns.stage.harvester listener name with
    hok | ⟨⟨e, herror⟩, hsame⟩
  · rw [hok]
    rfl
  · rw [herror, hsame]
    rfl

theorem Turns.listeners_prospect (turns : Turns) :
    (turns.prospect answers).harvester.id = turns.stage.harvester.id ∧
      (turns.prospect answers).harvester.policy = turns.stage.harvester.policy ∧
      (turns.prospect answers).harvester.members = turns.stage.harvester.members := by
  unfold Turns.prospect
  split
  · exact ⟨rfl, rfl, rfl⟩
  · split
    · rename_i hcommitted
      exact listeners_complete hcommitted turns.stage
    · exact ⟨rfl, rfl, rfl⟩

theorem Turns.prospect_withMembers (turns : Turns) (members : List ListenerId) :
    ({ turns with stage := turns.stage.withMembers members } : Turns).prospect answers =
      (turns.prospect answers).withMembers members := by
  unfold Turns.prospect
  dsimp only
  split
  · rfl
  · split
    · rename_i hcommitted
      rw [complete_withMembers hcommitted]
    · rfl

theorem OnCourse.withMembers {stage : Stage} {turn : Turn} (h : OnCourse answers first stage turn)
    (members : List ListenerId) : OnCourse answers first (stage.withMembers members) turn := by
  constructor
  case early =>
    intro hearly
    obtain ⟨hsince, hcourse⟩ := h.early hearly
    exact ⟨hsince, fun others => hcourse others⟩
  case late =>
    intro hlate
    obtain ⟨commands, others, hsince, hreply, hafter⟩ := h.late hlate
    rw [complete_withMembers hlate]
    refine ⟨commands, members, hsince, hreply, ?_⟩
    rw [hafter]
    rfl

theorem serial_withMembers (h : Serial answers first turns) {members : List ListenerId}
    (command : Command)
    (hobey : ∀ stage : Stage, stage.harvester.policy = turns.stage.harvester.policy →
      stage.harvester.members = turns.stage.harvester.members →
      (obey answers stage command).2 = stage.withMembers members) :
    Serial answers first { turns with stage := turns.stage.withMembers members } := by
  constructor
  case prospect =>
    obtain ⟨commands, hserial⟩ := h.prospect
    obtain ⟨-, hpolicy, hmembers⟩ := @Turns.listeners_prospect answers turns
    refine ⟨commands ++ [command], ?_⟩
    rw [Turns.prospect_withMembers, obeyAll_concat, ← hserial, hobey _ hpolicy hmembers]
  case turn =>
    intro turn hturn
    exact (h.turn turn hturn).withMembers members
  case waiting => exact h.waiting
  case answered => exact h.answered

end Listeners

section Events

theorem Serial.id_stage (h : Serial answers first turns) :
    turns.stage.harvester.id = first.harvester.id := by
  obtain ⟨commands, hserial⟩ := h.prospect
  obtain ⟨hid, -, -⟩ := @Turns.listeners_prospect answers turns
  rw [← hid, hserial]
  exact id_obeyAll first commands

theorem check_congr {h other : Harvester} (hid : h.id = other.id) (errand : Errand) :
    errand.check h = errand.check other := by
  cases errand with
  | reconfigure config => simp only [Errand.check, checkConfig, hid]
  | start | stop | poll => rfl

theorem complete_opening {stage : Stage} {errand : Errand}
    (hcheck : errand.check stage.harvester = .ok ()) :
    complete answers stage errand.opening = obey answers stage errand.command := by
  cases errand with
  | start | stop | poll => rfl
  | reconfigure config =>
    simp only [Errand.check] at hcheck
    simp only [Errand.opening, Errand.command, complete, obey, reconfigureOnce, reconfigure, hcheck]
    rfl

theorem isCommitted_opening (errand : Errand) : errand.opening.isCommitted = false := by
  cases errand <;> rfl

theorem serial_ask (h : Serial answers first turns) (request : Request) :
    Serial answers first (turns.ask request).2 := by
  rw [Turns.ask]
  cases hcheck : request.errand.check turns.stage.harvester with
  | error e => exact h
  | ok _ =>
    refine ⟨h.prospect, h.turn, ?_, h.answered⟩
    intro other hother
    rcases List.mem_append.mp hother with hother | hother
    · exact h.waiting other hother
    · rw [List.mem_singleton.mp hother, ← check_congr h.id_stage]
      exact hcheck

theorem serial_grant (h : Serial answers first turns) (place : Nat) :
    Serial answers first (turns.grant place) := by
  rw [Turns.grant]
  split
  case h_2 => exact h
  case h_1 request hfree hrequest =>
    have hcheck : request.errand.check first.harvester = .ok () :=
      h.waiting request (List.mem_of_getElem? hrequest)
    have hopening := isCommitted_opening request.errand
    constructor
    case prospect =>
      obtain ⟨commands, hserial⟩ := h.prospect
      refine ⟨commands, ?_⟩
      rw [← hserial]
      simp [Turns.prospect, hfree, hopening]
    case turn =>
      rintro turn ⟨⟩
      constructor
      case early =>
        intro _
        refine ⟨Nat.le_refl _, ?_⟩
        intro members
        refine complete_opening ?_
        rw [← hcheck]
        exact check_congr h.id_stage _
      case late =>
        intro hlate
        rw [hopening] at hlate
        cases hlate
    case waiting =>
      intro other hother
      exact h.waiting other (List.mem_of_mem_eraseIdx hother)
    case answered => exact h.answered

theorem complete_gathering {stage : Stage} (hrunning : stage.harvester.status = .polling) :
    complete answers stage .gathering = obey answers stage .poll := by
  have hstep : complete answers stage .beginning = _ := complete_eq_carryOn stage .beginning
  rw [advance, if_pos hrunning] at hstep
  exact hstep.symm

theorem Serial.alone (h : Serial answers first turns) {turn : Turn}
    (hturn : turns.turn? = some turn) :
    AnsweredAlone answers first turn.errand turn.since
        (complete answers turns.stage turn.progress) ∧
      ∃ commands,
        (complete answers turns.stage turn.progress).2 = obeyAll answers first commands := by
  have hcourse : OnCourse answers first turns.stage turn := h.turn turn hturn
  obtain ⟨commands, hserial⟩ := h.prospect
  simp only [Turns.prospect, hturn] at hserial
  cases hcommitted : turn.progress.isCommitted with
  | true =>
    rw [if_pos hcommitted] at hserial
    exact ⟨hcourse.late hcommitted, commands, hserial⟩
  | false =>
    rw [if_neg (by simp [hcommitted])] at hserial
    obtain ⟨hsince, hcourse⟩ := hcourse.early hcommitted
    have hown : complete answers turns.stage turn.progress =
      obey answers turns.stage turn.errand.command := hcourse turns.stage.harvester.members
    rw [hserial] at hsince
    rw [hown, hserial]
    refine ⟨⟨commands, _, hsince, rfl, rfl⟩, commands ++ [turn.errand.command], ?_⟩
    exact (obeyAll_concat first commands _).symm

theorem serial_answer (h : Serial answers first turns) {turn : Turn} {reply : Reply} {after : Stage}
    (halone : AnsweredAlone answers first turn.errand turn.since (reply, after))
    (hserial : ∃ commands, after = obeyAll answers first commands) :
    Serial answers first (turns.answer turn reply after) := by
  refine ⟨hserial, ?_, h.waiting, ?_⟩
  · rintro _ ⟨⟩
  · intro answered hanswered
    rcases List.mem_append.mp hanswered with hanswered | hanswered
    · exact h.answered answered hanswered
    · rw [List.mem_singleton.mp hanswered]
      exact halone

theorem serial_step (h : Serial answers first turns) {turn : Turn} (hturn : turns.turn? = some turn)
    {next : Progress} {after : Stage}
    (hadvance : advance answers turns.stage turn.progress = (.step next, after)) :
    Serial answers first
      { turns with stage := after, turn? := some { turn with progress := next } } := by
  have hprecedes : turn.progress.Precedes next := precedes_advance (congrArg Prod.fst hadvance)
  obtain ⟨halone, commands, hserial⟩ := h.alone hturn
  rw [complete_eq_carryOn, hadvance] at halone hserial
  cases hcommitted : next.isCommitted with
  | true =>
    refine ⟨⟨commands, ?_⟩, ?_, h.waiting, h.answered⟩
    · rw [← hserial]
      simp only [Turns.prospect, hcommitted, if_true]
      rfl
    · rintro _ ⟨⟩
      refine ⟨?_, fun _ => halone⟩
      intro hearly
      rw [hcommitted] at hearly
      cases hearly
  | false =>
    -- Only a poll is not committed after its first step; it has found the harvester running.
    obtain ⟨request, since, progress⟩ := turn
    cases hprecedes with
    | beginning =>
      obtain ⟨hsince, hcourse⟩ := (h.turn _ hturn).early rfl
      obtain ⟨before, hbefore⟩ := h.prospect
      simp only [Turns.prospect, hturn, Progress.isCommitted, Bool.false_eq_true,
        if_false] at hbefore
      simp only [advance] at hadvance
      split at hadvance
      · rename_i hrunning
        cases hadvance
        refine ⟨⟨before, ?_⟩, ?_, h.waiting, h.answered⟩
        · rw [← hbefore]
          simp only [Turns.prospect, Progress.isCommitted, Bool.false_eq_true, if_false]
        · rintro _ ⟨⟩
          constructor
          case early =>
            intro _
            refine ⟨hsince, ?_⟩
            intro members
            rw [← hcourse members]
            exact complete_gathering hrunning
          case late =>
            intro hlate
            cases hlate
      · cases hadvance
    | _ => cases hcommitted

theorem serial_proceed (h : Serial answers first turns) :
    Serial answers first (turns.proceed answers) := by
  rw [Turns.proceed]
  split
  · exact h
  · rename_i turn hturn
    rcases hadvance : advance answers turns.stage turn.progress with ⟨next | reply, after⟩
    · exact serial_step h hturn hadvance
    · obtain ⟨halone, hserial⟩ := h.alone hturn
      rw [complete_eq_carryOn, hadvance] at halone hserial
      exact serial_answer h halone hserial

theorem serial_happen (h : Serial answers first turns) (event : Event) :
    Serial answers first (turns.happen answers event) := by
  cases event with
  | register listener name =>
    rw [Turns.happen, Turns.snd_register]
    refine serial_withMembers h (.register listener name) ?_
    intro stage hpolicy hmembers
    rw [obey_register, hpolicy, hmembers]
  | unregister listener =>
    refine serial_withMembers h (.unregister listener) ?_
    intro stage _ hmembers
    rw [← hmembers]
    rfl
  | ask request => exact serial_ask h request
  | grant place => exact serial_grant h place
  | proceed => exact serial_proceed h

theorem serial_opened (first : Stage) : Serial answers first (.opened first) := by
  refine ⟨⟨[], ?_⟩, ?_, ?_, ?_⟩
  · simp only [Turns.prospect, Turns.opened, obeyAll, List.foldl_nil]
  · rintro _ ⟨⟩
  · rintro _ ⟨⟩
  · rintro _ ⟨⟩

/-- Whatever happens, the calls take effect one after the other, and each is answered as if it had
been alone. -/
theorem serial_happenAll (h : Serial answers first turns) (events : List Event) :
    Serial answers first (turns.happenAll answers events) := by
  induction events generalizing turns with
  | nil => exact h
  | cons event events ih => exact ih (serial_happen h event)

end Events

section Requests

theorem requests_ask {request : Request}
    (hcheck : request.errand.check turns.stage.harvester = .ok ()) :
    (turns.ask request).2.requests.Perm (turns.requests ++ [request]) := by
  simp only [Turns.ask, hcheck, Turns.requests, Turns.pending, List.append_assoc]
  exact (List.perm_append_comm.append_left _).append_left _

theorem requests_grant (turns : Turns) (place : Nat) :
    (turns.grant place).requests.Perm turns.requests := by
  rw [Turns.grant]
  split
  · rename_i request hfree hrequest
    obtain ⟨hplace, rfl⟩ := List.getElem?_eq_some_iff.mp hrequest
    simp only [Turns.requests, Turns.pending, hfree, Option.toList_none, Option.toList_some,
      List.map_nil, List.map_cons, List.nil_append, List.cons_append]
    exact (List.getElem_cons_eraseIdx_perm hplace).append_right _
  · exact List.Perm.refl _

theorem requests_proceed (turns : Turns) :
    (turns.proceed answers).requests.Perm turns.requests := by
  rw [Turns.proceed]
  split
  · exact List.Perm.refl _
  · rename_i turn hturn
    split
    · simp [Turns.requests, Turns.pending, hturn]
    · simp only [Turns.answer, Turns.requests, Turns.pending, hturn, Option.toList_none,
        Option.toList_some, List.map_nil, List.map_cons, List.nil_append, List.cons_append,
        List.map_append]
      rw [← List.append_assoc]
      exact List.perm_append_singleton _ _

/-- No request is lost, and none is answered twice. -/
theorem requests_happen (turns : Turns) (event : Event) :
    ∃ asked, (turns.happen answers event).requests.Perm (turns.requests ++ asked) ∧
      ∀ request ∈ asked, event = .ask request := by
  cases event with
  | ask request =>
    cases hcheck : request.errand.check turns.stage.harvester with
    | error e =>
      refine ⟨[], ?_, List.forall_mem_nil _⟩
      rw [List.append_nil, Turns.happen, Turns.ask, hcheck]
    | ok _ =>
      refine ⟨[request], requests_ask hcheck, ?_⟩
      intro other hother
      rw [List.mem_singleton.mp hother]
  | register listener name =>
    refine ⟨[], ?_, List.forall_mem_nil _⟩
    rw [List.append_nil, Turns.happen, Turns.snd_register]
    exact List.Perm.refl _
  | unregister listener =>
    refine ⟨[], ?_, List.forall_mem_nil _⟩
    rw [List.append_nil]
    exact List.Perm.refl _
  | grant place =>
    refine ⟨[], ?_, List.forall_mem_nil _⟩
    rw [List.append_nil]
    exact requests_grant turns place
  | proceed =>
    refine ⟨[], ?_, List.forall_mem_nil _⟩
    rw [List.append_nil]
    exact requests_proceed turns

theorem answered_prefix_happen (turns : Turns) (event : Event) :
    turns.answered <+: (turns.happen answers event).answered := by
  cases event with
  | register listener name =>
    rw [Turns.happen, Turns.snd_register]
  | unregister listener => exact List.prefix_rfl
  | ask request =>
    rw [Turns.happen, Turns.ask]
    split <;> exact List.prefix_rfl
  | grant place =>
    rw [Turns.happen, Turns.grant]
    split <;> exact List.prefix_rfl
  | proceed =>
    rw [Turns.happen, Turns.proceed]
    split
    · exact List.prefix_rfl
    · split
      · exact List.prefix_rfl
      · exact List.prefix_append _ _

/-- Whoever has the turn is answered in the end, if nobody cuts in. -/
theorem exists_answer {turn : Turn} (hturn : turns.turn? = some turn) :
    ∃ steps reply after,
      turns.happenAll answers (List.replicate steps .proceed) = turns.answer turn reply after := by
  obtain ⟨request, since, progress⟩ := turn
  induction progress using wellFounded_precedes.induction generalizing turns with
  | _ progress ih =>
    rcases hadvance : advance answers turns.stage progress with ⟨next | reply, after⟩
    · have hprecedes : progress.Precedes next := precedes_advance (congrArg Prod.fst hadvance)
      have hstep : turns.happen answers .proceed =
          { turns with stage := after, turn? := some ⟨request, since, next⟩ } := by
        simp only [Turns.happen, Turns.proceed, hturn, hadvance]
      obtain ⟨steps, reply, last, hsteps⟩ := @ih next hprecedes
        { turns with stage := after, turn? := some ⟨request, since, next⟩ } rfl
      refine ⟨steps + 1, reply, last, ?_⟩
      rw [List.replicate_succ, Turns.happenAll, List.foldl_cons, hstep]
      exact hsteps
    · refine ⟨1, reply, after, ?_⟩
      simp only [Turns.happenAll, List.replicate_one, List.foldl_cons, List.foldl_nil, Turns.happen,
        Turns.proceed, hturn, hadvance]

end Requests

end CatalogSync.Surroundings
