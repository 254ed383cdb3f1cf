import CatalogSync.Proofs.Harvest.Steps
import Mathlib.Algebra.BigOperators.Intervals

/-!
The delivery of changes, call by call. Listeners are told of one change after the other, and of each
change one after the other, until one of them cannot keep its own state. Every call has its place:
that of the change among the changes, and that of the listener among the listeners.
-/

namespace CatalogSync.Surroundings

open Harvester

section Telling

def World.tellAll (world : World) (notices : List Notice) : World :=
  { world with calls := world.calls ++ notices.map .notify }

variable (answers : Answers)

/-- What the last of some notices is answered, if all of them are given after some calls. -/
def answerTo (calls : List Call) (told : List Notice) : Outcome ListenerError Unit :=
  answers.notify (calls ++ told.map .notify)

/-- Nobody who gets one of the notices puts an end to them. -/
def Steady (calls : List Call) (notices : List Notice) : Prop :=
  ∀ told, told ≠ [] → told <+: notices → ∀ e, answerTo answers calls told ≠ .error (.persistence e)

/-- A call that failed or broke down, and put an end to nothing. -/
def isFault : Outcome ListenerError Unit → Bool
  | .error (.failed _) => true
  | .panicked => true
  | .ok () => false
  | .error (.persistence _) => false

def faultCount : List Call → List Notice → Nat
  | _, [] => 0
  | calls, notice :: notices =>
    (if isFault (answerTo answers calls [notice]) then 1 else 0) +
      faultCount (calls ++ [.notify notice]) notices

end Telling

variable {answers : Answers} {calls : List Call} {notices : List Notice} {notice : Notice}

@[simp] theorem World.tellAll_nil (world : World) : world.tellAll [] = world := by
  simp [World.tellAll]

theorem World.tellAll_note (world : World) (notice : Notice) (notices : List Notice) :
    (world.note (.notify notice)).tellAll notices = world.tellAll (notice :: notices) := by
  simp [World.tellAll, World.note]

@[simp] theorem World.calls_tellAll (world : World) (notices : List Notice) :
    (world.tellAll notices).calls = world.calls ++ notices.map .notify := rfl

@[simp] theorem World.calls_note (world : World) (call : Call) :
    (world.note call).calls = world.calls ++ [call] := rfl

theorem answerTo_cons (told : List Notice) :
    answerTo answers calls (notice :: told) =
      answerTo answers (calls ++ [.notify notice]) told := by
  simp [answerTo]

theorem answerTo_append (told more : List Notice) :
    answerTo answers calls (told ++ more) =
      answerTo answers (calls ++ told.map .notify) more := by
  simp [answerTo]

theorem steady_nil : Steady answers calls [] := by
  intro told hne hbegins
  exact absurd (List.prefix_nil.mp hbegins) hne

theorem steady_cons_iff :
    Steady answers calls (notice :: notices) ↔
      (∀ e, answerTo answers calls [notice] ≠ .error (.persistence e)) ∧
        Steady answers (calls ++ [.notify notice]) notices := by
  constructor
  · intro h
    constructor
    · apply h
      · simp
      · simp
    · intro told _ hbegins e
      rw [← answerTo_cons]
      apply h
      · simp
      · simpa using hbegins
  · rintro ⟨hfirst, hrest⟩ told hne hbegins e
    cases told with
    | nil => exact absurd rfl hne
    | cons first told =>
      obtain ⟨rfl, htail⟩ := List.cons_prefix_cons.mp hbegins
      by_cases htold : told = []
      · rw [htold]
        exact hfirst e
      · rw [answerTo_cons]
        exact hrest told htold htail e

/-- Either nobody puts an end to the notices, or somebody is the first one to do so. -/
theorem steady_or_break (calls : List Call) (notices : List Notice) :
    Steady answers calls notices ∨
      ∃ before notice e, before ++ [notice] <+: notices ∧ Steady answers calls before ∧
        answerTo answers calls (before ++ [notice]) = .error (.persistence e) := by
  induction notices generalizing calls with
  | nil => exact Or.inl steady_nil
  | cons notice notices ih =>
    by_cases hbreak : ∃ e, answerTo answers calls [notice] = .error (.persistence e)
    · obtain ⟨e, hbreak⟩ := hbreak
      refine Or.inr ⟨[], notice, e, ?_, steady_nil, hbreak⟩
      simp
    · have hfirst : ∀ e, answerTo answers calls [notice] ≠ .error (.persistence e) := by
        intro e he
        exact hbreak ⟨e, he⟩
      rcases ih (calls ++ [.notify notice]) with hsteady |
        ⟨before, last, e, hbegins, hsteady, hlast⟩
      · exact Or.inl (steady_cons_iff.mpr ⟨hfirst, hsteady⟩)
      · refine Or.inr ⟨notice :: before, last, e, ?_, steady_cons_iff.mpr ⟨hfirst, hsteady⟩, ?_⟩
        · simpa using hbegins
        · rw [List.cons_append, answerTo_cons]
          exact hlast

theorem faultCount_append (calls : List Call) (notices more : List Notice) :
    faultCount answers calls (notices ++ more) =
      faultCount answers calls notices +
        faultCount answers (calls ++ notices.map .notify) more := by
  induction notices generalizing calls with
  | nil => simp [faultCount]
  | cons notice notices ih => simp [faultCount, ih, Nat.add_assoc]

theorem faultCount_eq_sum (calls : List Call) (notices : List Notice) :
    faultCount answers calls notices =
      ∑ k ∈ Finset.range notices.length,
        if isFault (answerTo answers calls (notices.take (k + 1))) then 1 else 0 := by
  induction notices generalizing calls with
  | nil => rfl
  | cons notice notices ih =>
    rw [faultCount, ih, List.length_cons, Finset.sum_range_succ', Nat.add_comm]
    simp [answerTo_cons]

section Counting

theorem failureCount_of_ne {outcome : Outcome ListenerError Unit}
    (h : ∀ e, outcome ≠ .error (.persistence e)) :
    failureCount outcome = .ok (if isFault outcome then 1 else 0) := by
  match outcome with
  | .ok () => rfl
  | .error (.failed _) => rfl
  | .panicked => rfl
  | .error (.persistence e) => exact absurd rfl (h e)

theorem countOf_tell (notice : Notice) (world : World) :
    countOf (tell answers notice) world =
      (failureCount (answerTo answers world.calls [notice]), world.note (.notify notice)) := rfl

theorem countAll_append (first rest : List (StateM World (Outcome ListenerError Unit))) :
    countAll (first ++ rest) = addCounts (countAll first) (countAll rest) := by
  induction first with
  | nil => exact (addCounts_zero _).symm
  | cons call first ih => rw [List.cons_append, countAll, ih, ← addCounts_assoc, countAll]

theorem countAll_of_steady {world : World} (h : Steady answers world.calls notices) :
    countAll (notices.map (tell answers)) world =
      (.ok (faultCount answers world.calls notices), world.tellAll notices) := by
  induction notices generalizing world with
  | nil =>
    rw [World.tellAll_nil]
    rfl
  | cons notice notices ih =>
    obtain ⟨hfirst, hrest⟩ := steady_cons_iff.mp h
    have hcount := @countOf_tell answers notice world
    rw [failureCount_of_ne hfirst] at hcount
    rw [List.map_cons, countAll, addCounts_of_ok hcount, ih hrest, World.tellAll_note]
    rfl

theorem countAll_of_break {world : World} {before rest : List Notice} {e : StoreError}
    (hsteady : Steady answers world.calls before)
    (hbreak : answerTo answers world.calls (before ++ [notice]) = .error (.persistence e)) :
    countAll ((before ++ notice :: rest).map (tell answers)) world =
      (.error e, world.tellAll (before ++ [notice])) := by
  have hcount : countOf (tell answers notice) (world.tellAll before) =
      (.error e, (world.tellAll before).note (.notify notice)) := by
    rw [countOf_tell, World.calls_tellAll, ← answerTo_append, hbreak]
    rfl
  rw [List.map_append, countAll_append, addCounts_of_ok (countAll_of_steady hsteady), List.map_cons,
    countAll, addCounts_of_error hcount]
  simp [World.tellAll, World.note]

theorem deliverAll_eq_countAll (root : String) (properties : Properties) (members : List ListenerId)
    (changes : List Change) :
    deliverAll (lister answers) root properties (members.map (listener answers)) changes =
      countAll ((changes.flatMap (noticesOf answers root members)).map (tell answers)) := by
  induction changes with
  | nil => rfl
  | cons change changes ih =>
    rw [deliverAll_cons, deliver_eq_countAll, ih, List.flatMap_cons, List.map_append,
      countAll_append]

end Counting

section Places

/-- The notices up to the one that tells the listener at place `j` of the change at place `i`. -/
def noticesUpTo (answers : Answers) (root : String) (members : List ListenerId)
    (changes : List Change) (i j : Nat) : List Notice :=
  (changes.take i).flatMap (noticesOf answers root members) ++
    (changes[i]?).toList.flatMap (noticesOf answers root (members.take (j + 1)))

variable {root : String} {members : List ListenerId} {changes : List Change}

theorem length_noticesOf (change : Change) :
    (noticesOf answers root members change).length = members.length :=
  List.length_map ..

theorem noticesOf_take (k : Nat) (change : Change) :
    noticesOf answers root (members.take k) change =
      (noticesOf answers root members change).take k :=
  List.map_take ..

theorem noticesUpTo_zero (change : Change) (changes : List Change) (j : Nat) :
    noticesUpTo answers root members (change :: changes) 0 j =
      (noticesOf answers root members change).take (j + 1) := by
  simp [noticesUpTo, noticesOf_take]

theorem noticesUpTo_succ (change : Change) (changes : List Change) (i j : Nat) :
    noticesUpTo answers root members (change :: changes) (i + 1) j =
      noticesOf answers root members change ++ noticesUpTo answers root members changes i j := by
  simp [noticesUpTo]

theorem noticesUpTo_prefix_due (i j : Nat) :
    noticesUpTo answers root members changes i j <+:
      changes.flatMap (noticesOf answers root members) := by
  induction changes generalizing i with
  | nil => simp [noticesUpTo]
  | cons change changes ih =>
    rw [List.flatMap_cons]
    cases i with
    | zero =>
      rw [noticesUpTo_zero]
      exact (List.take_prefix _ _).trans (List.prefix_append _ _)
    | succ i =>
      rw [noticesUpTo_succ, List.prefix_append_right_inj]
      exact ih i

theorem length_noticesUpTo {i j : Nat} (hi : i < changes.length) (hj : j < members.length) :
    (noticesUpTo answers root members changes i j).length = i * members.length + (j + 1) := by
  induction changes generalizing i with
  | nil => simp at hi
  | cons change changes ih =>
    cases i with
    | zero =>
      rw [noticesUpTo_zero, List.length_take, length_noticesOf]
      omega
    | succ i =>
      have hi : i < changes.length := by simpa using hi
      rw [noticesUpTo_succ, List.length_append, length_noticesOf, ih hi, Nat.succ_mul]
      omega

theorem exists_noticesUpTo {told : List Notice} (hne : told ≠ [])
    (hbegins : told <+: changes.flatMap (noticesOf answers root members)) :
    ∃ i j, i < changes.length ∧ j < members.length ∧
      told = noticesUpTo answers root members changes i j := by
  induction changes generalizing told with
  | nil => exact absurd (List.prefix_nil.mp hbegins) hne
  | cons change changes ih =>
    rw [List.flatMap_cons] at hbegins
    by_cases hlength : told.length ≤ (noticesOf answers root members change).length
    · have hrow : told <+: noticesOf answers root members change :=
        List.prefix_of_prefix_length_le hbegins (List.prefix_append _ _) hlength
      have hpos : 0 < told.length := List.length_pos_iff.mpr hne
      rw [length_noticesOf] at hlength
      refine ⟨0, told.length - 1, by simp, by omega, ?_⟩
      rw [noticesUpTo_zero, Nat.sub_add_cancel hpos]
      exact List.prefix_iff_eq_take.mp hrow
    · obtain ⟨rest, rfl⟩ : noticesOf answers root members change <+: told :=
        List.prefix_of_prefix_length_le (List.prefix_append _ _) hbegins (by omega)
      have hrest : rest ≠ [] := by
        rintro rfl
        simp at hlength
      obtain ⟨i, j, hi, hj, rfl⟩ := ih hrest ((List.prefix_append_right_inj _).mp hbegins)
      refine ⟨i + 1, j, by simpa using hi, hj, ?_⟩
      rw [noticesUpTo_succ]

theorem before_of_length_lt {i j i' j' : Nat} (hi : i < changes.length) (hj : j < members.length)
    (hi' : i' < changes.length) (hj' : j' < members.length)
    (h : (noticesUpTo answers root members changes i' j').length <
      (noticesUpTo answers root members changes i j).length) :
    i' < i ∨ i' = i ∧ j' < j := by
  rw [length_noticesUpTo hi' hj', length_noticesUpTo hi hj] at h
  rcases Nat.lt_trichotomy i' i with hlt | rfl | hgt
  · exact Or.inl hlt
  · exact Or.inr ⟨rfl, by omega⟩
  · have hmul : (i + 1) * members.length ≤ i' * members.length := Nat.mul_le_mul_right _ hgt
    rw [Nat.succ_mul] at hmul
    omega

theorem steady_iff_forall_place :
    Steady answers calls (changes.flatMap (noticesOf answers root members)) ↔
      ∀ i < changes.length, ∀ j < members.length, ∀ e,
        answerTo answers calls (noticesUpTo answers root members changes i j) ≠
          .error (.persistence e) := by
  constructor
  · intro h i hi j hj
    apply h
    · apply List.ne_nil_of_length_pos
      rw [length_noticesUpTo hi hj]
      omega
    · exact noticesUpTo_prefix_due i j
  · intro h told hne hbegins
    obtain ⟨i, j, hi, hj, rfl⟩ := exists_noticesUpTo hne hbegins
    exact h i hi j hj

theorem noticesUpTo_eq_concat {i j : Nat} (hi : i < changes.length) (hj : j < members.length) :
    noticesUpTo answers root members changes i j =
      ((changes.take i).flatMap (noticesOf answers root members) ++
        noticesOf answers root (members.take j) changes[i]) ++
        [⟨members[j], changes[i].kind, answers.locate root changes[i].path⟩] := by
  have hrow : noticesOf answers root (members.take (j + 1)) changes[i] =
      noticesOf answers root (members.take j) changes[i] ++
        [⟨members[j], changes[i].kind, answers.locate root changes[i].path⟩] := by
    rw [List.take_succ_eq_append_getElem hj, noticesOf, List.map_append]
    rfl
  rw [noticesUpTo, List.getElem?_eq_getElem hi, List.append_assoc, ← hrow]
  simp

theorem exists_before_place {i j : Nat} (hi : i < changes.length) (hj : j < members.length)
    (hfirst : ∀ i' j', j' < members.length → i' < i ∨ i' = i ∧ j' < j → ∀ e,
      answerTo answers calls (noticesUpTo answers root members changes i' j') ≠
        .error (.persistence e)) :
    ∃ before notice, noticesUpTo answers root members changes i j = before ++ [notice] ∧
      Steady answers calls before := by
  have hconcat := @noticesUpTo_eq_concat answers root members changes i j hi hj
  refine ⟨_, _, hconcat, ?_⟩
  intro told htold hbegins e
  have hlength := congrArg List.length hconcat
  rw [List.length_append, List.length_singleton] at hlength
  have hupTo : told <+: noticesUpTo answers root members changes i j := by
    rw [hconcat]
    exact hbegins.trans (List.prefix_append _ _)
  obtain ⟨i', j', hi', hj', rfl⟩ :=
    exists_noticesUpTo htold (hupTo.trans (noticesUpTo_prefix_due i j))
  have hlt : (noticesUpTo answers root members changes i' j').length <
      (noticesUpTo answers root members changes i j).length := by
    rw [hlength]
    exact Nat.lt_succ_of_le hbegins.length_le
  exact hfirst i' j' hj' (before_of_length_lt hi hj hi' hj' hlt) e

theorem faultCount_eq_card (calls : List Call) (changes : List Change) :
    faultCount answers calls (changes.flatMap (noticesOf answers root members)) =
      ((Finset.range changes.length ×ˢ Finset.range members.length).filter fun place =>
        isFault (answerTo answers calls
          (noticesUpTo answers root members changes place.1 place.2))).card := by
  rw [Finset.card_filter, Finset.sum_product]
  induction changes generalizing calls with
  | nil => rfl
  | cons change changes ih =>
    rw [List.flatMap_cons, faultCount_append, ih, faultCount_eq_sum, length_noticesOf,
      List.length_cons, Finset.sum_range_succ', Nat.add_comm]
    simp only [noticesUpTo_succ, noticesUpTo_zero, answerTo_append]

end Places

section Polls

/-- What there is to deliver if a poll finds the tree as listed. -/
def dueChanges (stage : Stage) (listing : List ListingEntry) : List Change :=
  (diff stage.harvester.snapshot listing).changes

def dueNotices (answers : Answers) (stage : Stage) (listing : List ListingEntry) : List Notice :=
  (dueChanges stage listing).flatMap
    (noticesOf answers stage.harvester.config.root stage.harvester.members)

/-- The world of a stage once the root has been listed. -/
def Stage.listed (stage : Stage) (answer : Except ListerError (List ListingEntry)) : World :=
  stage.world.note (.list stage.harvester.config.root answer)

/-- What the listener at place `j` answers to the change at place `i`. -/
def outcomeAt (answers : Answers) (stage : Stage) (listing : List ListingEntry) (i j : Nat) :
    Outcome ListenerError Unit :=
  answerTo answers (stage.listed (.ok listing)).calls
    (noticesUpTo answers stage.harvester.config.root stage.harvester.members
      (dueChanges stage listing) i j)

/-- Nobody puts an end to what is due. -/
def IsSteady (answers : Answers) (stage : Stage) (listing : List ListingEntry) : Prop :=
  ∀ i < (dueChanges stage listing).length, ∀ j < stage.harvester.members.length, ∀ e,
    outcomeAt answers stage listing i j ≠ .error (.persistence e)

/-- Asking for a listing is how a poll begins. -/
def Stage.Lists (stage : Stage) : Prop :=
  stage.harvester.beginPoll = .listing stage.harvester.config.root stage.harvester.members

def reportOf (answers : Answers) (stage : Stage) (listing : List ListingEntry) : PollReport :=
  .ofDiff (diff stage.harvester.snapshot listing)
    (faultCount answers (stage.listed (.ok listing)).calls (dueNotices answers stage listing))

variable {stage : Stage} {listing : List ListingEntry}

theorem isSteady_iff :
    IsSteady answers stage listing ↔
      Steady answers (stage.listed (.ok listing)).calls (dueNotices answers stage listing) :=
  steady_iff_forall_place.symm

theorem pollOnce_of_notRunning (hbegin : stage.harvester.beginPoll = .notRunning) :
    pollOnce answers stage = (.error (.notRunning stage.harvester.id), stage) := by
  unfold pollOnce poll
  rw [hbegin]
  rfl

theorem pollOnce_of_idle (hbegin : stage.harvester.beginPoll = .idle) :
    pollOnce answers stage = (.ok .ofIdle, stage) := by
  unfold pollOnce poll
  rw [hbegin]
  rfl

theorem pollOnce_of_lists (hlists : stage.Lists) {answer : Except ListerError (List ListingEntry)}
    (hlisted : answers.list stage.world.calls = answer) :
    pollOnce answers stage = staged (finishPoll (lister answers) (store answers)
      (stage.harvester.members.map (listener answers)) stage.harvester stage.harvester.config.root
      answer (stage.listed answer)) := by
  subst hlisted
  unfold Stage.Lists at hlists
  unfold pollOnce poll
  rw [hlists]
  rfl

theorem pollOnce_of_unreachable (hlists : stage.Lists) {e : ListerError}
    (hlisted : answers.list stage.world.calls = .error e) :
    pollOnce answers stage =
      (.error (.lister e), { stage with world := stage.listed (.error e) }) := by
  rw [pollOnce_of_lists hlists hlisted]
  rfl

theorem pollOnce_of_break (hlists : stage.Lists)
    (hlisted : answers.list stage.world.calls = .ok listing) {before : List Notice} {e : StoreError}
    (hbegins : before ++ [notice] <+: dueNotices answers stage listing)
    (hsteady : Steady answers (stage.listed (.ok listing)).calls before)
    (hbreak : answerTo answers (stage.listed (.ok listing)).calls (before ++ [notice]) =
      .error (.persistence e)) :
    pollOnce answers stage = (.error (.persistence e),
      { stage with world := (stage.listed (.ok listing)).tellAll (before ++ [notice]) }) := by
  obtain ⟨rest, hdue⟩ := hbegins
  rw [List.append_assoc, List.singleton_append] at hdue
  have hdelivered := @countAll_of_break answers notice _ before rest e hsteady hbreak
  rw [hdue] at hdelivered
  rw [pollOnce_of_lists hlists hlisted,
    finishPoll_of_aborted ((congrFun (deliverAll_eq_countAll ..) _).trans hdelivered)]
  rfl

theorem pollOnce_of_steady (hlists : stage.Lists)
    (hlisted : answers.list stage.world.calls = .ok listing)
    (hsteady : IsSteady answers stage listing) :
    pollOnce answers stage = staged (commit (store answers) stage.harvester
      (diff stage.harvester.snapshot listing) (reportOf answers stage listing)
      ((stage.listed (.ok listing)).tellAll (dueNotices answers stage listing))) := by
  have hdelivered := countAll_of_steady (isSteady_iff.mp hsteady)
  rw [pollOnce_of_lists hlists hlisted,
    finishPoll_of_delivered ((congrFun (deliverAll_eq_countAll ..) _).trans hdelivered)]
  rfl

theorem pollOnce_of_same (hlists : stage.Lists)
    (hlisted : answers.list stage.world.calls = .ok listing)
    (hsteady : IsSteady answers stage listing)
    (hsame : stage.harvester.snapshot = some (.ofListing listing)) :
    pollOnce answers stage = (.ok (reportOf answers stage listing),
      ⟨stage.harvester.withListing listing,
        (stage.listed (.ok listing)).tellAll (dueNotices answers stage listing)⟩) := by
  rw [pollOnce_of_steady hlists hlisted hsteady, reportOf, commit_of_same _ hsame]
  rfl

/-- The new view of the tree is stored after everything else, if it can be stored. -/
theorem pollOnce_of_ne (hlists : stage.Lists)
    (hlisted : answers.list stage.world.calls = .ok listing)
    (hsteady : IsSteady answers stage listing)
    (hne : stage.harvester.snapshot ≠ some (.ofListing listing)) :
    pollOnce answers stage =
      let told := (stage.listed (.ok listing)).tellAll (dueNotices answers stage listing)
      let asked := told.note (.store stage.harvester.snapshotKey)
      match answers.writeError? told.calls with
      | some e => (.error (.persistence e), ⟨stage.harvester, asked⟩)
      | none => (.ok (reportOf answers stage listing), ⟨stage.harvester.withListing listing,
          { asked with
            blobs := stage.world.blobs.insert stage.harvester.snapshotKey
              (Snapshot.ofListing listing).encode }⟩) := by
  rw [pollOnce_of_steady hlists hlisted hsteady, reportOf, commit_of_ne _ hne]
  simp only [store, write]
  cases answers.writeError?
    ((stage.listed (.ok listing)).tellAll (dueNotices answers stage listing)).calls with
  | some e => rfl
  | none => rfl

end Polls

end CatalogSync.Surroundings
