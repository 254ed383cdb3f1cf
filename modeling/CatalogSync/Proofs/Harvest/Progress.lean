import CatalogSync.Proofs.Harvest.Delivery
import CatalogSync.Proofs.Harvest.Lifecycle

namespace CatalogSync.Surroundings

open Harvester

def Stage.alter (stage : Stage) (f : Harvester → Harvester) : Stage :=
  { stage with harvester := f stage.harvester }

/-- Whatever a call neither reads nor changes once it is committed. -/
def Stage.withListeners (stage : Stage) (id : String) (policy : ListenerPolicy)
    (members : List ListenerId) : Stage :=
  stage.alter fun h => { h with id := id, policy := policy, members := members }

def Stage.withMembers (stage : Stage) (members : List ListenerId) : Stage :=
  stage.alter fun h => { h with members := members }

/-- What a call that has its turn does next. -/
inductive Progress where
  | starting
  | stopping
  | resting
  | admitting (config : HarvesterConfig)
  | halting (config : HarvesterConfig)
  | adopting (config : HarvesterConfig)
  | announcing (interval : Nat)
  | initializing
  | checking
  | loading
  | closing (result : Except HarvestError Unit)
  | beginning
  | gathering
  | listing (root : String) (members : List ListenerId)
  | telling (diff : Diff) (rest : List Notice) (failures : Nat)
  | committing (diff : Diff) (failures : Nat)
  | keeping (next : Snapshot) (report : PollReport)

/-- A call is committed once it takes effect, whoever listens from then on. -/
def Progress.isCommitted : Progress → Bool
  | .starting | .stopping | .admitting _ | .beginning | .gathering => false
  | _ => true

/-- What can come right after what. -/
inductive Progress.Precedes : Progress → Progress → Prop where
  | starting : Precedes .starting .initializing
  | stopping : Precedes .stopping .resting
  | admitting (config : HarvesterConfig) : Precedes (.admitting config) (.halting config)
  | halting (config : HarvesterConfig) : Precedes (.halting config) (.adopting config)
  | adopting (config : HarvesterConfig) : Precedes (.adopting config) (.announcing config.interval)
  | announcing (interval : Nat) : Precedes (.announcing interval) .initializing
  | initializing : Precedes .initializing .checking
  | checking : Precedes .checking .loading
  | failing (e : HarvestError) : Precedes .checking (.closing (.error e))
  | loading (result : Except HarvestError Unit) : Precedes .loading (.closing result)
  | beginning : Precedes .beginning .gathering
  | gathering (root : String) (members : List ListenerId) :
      Precedes .gathering (.listing root members)
  | listing (root : String) (members : List ListenerId) (diff : Diff) (notices : List Notice) :
      Precedes (.listing root members) (.telling diff notices 0)
  | telling (diff : Diff) (notice : Notice) (rest : List Notice) (failures failed : Nat) :
      Precedes (.telling diff (notice :: rest) failures) (.telling diff rest (failures + failed))
  | told (diff : Diff) (failures : Nat) :
      Precedes (.telling diff [] failures) (.committing diff failures)
  | committing (diff : Diff) (failures : Nat) (next : Snapshot) (report : PollReport) :
      Precedes (.committing diff failures) (.keeping next report)

inductive Next where
  | step (progress : Progress)
  | reply (reply : Reply)

section Steps

variable (answers : Answers) (stage : Stage)

def loadStored : (Except HarvestError Unit × Harvester) × World :=
  let h := { stage.harvester with
    snapshotKey := persistenceKey stage.harvester.config.root
    properties := stage.harvester.config.overrides.toProperties }
  match (store answers).load h.snapshotKey stage.world with
  | (.error e, world) => ((.error (.persistence e), h), world)
  | (.ok blob, world) => ((.ok (), { h with snapshot := storedSnapshot? blob }), world)

def closed (result : Except HarvestError Unit) : Reply × Stage :=
  (.done result, stage.alter fun h =>
    { h with status := if result.isOk then .polling else .stopped })

/-- One step. Whatever is seen or changed under a lock of its own is a step of its own, and so is
every question to the surroundings. -/
def advance : Progress → Next × Stage
  | .starting =>
    if stage.harvester.status = .polling then (.reply (.done (.ok ())), stage)
    else (.step .initializing, stage)
  | .stopping => (.step .resting, stage.alter fun h => { h with snapshot := none })
  | .resting => (.reply (.done (.ok ())), stage.alter fun h => { h with status := .stopped })
  | .admitting config =>
    if stage.harvester.admitsPolicy config.policy then
      (.step (.halting config), stage.alter fun h => { h with policy := config.policy })
    else
      (.reply (.done (.error (.config (.invalidValue
        ("harvester." ++ stage.harvester.id ++ ".listener_policy") ListenerPolicy.single.text)))),
        stage)
  | .halting config =>
    (.step (.adopting config), stage.alter fun h => { h with status := .stopped })
  | .adopting config =>
    (.step (.announcing config.interval), stage.alter fun h =>
      { h with config := config, snapshot := none })
  | .announcing interval =>
    (.step .initializing, stage.alter fun h => { h with interval := interval })
  | .initializing => (.step .checking, stage.alter fun h => { h with status := .initializing })
  | .checking =>
    match stage.harvester.config.validate with
    | .error e => (.step (.closing (.error (.config e))), stage)
    | .ok () =>
      match (lister answers).checkRoot stage.harvester.config.root stage.world with
      | (.error e, world) => (.step (.closing (.error (.lister e))), { stage with world := world })
      | (.ok (), world) => (.step .loading, { stage with world := world })
  | .loading =>
    (.step (.closing (loadStored answers stage).1.1), (staged (loadStored answers stage)).2)
  | .closing result => (.reply (closed stage result).1, (closed stage result).2)
  | .beginning =>
    if stage.harvester.status = .polling then (.step .gathering, stage)
    else (.reply (.polled (.error (.notRunning stage.harvester.id))), stage)
  | .gathering =>
    if stage.harvester.members = [] ∧ stage.harvester.config.idleWithoutListeners then
      (.reply (.polled (.ok .ofIdle)), stage)
    else (.step (.listing stage.harvester.config.root stage.harvester.members), stage)
  | .listing root members =>
    match (lister answers).list root stage.world with
    | (.error e, world) => (.reply (.polled (.error (.lister e))), { stage with world := world })
    | (.ok listing, world) =>
      let diff := CatalogSync.diff stage.harvester.snapshot listing
      (.step (.telling diff (diff.changes.flatMap (noticesOf answers root members)) 0),
        { stage with world := world })
  | .telling diff [] failures => (.step (.committing diff failures), stage)
  | .telling diff (notice :: rest) failures =>
    match countOf (tell answers notice) stage.world with
    | (.error e, world) =>
      (.reply (.polled (.error (.persistence e))), { stage with world := world })
    | (.ok failed, world) =>
      (.step (.telling diff rest (failures + failed)), { stage with world := world })
  | .committing diff failures =>
    let report := PollReport.ofDiff diff failures
    if report.events = 0 ∧ stage.harvester.snapshot.isSome then
      (.reply (.polled (.ok report)), stage)
    else
      match (store answers).store stage.harvester.snapshotKey diff.next.encode stage.world with
      | (.error e, world) =>
        (.reply (.polled (.error (.persistence e))), { stage with world := world })
      | (.ok (), world) => (.step (.keeping diff.next report), { stage with world := world })
  | .keeping next report =>
    (.reply (.polled (.ok report)), stage.alter fun h => { h with snapshot := some next })

def doneWith (answer : (Except HarvestError Unit × Harvester) × World) : Reply × Stage :=
  (.done (staged answer).1, (staged answer).2)

def polledWith (answer : (Except HarvestError PollReport × Harvester) × World) : Reply × Stage :=
  (.polled (staged answer).1, (staged answer).2)

def bringUpOnce (stage : Stage) : Reply × Stage :=
  doneWith (bringUp (lister answers) (store answers) stage.harvester stage.world)

def pollListing (root : String) (members : List ListenerId) : Reply × Stage :=
  let answer := (lister answers).list root stage.world
  polledWith (finishPoll (lister answers) (store answers) (members.map (listener answers))
    stage.harvester root answer.1 answer.2)

def commitCounted (diff : Diff) (failures : Nat) : Except StoreError Nat × World → Reply × Stage
  | (.error e, world) => (.polled (.error (.persistence e)), { stage with world := world })
  | (.ok more, world) =>
    polledWith (commit (store answers) stage.harvester diff (.ofDiff diff (failures + more)) world)

/-- What is left of a call, without a break. -/
def complete : Progress → Reply × Stage
  | .starting => obey answers stage .start
  | .stopping => obey answers stage .stop
  | .resting => (.done (.ok ()), stage.alter fun h => { h with status := .stopped })
  | .admitting config =>
    doneWith (applyConfig (lister answers) (store answers) stage.harvester config stage.world)
  | .halting config =>
    bringUpOnce answers (stage.alter fun h => { h with
      config := config, snapshot := none, interval := config.interval, status := .stopped })
  | .adopting config =>
    bringUpOnce answers (stage.alter fun h => { h with
      config := config, snapshot := none, interval := config.interval })
  | .announcing interval =>
    bringUpOnce answers (stage.alter fun h => { h with interval := interval })
  | .initializing => bringUpOnce answers stage
  | .checking =>
    let answer := loadState (lister answers) (store answers) stage.harvester stage.world
    closed (staged answer).2 answer.1.1
  | .loading => closed (staged (loadStored answers stage)).2 (loadStored answers stage).1.1
  | .closing result => closed stage result
  | .beginning => obey answers stage .poll
  | .gathering =>
    if stage.harvester.members = [] ∧ stage.harvester.config.idleWithoutListeners then
      (.polled (.ok .ofIdle), stage)
    else pollListing answers stage stage.harvester.config.root stage.harvester.members
  | .listing root members => pollListing answers stage root members
  | .telling diff rest failures =>
    commitCounted answers stage diff failures (countAll (rest.map (tell answers)) stage.world)
  | .committing diff failures =>
    polledWith (commit (store answers) stage.harvester diff (.ofDiff diff failures) stage.world)
  | .keeping next report =>
    (.polled (.ok report), stage.alter fun h => { h with snapshot := some next })

def carryOn : Next × Stage → Reply × Stage
  | (.reply reply, after) => (reply, after)
  | (.step next, after) => complete answers after next

end Steps

variable {answers : Answers} {stage : Stage}

theorem bringUpOnce_eq_complete (stage : Stage) :
    bringUpOnce answers stage =
      complete answers (stage.alter fun h => { h with status := .initializing }) .checking := by
  simp only [bringUpOnce, complete, doneWith, bringUp, bind, StateT.bind]
  dsimp only [Stage.alter]
  rcases loadState (lister answers) (store answers)
    { stage.harvester with status := .initializing } stage.world with ⟨⟨e | _, h⟩, world⟩ <;> rfl

theorem complete_checking (stage : Stage) :
    complete answers stage .checking = carryOn answers (advance answers stage .checking) := by
  unfold complete advance
  simp only [loadState]
  cases stage.harvester.config.validate with
  | error e => rfl
  | ok _ =>
    simp only [bind, StateT.bind, checkRoot_lister]
    cases answers.checkRoot stage.world.calls with
    | error e => rfl
    | ok _ =>
      simp only [carryOn, StateT.bind, complete, loadStored, load_store]
      cases answers.loadError? (stage.world.note (.checkRoot stage.harvester.config.root)).calls
        with
      | some e => rfl
      | none => rfl

theorem complete_beginning (stage : Stage) :
    complete answers stage .beginning = carryOn answers (advance answers stage .beginning) := by
  unfold complete advance
  simp only [obey, pollOnce, poll, beginPoll]
  by_cases hrunning : stage.harvester.status = .polling
  · simp only [hrunning, ne_eq, not_true_eq_false, if_false, if_true, carryOn, complete]
    split <;> rfl
  · simp only [hrunning, ne_eq, not_false_eq_true, if_true, if_false]
    rfl

theorem complete_listing (stage : Stage) (root : String) (members : List ListenerId) :
    complete answers stage (.listing root members) =
      carryOn answers (advance answers stage (.listing root members)) := by
  unfold complete advance
  simp only [pollListing, finishPoll]
  rcases (lister answers).list root stage.world with ⟨e | listing, world⟩
  · rfl
  · simp only [carryOn, complete, deliverAll_eq_countAll, bind, StateT.bind]
    generalize countAll _ world = counted
    rcases counted with ⟨e | failures, world⟩
    · rfl
    · simp only [commitCounted, Nat.zero_add]

theorem complete_telling (stage : Stage) (diff : Diff) (rest : List Notice) (failures : Nat) :
    complete answers stage (.telling diff rest failures) =
      carryOn answers (advance answers stage (.telling diff rest failures)) := by
  cases rest with
  | nil => rfl
  | cons notice rest =>
    unfold complete advance
    simp only [List.map_cons, countAll]
    rcases hcount : countOf (tell answers notice) stage.world with ⟨e | failed, world⟩
    · rw [addCounts_of_error hcount]
      rfl
    · rw [addCounts_of_ok hcount]
      simp only [carryOn, complete]
      rcases countAll (rest.map (tell answers)) world with ⟨e | more, world⟩
      · rfl
      · simp only [commitCounted, Nat.add_assoc]

theorem complete_committing (stage : Stage) (diff : Diff) (failures : Nat) :
    complete answers stage (.committing diff failures) =
      carryOn answers (advance answers stage (.committing diff failures)) := by
  unfold complete advance
  simp only [commit]
  split
  · rfl
  · simp only [bind, StateT.bind]
    rcases (store answers).store stage.harvester.snapshotKey diff.next.encode stage.world with
      ⟨e | _, world⟩ <;> rfl

theorem complete_eq_carryOn (stage : Stage) (progress : Progress) :
    complete answers stage progress = carryOn answers (advance answers stage progress) := by
  cases progress with
  | starting =>
    unfold complete advance
    simp only [obey, startOnce, start]
    split <;> rfl
  | admitting config =>
    unfold complete advance
    simp only [applyConfig]
    split <;> rfl
  | initializing => exact bringUpOnce_eq_complete stage
  | checking => exact complete_checking stage
  | beginning => exact complete_beginning stage
  | gathering =>
    unfold complete advance
    dsimp only
    split <;> rfl
  | listing root members => exact complete_listing stage root members
  | telling diff rest failures => exact complete_telling stage diff rest failures
  | committing diff failures => exact complete_committing stage diff failures
  | stopping | resting | halting | adopting | announcing | loading | closing | keeping => rfl

section Order

theorem precedes_advance {progress next : Progress}
    (hnext : (advance answers stage progress).1 = .step next) : progress.Precedes next := by
  cases progress with
  | stopping => cases hnext; exact .stopping
  | halting config => cases hnext; exact .halting config
  | adopting config => cases hnext; exact .adopting config
  | announcing interval => cases hnext; exact .announcing interval
  | initializing => cases hnext; exact .initializing
  | loading => cases hnext; exact .loading _
  | resting | closing | keeping => cases hnext
  | starting =>
    simp only [advance] at hnext
    split at hnext <;> cases hnext
    exact .starting
  | admitting config =>
    simp only [advance] at hnext
    split at hnext <;> cases hnext
    exact .admitting config
  | checking =>
    simp only [advance] at hnext
    split at hnext
    · cases hnext
      exact .failing _
    · split at hnext <;> cases hnext
      · exact .failing _
      · exact .checking
  | beginning =>
    simp only [advance] at hnext
    split at hnext <;> cases hnext
    exact .beginning
  | gathering =>
    simp only [advance] at hnext
    split at hnext <;> cases hnext
    exact .gathering _ _
  | listing root members =>
    simp only [advance] at hnext
    split at hnext <;> cases hnext
    exact .listing _ _ _ _
  | telling diff rest failures =>
    cases rest with
    | nil => cases hnext; exact .told diff failures
    | cons notice rest =>
      simp only [advance] at hnext
      split at hnext <;> cases hnext
      exact .telling _ _ _ _ _
  | committing diff failures =>
    simp only [advance] at hnext
    split at hnext
    · cases hnext
    · split at hnext <;> cases hnext
      exact .committing _ _ _ _

theorem Progress.Precedes.isCommitted {progress next : Progress} (h : progress.Precedes next)
    (hcommitted : progress.isCommitted) : next.isCommitted := by
  cases h with
  | starting | stopping | admitting | beginning | gathering => cases hcommitted
  | _ => rfl

/-- How far a call is from its end, and how many listeners are still to be told. -/
def Progress.remaining : Progress → Nat × Nat
  | .admitting _ => (7, 0)
  | .halting _ => (6, 0)
  | .adopting _ => (5, 0)
  | .starting | .announcing _ | .beginning => (4, 0)
  | .initializing | .gathering => (3, 0)
  | .checking | .listing _ _ => (2, 0)
  | .stopping | .loading => (1, 0)
  | .telling _ rest _ => (1, rest.length + 1)
  | .committing _ _ => (1, 0)
  | .resting | .closing _ | .keeping _ _ => (0, 0)

theorem Progress.Precedes.remaining_lt {progress next : Progress} (h : progress.Precedes next) :
    Prod.Lex (· < ·) (· < ·) next.remaining progress.remaining := by
  cases h with
  | telling diff notice rest failures failed => exact Prod.Lex.right _ (Nat.lt_succ_self _)
  | told diff failures => exact Prod.Lex.right _ (Nat.zero_lt_succ _)
  | _ => exact Prod.Lex.left _ _ (by decide)

theorem wellFounded_precedes : WellFounded fun next progress : Progress => progress.Precedes next :=
  Subrelation.wf (fun h => h.remaining_lt)
    (InvImage.wf Progress.remaining (wellFounded_lt.prod_lex wellFounded_lt))

end Order

section Listeners

variable {id : String} {policy : ListenerPolicy} {members : List ListenerId}

theorem advance_withListeners {progress : Progress} (hcommitted : progress.isCommitted)
    (stage : Stage) :
    advance answers (stage.withListeners id policy members) progress =
      ((advance answers stage progress).1,
        (advance answers stage progress).2.withListeners id policy members) := by
  cases progress with
  | starting | stopping | admitting | beginning | gathering => cases hcommitted
  | resting | closing | keeping | halting | adopting | announcing | initializing => rfl
  | checking =>
    simp only [advance, Stage.withListeners, Stage.alter]
    cases stage.harvester.config.validate with
    | error e => rfl
    | ok _ =>
      dsimp only
      rcases (lister answers).checkRoot stage.harvester.config.root stage.world with
        ⟨e | _, world⟩ <;> rfl
  | loading =>
    simp only [advance, loadStored, Stage.withListeners, Stage.alter]
    rcases (store answers).load (persistenceKey stage.harvester.config.root) stage.world with
      ⟨e | blob, world⟩ <;> rfl
  | listing root listeners =>
    simp only [advance, Stage.withListeners, Stage.alter]
    rcases (lister answers).list root stage.world with ⟨e | listing, world⟩ <;> rfl
  | telling diff rest failures =>
    cases rest with
    | nil => rfl
    | cons notice rest =>
      simp only [advance, Stage.withListeners, Stage.alter]
      rcases countOf (tell answers notice) stage.world with ⟨e | failed, world⟩ <;> rfl
  | committing diff failures =>
    simp only [advance, Stage.withListeners, Stage.alter]
    by_cases hquiet : (PollReport.ofDiff diff failures).events = 0 ∧
      stage.harvester.snapshot.isSome = true
    · rw [if_pos hquiet]
      exact if_pos hquiet
    · rw [if_neg hquiet]
      refine (if_neg hquiet).trans ?_
      rcases (store answers).store stage.harvester.snapshotKey diff.next.encode stage.world with
        ⟨e | _, world⟩ <;> rfl

/-- A call that is committed neither sees nor changes who listens. -/
theorem complete_withListeners {progress : Progress} (hcommitted : progress.isCommitted)
    (stage : Stage) :
    complete answers (stage.withListeners id policy members) progress =
      ((complete answers stage progress).1,
        (complete answers stage progress).2.withListeners id policy members) := by
  induction progress using wellFounded_precedes.induction generalizing stage with
  | _ progress ih =>
    rw [complete_eq_carryOn, complete_eq_carryOn, advance_withListeners hcommitted]
    rcases hadvance : advance answers stage progress with ⟨next | reply, after⟩
    · have hprecedes : progress.Precedes next := precedes_advance (congrArg Prod.fst hadvance)
      exact ih next hprecedes (hprecedes.isCommitted hcommitted) after
    · rfl

theorem listeners_complete {progress : Progress} (hcommitted : progress.isCommitted)
    (stage : Stage) :
    (complete answers stage progress).2.harvester.id = stage.harvester.id ∧
      (complete answers stage progress).2.harvester.policy = stage.harvester.policy ∧
      (complete answers stage progress).2.harvester.members = stage.harvester.members := by
  -- A stage has the listeners that it has.
  have hsame : complete answers stage progress = _ := complete_withListeners hcommitted stage
  rw [hsame]
  exact ⟨rfl, rfl, rfl⟩

theorem complete_withMembers {progress : Progress} (hcommitted : progress.isCommitted)
    (stage : Stage) :
    complete answers (stage.withMembers members) progress =
      ((complete answers stage progress).1,
        (complete answers stage progress).2.withMembers members) := by
  obtain ⟨hid, hpolicy, -⟩ := @listeners_complete answers progress hcommitted stage
  refine (complete_withListeners hcommitted stage).trans ?_
  rw [← hid, ← hpolicy]
  rfl

end Listeners

end CatalogSync.Surroundings
