import CatalogSync.Proofs.Lists
import CatalogSync.Simulation.Timeline
import Mathlib.Algebra.GroupWithZero.Nat
import Mathlib.Data.List.Basic

/-!
Starting harvesters while the loops of others are on their way to their first poll. Whoever calls
goes first at the disk, so the others come as far as the disk and wait there.
-/

namespace CatalogSync.Simulation

/-- How far a loop is that has not polled yet, and who holds its harvester. -/
inductive Prepared (now : Nat) (id : TaskId) : Poller → Phase → Option TaskId → Prop where
  | fresh : Prepared now id ⟨.fresh, 0, false⟩ .idle none
  | waiting (ticker : Ticker) (hdue : now ≤ ticker.due) (hperiod : 0 < ticker.period) :
    Prepared now id ⟨.waiting ticker, 0, false⟩ .idle none
  | polling (ticker : Ticker) (listing : String × List ListenerId) :
    Prepared now id ⟨.polling ticker, 0, false⟩ (.atDisk (some listing)) (some id)

theorem Prepared.not_over {now : Nat} {id : TaskId} {poller : Poller} {phase : Phase}
    {holder : Option TaskId} (h : Prepared now id poller phase holder) (time : Nat)
    (reply : Option Reply) : phase ≠ .finished time reply := by
  cases h <;> simp

namespace Task

def IsOver (task : Task) : Prop :=
  ∃ time reply, task.phase = .finished time reply

/-- The harvester of a task, and whether the task is a loop that goes on. -/
def outline (task : Task) : HarvesterRef × Bool :=
  (task.target,
    match task.work, task.phase with
    | .loop _, .finished _ _ => false
    | .loop _, _ => true
    | .call _, _ => false)

end Task

namespace World

/-- A task that polls a harvester of its own over a lister. -/
structure Ready (lister : Nat) (world : World) (id : TaskId) (task : Task) (cell : HarvesterCell) :
    Prop where
  isTarget : world.cell? task.target = some cell
  lister : cell.lister = lister
  interval : cell.harvester.interval ≠ 0
  changes : cell.changes = 0
  queue : cell.queue = []
  prepared : ∃ poller, task.work = .loop poller ∧
    Prepared world.now id poller task.phase cell.holder

/-- Apart from one task there are only loops that have not polled yet, over a lister of the disk. -/
structure Launched (lister : Nat) (except : Option TaskId) (world : World) : Prop where
  isDisk : world.bench.isDiskLister lister = true
  isFast : ((Bench.listerCell lister).get world.bench).delay = 0
  loops : ∀ id task, world.tasks[id]? = some task → except ≠ some id →
    task.IsOver ∨ ∃ cell, Ready lister world id task cell
  apart : ∀ (id id' : TaskId) (task task' : Task),
    world.tasks[id]? = some task → world.tasks[id']? = some task' →
    ¬task.IsOver → ¬task'.IsOver → task.target = task'.target → id = id'

/-- How many steps a task can take before it waits. -/
def credit (now : Nat) (task : Task) : Nat :=
  match task.work, task.phase with
  | .loop ⟨.fresh, _, _⟩, .idle => 2
  | .loop ⟨.waiting ticker, _, _⟩, .idle => if ticker.due ≤ now then 1 else 0
  | _, _ => 0

def totalCredit (world : World) : Nat :=
  (world.tasks.map (credit world.now)).sum

/-- A world that differs in the state of one task and in who holds its harvester, and perhaps in
when listings have begun. -/
structure Turned (lister : Nat) (id : TaskId) (task : Task) (cell : HarvesterCell)
    (world world' : World) (holder : Option TaskId) (work : Work) (phase : Phase) : Prop where
  exists_listers : ∃ listers, world' = { world with
    bench := { world.bench with listers := listers }
    harvesters := world.harvesters.set task.target { cell with holder := holder }
    tasks := world.tasks.set id { task with work := work, phase := phase } }
  isDisk : world'.bench.isDiskLister lister = world.bench.isDiskLister lister
  delay : ((Bench.listerCell lister).get world'.bench).delay =
    ((Bench.listerCell lister).get world.bench).delay

section Steps

variable {lister : Nat} {world world' : World} {id : TaskId} {task : Task} {cell : HarvesterCell}

theorem set_cell? (h : world.cell? task.target = some cell) :
    world.harvesters.set task.target cell = world.harvesters := by
  obtain ⟨hlt, hcell⟩ := List.getElem?_eq_some_iff.mp h
  rw [← hcell, List.set_getElem_self]

theorem turned_fresh (h : Ready lister world id task cell)
    (hphase : task.phase = .idle) (hholder : cell.holder = none)
    (hrun : world.runLoop? id task ⟨.fresh, 0, false⟩ = some world') :
    Turned lister id task cell world world' none
      (.loop ⟨.waiting ⟨world.now, cell.harvester.interval⟩, 0, false⟩) .idle := by
  simp only [runLoop?, h.isTarget, Poller.next?, Poller.begin, h.interval, if_false,
    h.changes] at hrun
  obtain rfl := Option.some.inj hrun
  refine ⟨⟨world.bench.listers, ?_⟩, rfl, rfl⟩
  have hcell : { cell with holder := none } = cell := by rw [← hholder]
  rw [hcell, set_cell? h.isTarget, ← hphase]
  rfl

theorem take_of_due {ticker : Ticker} {now : Nat} (hdue : now ≤ ticker.due)
    (hnow : ticker.due ≤ now) : ticker.take now = { ticker with due := now + ticker.period } := by
  obtain rfl := Nat.le_antisymm hnow hdue
  rw [Ticker.take, if_pos (Nat.le_add_right _ _)]

theorem cell?_setCell {ref : HarvesterRef} (h : world.cell? ref = some cell)
    (changed : HarvesterCell) : (world.setCell ref changed).cell? ref = some changed := by
  obtain ⟨hlt, -⟩ := List.getElem?_eq_some_iff.mp h
  exact List.getElem?_set_self hlt

theorem endTurn_polling (h : world.cell? task.target = some cell) (hqueue : cell.queue = [])
    {ticker : Ticker} (hwork : task.work = .loop ⟨.polling ticker, 0, false⟩) (reply : Reply) :
    world.endTurn id task reply =
      { world with
        harvesters := world.harvesters.set task.target { cell with holder := none }
        tasks := world.tasks.set id
          { task with work := .loop ⟨.waiting ticker, 0, false⟩, phase := .idle } } := by
  simp only [endTurn, release, h, hqueue, hwork, Poller.pollDone]
  rfl

theorem takeTurn_poll (h : world.cell? task.target = some cell) (hholder : cell.holder = none) :
    world.takeTurn id task .poll =
      (world.setCell task.target { cell with holder := some id }).beginPoll id task
        { cell with holder := some id } := by
  simp only [takeTurn, h, hholder, perform, looksAtRoot, Bool.false_eq_true, and_false, if_false,
    carryOut]

theorem isDiskLister_noteListing (other : Nat) (bench : Bench) :
    (Bench.noteListing other bench).2.isDiskLister lister = bench.isDiskLister lister := by
  simp only [Bench.isDiskLister, Bench.noteListing, Bench.listerCell, Part.item, List.getElem?_set]
  split
  · rename_i heq
    subst heq
    by_cases hlt : other < bench.listers.length <;> simp [hlt]
  · rfl

theorem delay_noteListing (other : Nat) (bench : Bench) :
    ((Bench.listerCell lister).get (Bench.noteListing other bench).2).delay =
      ((Bench.listerCell lister).get bench).delay := by
  simp only [Bench.noteListing, Bench.listerCell, Part.item, List.getElem?_set]
  split
  · rename_i heq
    subst heq
    by_cases hlt : other < bench.listers.length <;> simp [hlt]
  · rfl

theorem turned_poll {ticker : Ticker} (hcell : world.cell? task.target = some cell)
    (hlister : cell.lister = lister) (hqueue : cell.queue = []) (hholder : cell.holder = none)
    (hisDisk : world.bench.isDiskLister lister = true)
    (hisFast : ((Bench.listerCell lister).get world.bench).delay = 0)
    (hwork : task.work = .loop ⟨.polling ticker, 0, false⟩) :
    Turned lister id task cell world (world.takeTurn id task .poll) none
        (.loop ⟨.waiting ticker, 0, false⟩) .idle ∨
      ∃ listing, Turned lister id task cell world (world.takeTurn id task .poll) (some id)
        (.loop ⟨.polling ticker, 0, false⟩) (.atDisk (some listing)) := by
  have hover : ∀ reply, Turned lister id task cell world
      ((world.setCell task.target { cell with holder := some id }).endTurn id task reply) none
        (.loop ⟨.waiting ticker, 0, false⟩) .idle := by
    intro reply
    rw [endTurn_polling (cell?_setCell hcell { cell with holder := some id }) hqueue hwork]
    refine ⟨⟨world.bench.listers, ?_⟩, rfl, rfl⟩
    simp only [setCell, List.set_set]
  rw [takeTurn_poll hcell hholder, beginPoll]
  cases hbegin : cell.harvester.beginPoll with
  | notRunning => exact Or.inl (hover _)
  | idle => exact Or.inl (hover _)
  | listing root members =>
    refine Or.inr ⟨(root, members), ?_⟩
    have hdelay : ((Bench.listerCell cell.lister).get
        (onBench (Bench.noteListing cell.lister)
          (world.setCell task.target { cell with holder := some id })).2.bench).delay = 0 := by
      rw [hlister]
      exact (delay_noteListing lister world.bench).trans hisFast
    have hdisk : (onBench (Bench.noteListing cell.lister)
        (world.setCell task.target { cell with holder := some id })).2.bench.isDiskLister
          cell.lister = true := by
      rw [hlister]
      exact (isDiskLister_noteListing lister world.bench).trans hisDisk
    simp only [hdelay, if_true, listRoot, hdisk]
    refine ⟨⟨(Bench.noteListing cell.lister world.bench).2.listers, ?_⟩,
      isDiskLister_noteListing cell.lister world.bench, delay_noteListing cell.lister world.bench⟩
    rw [← hwork]
    rfl

theorem Turned.of_setTask (task : Task) {polling : Work} {holder : Option TaskId} {work : Work}
    {phase : Phase}
    (h : Turned lister id { task with work := polling } cell
      (world.setTask id { task with work := polling }) world' holder work phase) :
    Turned lister id task cell world world' holder work phase := by
  obtain ⟨⟨listers, rfl⟩, hisDisk, hdelay⟩ := h
  refine ⟨⟨listers, ?_⟩, hisDisk, hdelay⟩
  simp only [setTask, List.set_set]

/-- Every step of a loop brings it nearer to its first poll. -/
theorem turned_runTask? (htask : world.tasks[id]? = some task) (h : Ready lister world id task cell)
    (hisDisk : world.bench.isDiskLister lister = true)
    (hisFast : ((Bench.listerCell lister).get world.bench).delay = 0)
    (hidle : world.isAtDisk id = false) (hrun : world.runTask? id = some world') :
    ∃ holder poller phase,
      Turned lister id task cell world world' holder (.loop poller) phase ∧
      Prepared world.now id poller phase holder ∧
      credit world.now { task with work := .loop poller, phase := phase } <
        credit world.now task := by
  obtain ⟨poller, hwork, hprepared⟩ := h.prepared
  obtain ⟨target, work, phase⟩ := task
  simp only at hwork hprepared
  subst hwork
  generalize hholder : cell.holder = holder at hprepared
  cases hprepared with
  | fresh =>
    simp only [runTask?, htask] at hrun
    refine ⟨none, _, .idle, turned_fresh h rfl hholder hrun,
      .waiting _ (Nat.le_refl _) (Nat.pos_of_ne_zero h.interval), ?_⟩
    simp [credit]
  | waiting ticker hdue hperiod =>
    simp only [runTask?, htask, runLoop?, h.isTarget, Poller.next?, h.changes, Bool.false_eq_true,
      if_false, ne_eq, not_true_eq_false] at hrun
    by_cases hnow : ticker.due ≤ world.now
    · simp only [hnow, if_true, take_of_due hdue hnow] at hrun
      obtain rfl := Option.some.inj hrun
      have hcredit : credit world.now ⟨target, .loop ⟨.waiting ticker, 0, false⟩, .idle⟩ = 1 := by
        simp [credit, hnow]
      rw [hcredit]
      let taken : Ticker := ⟨world.now + ticker.period, ticker.period⟩
      let polling : Task := ⟨target, .loop ⟨.polling taken, 0, false⟩, .idle⟩
      have hpoll : Turned lister id polling cell (world.setTask id polling)
            ((world.setTask id polling).takeTurn id polling .poll) none
            (.loop ⟨.waiting taken, 0, false⟩) .idle ∨
          ∃ listing, Turned lister id polling cell (world.setTask id polling)
            ((world.setTask id polling).takeTurn id polling .poll) (some id)
            (.loop ⟨.polling taken, 0, false⟩) (.atDisk (some listing)) :=
        turned_poll h.isTarget h.lister h.queue hholder hisDisk hisFast rfl
      rcases hpoll with hover | ⟨listing, hatDisk⟩
      · refine ⟨none, ⟨.waiting taken, 0, false⟩, .idle,
          Turned.of_setTask ⟨target, _, .idle⟩ hover,
          .waiting taken (Nat.le_add_right _ _) hperiod, ?_⟩
        have hlater : ¬taken.due ≤ world.now := Nat.not_le.mpr (Nat.lt_add_of_pos_right hperiod)
        simp [credit, hlater]
      · exact ⟨some id, ⟨.polling taken, 0, false⟩, .atDisk (some listing),
          Turned.of_setTask ⟨target, _, .idle⟩ hatDisk, .polling taken listing,
          by simp [credit]⟩
    · simp only [hnow, if_false] at hrun
      cases hrun
  | polling ticker listing =>
    simp [isAtDisk, htask] at hidle

end Steps

section Invariants

variable {lister : Nat} {except : Option TaskId} {world world' : World} {id : TaskId} {task : Task}
variable {cell : HarvesterCell} {holder : Option TaskId} {poller : Poller} {phase : Phase}

theorem Turned.getElem? (h : Turned lister id task cell world world' holder (.loop poller) phase)
    (htask : world.tasks[id]? = some task) (other : TaskId) :
    world'.tasks[other]? = if other = id then
      some { task with work := .loop poller, phase := phase }
      else world.tasks[other]? := by
  obtain ⟨⟨listers, rfl⟩, -, -⟩ := h
  obtain ⟨hlt, -⟩ := List.getElem?_eq_some_iff.mp htask
  simp only [List.getElem?_set]
  by_cases hother : other = id
  · subst hother
    simp [hlt]
  · simp [hother, Ne.symm hother]

theorem Turned.cell? (h : Turned lister id task cell world world' holder (.loop poller) phase)
    (hcell : world.cell? task.target = some cell) (other : HarvesterRef) :
    world'.cell? other = if other = task.target then some { cell with holder := holder }
      else world.cell? other := by
  obtain ⟨⟨listers, rfl⟩, -, -⟩ := h
  obtain ⟨hlt, -⟩ := List.getElem?_eq_some_iff.mp hcell
  simp only [World.cell?, List.getElem?_set]
  by_cases hother : other = task.target
  · subst hother
    simp [hlt]
  · simp [hother, Ne.symm hother]

theorem Turned.now (h : Turned lister id task cell world world' holder (.loop poller) phase) :
    world'.now = world.now := by
  obtain ⟨⟨listers, rfl⟩, -, -⟩ := h
  rfl

theorem Turned.launched (hturned : Turned lister id task cell world world' holder (.loop poller)
    phase)
    (h : Launched lister except world) (htask : world.tasks[id]? = some task)
    (hready : Ready lister world id task cell)
    (hprepared : Prepared world.now id poller phase holder) : Launched lister except world' := by
  obtain ⟨before, hbefore, hstage⟩ := hready.prepared
  have hopen : ¬task.IsOver := fun ⟨time, reply, hover⟩ => hstage.not_over time reply hover
  have hopen' : ¬Task.IsOver { task with work := .loop poller, phase := phase } :=
    fun ⟨time, reply, hover⟩ => hprepared.not_over time reply hover
  refine ⟨hturned.isDisk.trans h.isDisk, hturned.delay.trans h.isFast, ?_, ?_⟩
  · intro other otherTask hother hexcept
    rw [hturned.getElem? htask] at hother
    split at hother
    · rename_i heq
      subst heq
      cases hother
      refine Or.inr ⟨{ cell with holder := holder }, ?_, hready.lister, hready.interval,
        hready.changes, hready.queue, poller, rfl, ?_⟩
      · rw [hturned.cell? hready.isTarget, if_pos rfl]
      · rw [hturned.now]
        exact hprepared
    · rename_i hne
      rcases h.loops other otherTask hother hexcept with hover | ⟨otherCell, hother'⟩
      · exact Or.inl hover
      · by_cases hover : otherTask.IsOver
        · exact Or.inl hover
        · refine Or.inr ⟨otherCell, ?_, hother'.lister, hother'.interval, hother'.changes,
            hother'.queue, ?_⟩
          · rw [hturned.cell? hready.isTarget, if_neg, hother'.isTarget]
            exact fun hsame => hne (h.apart _ _ _ _ hother htask hover hopen hsame)
          · rw [hturned.now]
            exact hother'.prepared
  · have hold : ∀ (other : TaskId) (otherTask : Task), world'.tasks[other]? = some otherTask →
        ¬otherTask.IsOver → ∃ oldTask, world.tasks[other]? = some oldTask ∧ ¬oldTask.IsOver ∧
          oldTask.target = otherTask.target := by
      intro other otherTask hother hover
      rw [hturned.getElem? htask] at hother
      split at hother
      · rename_i heq
        subst heq
        cases hother
        exact ⟨task, htask, hopen, rfl⟩
      · exact ⟨otherTask, hother, hover, rfl⟩
    intro first second firstTask secondTask hfirst hsecond hfirstOpen hsecondOpen hsame
    obtain ⟨firstOld, hfirst, hfirstOpen, hfirstTarget⟩ := hold _ _ hfirst hfirstOpen
    obtain ⟨secondOld, hsecond, hsecondOpen, hsecondTarget⟩ := hold _ _ hsecond hsecondOpen
    exact h.apart _ _ _ _ hfirst hsecond hfirstOpen hsecondOpen
      (hfirstTarget.trans (hsame.trans hsecondTarget.symm))

/-- What the steps of loops leave as it is. -/
structure Undisturbed (world world' : World) : Prop where
  disk : world'.bench.disk = world.bench.disk
  registry : world'.registry = world.registry
  listeners : world'.listeners = world.listeners
  harvesters : world'.harvesters.map HarvesterCell.harvester =
    world.harvesters.map HarvesterCell.harvester
  outlines : world'.tasks.map Task.outline = world.tasks.map Task.outline

theorem Undisturbed.refl (world : World) : Undisturbed world world :=
  ⟨rfl, rfl, rfl, rfl, rfl⟩

theorem Undisturbed.trans {middle : World} (h : Undisturbed world middle)
    (h' : Undisturbed middle world') : Undisturbed world world' :=
  ⟨h'.disk.trans h.disk, h'.registry.trans h.registry, h'.listeners.trans h.listeners,
    h'.harvesters.trans h.harvesters, h'.outlines.trans h.outlines⟩

theorem outline_loop (hphase : ∀ time reply, phase ≠ .finished time reply) (target : HarvesterRef)
    (poller : Poller) : Task.outline ⟨target, .loop poller, phase⟩ = (target, true) := by
  cases phase with
  | finished time reply => exact absurd rfl (hphase time reply)
  | _ => rfl

theorem Turned.undisturbed
    (hturned : Turned lister id task cell world world' holder (.loop poller) phase)
    (htask : world.tasks[id]? = some task) (hready : Ready lister world id task cell)
    (hprepared : Prepared world.now id poller phase holder) : Undisturbed world world' := by
  obtain ⟨before, hbefore, hstage⟩ := hready.prepared
  obtain ⟨⟨listers, rfl⟩, -, -⟩ := hturned
  refine ⟨rfl, rfl, rfl, map_set_self hready.isTarget rfl, map_set_self htask ?_⟩
  obtain ⟨target, work, stage⟩ := task
  simp only at hbefore hstage
  subst hbefore
  rw [outline_loop hprepared.not_over, outline_loop hstage.not_over]

theorem Turned.credit_lt
    (hturned : Turned lister id task cell world world' holder (.loop poller) phase)
    (htask : world.tasks[id]? = some task)
    (hcredit : credit world.now { task with work := .loop poller, phase := phase } <
      credit world.now task) : totalCredit world' < totalCredit world := by
  have hnow := hturned.now
  obtain ⟨⟨listers, rfl⟩, -, -⟩ := hturned
  rw [totalCredit, totalCredit, hnow, List.map_set]
  exact sum_set_lt (by rw [List.getElem?_map, htask]; rfl) hcredit

end Invariants

/-- A harvester is being started, and whoever does so waits for the disk. -/
structure Calling (lister : Nat) (call : TaskId) (ref : HarvesterRef) (cell : HarvesterCell)
    (world : World) : Prop where
  launched : Launched lister (some call) world
  isCall : world.tasks[call]? = some ⟨ref, .call .start, .atDisk none⟩
  isTarget : world.cell? ref = some cell

section Calls

variable {lister : Nat} {call : TaskId} {ref : HarvesterRef} {cell : HarvesterCell} {world : World}

theorem runFirst?_calling (h : Calling lister call ref cell world) :
    (∃ id world', world.isAtDisk id = false ∧ world.runTask? id = some world' ∧
        world.runFirst? (some call) = some world') ∨
      world.runFirst? (some call) =
        some (world.carryOut call ⟨ref, .call .start, .atDisk none⟩ cell .start) := by
  have hcall : world.runTask? call =
      some (world.carryOut call ⟨ref, .call .start, .atDisk none⟩ cell .start) := by
    simp only [runTask?, h.isCall, h.isTarget]
    rfl
  have hlisting : (some call).filter world.isListing = none := by
    simp [isListing, h.isCall]
  simp only [runFirst?, inOrder, hlisting, List.partition_eq_filter_filter, Option.toList_none,
    Option.toList_some, List.nil_append, List.append_assoc, List.findSome?_append]
  cases hfirst : ((List.range world.tasks.length).filter (not ∘ world.isAtDisk)).findSome? fun id =>
      world.runTask? id with
  | none => exact Or.inr (by simp [hcall])
  | some world' =>
    obtain ⟨id, hid, hrun⟩ := List.exists_of_findSome?_eq_some hfirst
    exact Or.inl ⟨id, world', by simpa using (List.mem_filter.mp hid).2, hrun, rfl⟩

/-- How a harvester starts, over a lister and a disk; nothing changes but the harvester. -/
structure StartsAs (lister : Nat) (disk : Disk) (cell : HarvesterCell)
    (result : Except HarvestError Unit) (started : Harvester) : Prop where
  overLister : cell.lister = lister
  queue : cell.queue = []
  start : ∀ bench : Bench, bench.disk = disk → bench.isDiskLister lister = true →
    cell.harvester.start (bench.listerAt cell.lister) cell.store.blobStore bench =
      ((result, started), bench)
  interval : started.interval = cell.harvester.interval

/-- The world once a call to start a harvester is over. -/
def started (world : World) (call : TaskId) (ref : HarvesterRef) (cell : HarvesterCell)
    (result : Except HarvestError Unit) (harvester : Harvester) : World :=
  { world with
    harvesters := world.harvesters.set ref { cell with harvester := harvester, holder := none }
    tasks := world.tasks.set call
      ⟨ref, .call .start, .finished world.now (some (.started result))⟩ }

variable {disk : Disk} {result : Except HarvestError Unit} {harvester : Harvester}

theorem carryOut_start (h : Calling lister call ref cell world)
    (hstarts : StartsAs lister disk cell result harvester) (hdisk : world.bench.disk = disk) :
    world.carryOut call ⟨ref, .call .start, .atDisk none⟩ cell .start =
      world.started call ref cell result harvester := by
  have hstart := hstarts.start world.bench hdisk h.launched.isDisk
  have hcell : (world.keepHarvester ref cell harvester).cell? ref =
      some { cell with harvester := harvester } := by
    simp only [keepHarvester, hstarts.interval, if_true]
    exact cell?_setCell h.isTarget _
  simp only [carryOut, hstart, endTurn, release]
  rw [hcell]
  simp only [started, hstarts.queue, keepHarvester, hstarts.interval, if_true, setCell, setTask,
    List.set_set]
  rfl

theorem isFinished_started (h : Calling lister call ref cell world) :
    isFinished call (world.started call ref cell result harvester) = true := by
  obtain ⟨hlt, -⟩ := List.getElem?_eq_some_iff.mp h.isCall
  simp [isFinished, started, hlt]

theorem not_isFinished (h : Calling lister call ref cell world) :
    isFinished call world = false := by
  simp [isFinished, h.isCall]

theorem Calling.step (h : Calling lister call ref cell world) {id : TaskId} {world' : World}
    (hidle : world.isAtDisk id = false) (hrun : world.runTask? id = some world') :
    Calling lister call ref cell world' ∧ Undisturbed world world' ∧
      totalCredit world' < totalCredit world := by
  have hid : some call ≠ some id := by
    rintro heq
    obtain rfl := Option.some.inj heq
    simp [isAtDisk, h.isCall] at hidle
  obtain ⟨task, htask⟩ : ∃ task, world.tasks[id]? = some task := by
    cases htask : world.tasks[id]? with
    | none => simp [runTask?, htask] at hrun
    | some task => exact ⟨task, rfl⟩
  rcases h.launched.loops id task htask hid with ⟨time, reply, hover⟩ | ⟨loopCell, hready⟩
  · simp [runTask?, htask, hover] at hrun
  · obtain ⟨holder, poller, phase, hturned, hprepared, hcredit⟩ :=
      turned_runTask? htask hready h.launched.isDisk h.launched.isFast hidle hrun
    have htarget : task.target ≠ ref := by
      intro hsame
      obtain ⟨before, -, hstage⟩ := hready.prepared
      refine hid (congrArg some (h.launched.apart _ _ _ _ h.isCall htask ?_ ?_ hsame.symm))
      · rintro ⟨time, reply, hover⟩
        cases hover
      · exact fun ⟨time, reply, hover⟩ => hstage.not_over time reply hover
    refine ⟨⟨hturned.launched h.launched htask hready hprepared, ?_, ?_⟩,
      hturned.undisturbed htask hready hprepared, hturned.credit_lt htask hcredit⟩
    · rw [hturned.getElem? htask, if_neg (fun heq => hid (congrArg some heq)), h.isCall]
    · rw [hturned.cell? hready.isTarget, if_neg (Ne.symm htarget), h.isTarget]

theorem advance_of_done {ahead : Option TaskId} {until? : Option Nat} {done : World → Bool}
    (hdone : done world = true) (fuel : Nat) : advance ahead fuel until? done world = world := by
  cases fuel with
  | zero => rfl
  | succ fuel => simp only [advance, hdone, if_true]

theorem advance_of_step {ahead : Option TaskId} {until? : Option Nat} {done : World → Bool}
    {world' : World} (hdone : done world = false) (hstep : world.runFirst? ahead = some world')
    (fuel : Nat) :
    advance ahead (fuel + 1) until? done world = advance ahead fuel until? done world' := by
  simp only [advance, hdone, Bool.false_eq_true, if_false, hstep]

/-- The call is carried out once the loops have done what they can do before. -/
theorem advance_calling (hstarts : StartsAs lister disk cell result harvester) {fuel : Nat}
    (h : Calling lister call ref cell world) (hdisk : world.bench.disk = disk)
    (hfuel : totalCredit world < fuel) :
    ∃ middle, Calling lister call ref cell middle ∧ Undisturbed world middle ∧
      advance (some call) fuel none (isFinished call) world =
        middle.started call ref cell result harvester := by
  induction fuel generalizing world with
  | zero => omega
  | succ fuel ih =>
    rcases runFirst?_calling h with ⟨id, world', hidle, hrun, hfirst⟩ | hfirst
    · obtain ⟨hcalling, hsame, hcredit⟩ := h.step hidle hrun
      obtain ⟨middle, hmiddle, hundisturbed, hadvance⟩ :=
        ih hcalling (hsame.disk.trans hdisk) (by omega)
      refine ⟨middle, hmiddle, hsame.trans hundisturbed, ?_⟩
      rw [advance_of_step (not_isFinished h) hfirst, hadvance]
    · refine ⟨world, h, .refl world, ?_⟩
      rw [carryOut_start h hstarts hdisk] at hfirst
      rw [advance_of_step (not_isFinished h) hfirst, advance_of_done (isFinished_started h)]

theorem Calling.target_ne (h : Calling lister call ref cell world) {id : TaskId} {task : Task}
    (htask : world.tasks[id]? = some task) (hopen : ¬task.IsOver) (hid : id ≠ call) :
    task.target ≠ ref := by
  intro hsame
  refine hid (h.launched.apart _ _ _ _ htask h.isCall hopen ?_ hsame)
  rintro ⟨time, reply, hover⟩
  cases hover

theorem Calling.launched_started (h : Calling lister call ref cell world) :
    Launched lister none (world.started call ref cell result harvester) := by
  obtain ⟨hlt, -⟩ := List.getElem?_eq_some_iff.mp h.isCall
  have htasks : ∀ (id : TaskId) (task : Task),
      (world.started call ref cell result harvester).tasks[id]? = some task → ¬task.IsOver →
        id ≠ call ∧ world.tasks[id]? = some task := by
    intro id task htask hopen
    simp only [started, List.getElem?_set] at htask
    split at htask
    · cases htask
      exact absurd ⟨_, _, rfl⟩ hopen
    · rename_i hne
      exact ⟨Ne.symm hne, htask⟩
  refine ⟨h.launched.isDisk, h.launched.isFast, fun id task htask _ => ?_, ?_⟩
  · by_cases hopen : task.IsOver
    · exact Or.inl hopen
    · obtain ⟨hid, hold⟩ := htasks id task htask hopen
      obtain ⟨loopCell, hready⟩ := (h.launched.loops id task hold
        fun heq => hid (Option.some.inj heq).symm).resolve_left hopen
      refine Or.inr ⟨loopCell, ?_, hready.lister, hready.interval, hready.changes, hready.queue,
        hready.prepared⟩
      have hne := h.target_ne hold hopen hid
      simp only [started, cell?, List.getElem?_set, if_neg (Ne.symm hne)]
      exact hready.isTarget
  · intro first second firstTask secondTask hfirst hsecond hfirstOpen hsecondOpen hsame
    exact h.launched.apart _ _ _ _ (htasks _ _ hfirst hfirstOpen).2
      (htasks _ _ hsecond hsecondOpen).2
      hfirstOpen hsecondOpen hsame

end Calls

section Fresh

variable {lister : Nat} {ref : HarvesterRef} {cell : HarvesterCell} {world : World}

/-- Nobody is at work on a harvester. -/
def IsFree (world : World) (ref : HarvesterRef) : Prop :=
  ∀ (id : TaskId) (task : Task), world.tasks[id]? = some task → ¬task.IsOver → task.target ≠ ref

theorem Launched.of_same (h : Launched lister none world) {world' : World}
    (hbench : world'.bench = world.bench) (htasks : world'.tasks = world.tasks)
    (hcells : ∀ (id : TaskId) (task : Task), world.tasks[id]? = some task → ¬task.IsOver →
      world'.cell? task.target = world.cell? task.target) : Launched lister none world' := by
  refine ⟨by rw [hbench]; exact h.isDisk, by rw [hbench]; exact h.isFast,
    fun id task htask hexcept => ?_, by rw [htasks]; exact h.apart⟩
  rw [htasks] at htask
  by_cases hopen : task.IsOver
  · exact Or.inl hopen
  · obtain ⟨loopCell, hready⟩ := (h.loops id task htask hexcept).resolve_left hopen
    refine Or.inr ⟨loopCell, ?_, hready.lister, hready.interval, hready.changes, hready.queue, ?_⟩
    · rw [hcells id task htask hopen, hready.isTarget]
    · rw [World.now, hbench]
      exact hready.prepared

theorem Launched.addTask (h : Launched lister none world) (task : Task)
    (hfree : world.IsFree task.target) {except : Option TaskId}
    (hready : except ≠ some world.tasks.length → ∃ cell,
      Ready lister { world with tasks := world.tasks ++ [task] } world.tasks.length task cell) :
    Launched lister except { world with tasks := world.tasks ++ [task] } := by
  refine ⟨h.isDisk, h.isFast, fun id other hother hexcept => ?_, ?_⟩
  · rcases getElem?_concat hother with hold | ⟨rfl, rfl⟩
    · refine (h.loops id other hold (by simp)).imp_right ?_
      rintro ⟨loopCell, hloop⟩
      exact ⟨loopCell, hloop.isTarget, hloop.lister, hloop.interval, hloop.changes, hloop.queue,
        hloop.prepared⟩
    · exact Or.inr (hready hexcept)
  · intro first second firstTask secondTask hfirst hsecond hfirstOpen hsecondOpen hsame
    rcases getElem?_concat hfirst with hold | ⟨hlast, hnew⟩ <;>
      rcases getElem?_concat hsecond with hold' | ⟨hlast', hnew'⟩
    · exact h.apart _ _ _ _ hold hold' hfirstOpen hsecondOpen hsame
    · exact absurd (hnew' ▸ hsame) (hfree _ _ hold hfirstOpen)
    · exact absurd (hnew ▸ hsame.symm) (hfree _ _ hold' hsecondOpen)
    · rw [hlast, hlast']

theorem credit_le (now : Nat) (task : Task) : credit now task ≤ 2 := by
  unfold credit
  split
  · omega
  · split <;> omega
  · omega

theorem totalCredit_le (world : World) : totalCredit world ≤ 2 * world.tasks.length := by
  rw [totalCredit]
  generalize world.now = now
  induction world.tasks with
  | nil => exact Nat.zero_le _
  | cons task rest ih =>
    have hfirst := credit_le now task
    rw [List.map_cons, List.sum_cons, List.length_cons]
    omega

theorem totalCredit_lt (world : World) :
    totalCredit world < (world.longestWait + 2) * world.stepsPerInstant :=
  calc totalCredit world ≤ 2 * world.tasks.length := totalCredit_le world
    _ < 2 * world.stepsPerInstant := by rw [stepsPerInstant]; omega
    _ ≤ (world.longestWait + 2) * world.stepsPerInstant :=
      Nat.mul_le_mul_right _ (Nat.le_add_left _ _)

/-- The world with a task that is about to start a harvester and waits for the disk. -/
def waitingToStart (world : World) (ref : HarvesterRef) (cell : HarvesterCell) : World :=
  { world with
    harvesters := world.harvesters.set ref { cell with holder := some world.tasks.length }
    tasks := world.tasks ++ [⟨ref, .call .start, .atDisk none⟩] }

section Starting

variable {result : Except HarvestError Unit} {harvester : Harvester}

theorem runTask?_spawnCall (hcell : world.cell? ref = some cell) (hholder : cell.holder = none)
    (hlooks : looksAtRoot cell.harvester .start = true)
    (hisDisk : world.bench.isDiskLister cell.lister = true) :
    (spawnCall ref .start world).2.runTask? world.tasks.length =
      some (world.waitingToStart ref cell) := by
  have htask : (spawnCall ref .start world).2.tasks[world.tasks.length]? =
      some ⟨ref, .call .start, .idle⟩ := by
    simp [spawnCall, World.addTask]
  have hcell' : (spawnCall ref .start world).2.cell? ref = some cell := hcell
  simp only [runTask?, htask, beginCall, takeTurn, hcell', hholder, perform]
  rw [if_pos ⟨hisDisk, hlooks⟩]
  simp [spawnCall, World.addTask, setCell, setTask, waitingToStart]

theorem calling_waitingToStart (h : Launched lister none world)
    (hcell : world.cell? ref = some cell) (hfree : world.IsFree ref) :
    Calling lister world.tasks.length ref { cell with holder := some world.tasks.length }
      (world.waitingToStart ref cell) := by
  have hheld : Launched lister none
    (world.setCell ref { cell with holder := some world.tasks.length }) := by
    refine h.of_same rfl rfl fun id task htask hopen => ?_
    simp only [cell?, setCell, List.getElem?_set, if_neg (Ne.symm (hfree id task htask hopen))]
  refine ⟨hheld.addTask ⟨ref, .call .start, .atDisk none⟩ hfree fun hne => absurd rfl hne,
    by simp [waitingToStart], ?_⟩
  exact cell?_setCell hcell _

/-- A world in which a harvester has been told to start: only the loops of others have moved. -/
structure AfterStart (lister : Nat) (ref : HarvesterRef) (cell : HarvesterCell)
    (harvester : Harvester) (world world' : World) : Prop where
  launched : Launched lister none world'
  disk : world'.bench.disk = world.bench.disk
  registry : world'.registry = world.registry
  listeners : world'.listeners = world.listeners
  isKept : world'.cell? ref = some { cell with harvester := harvester }
  harvesters : world'.harvesters.map HarvesterCell.harvester =
    (world.harvesters.map HarvesterCell.harvester).set ref harvester
  outlines : world'.tasks.map Task.outline = world.tasks.map Task.outline ++ [(ref, false)]

/-- A harvester on which nobody is at work is started at once, however far the loops of others
are. -/
theorem call_start (h : Launched lister none world) (hcell : world.cell? ref = some cell)
    (hfree : world.IsFree ref) (hholder : cell.holder = none)
    (hlooks : looksAtRoot cell.harvester .start = true)
    (hstarts : StartsAs lister world.bench.disk cell result harvester) :
    ∃ world', call ref .start world = (some (.started result), world') ∧
      AfterStart lister ref cell harvester world world' := by
  have hrun := runTask?_spawnCall hcell hholder hlooks (hstarts.overLister ▸ h.isDisk)
  have hcalling := calling_waitingToStart h hcell hfree
  have hheldStarts : StartsAs lister world.bench.disk
    { cell with holder := some world.tasks.length }
      result harvester :=
    ⟨hstarts.overLister, hstarts.queue, hstarts.start, hstarts.interval⟩
  obtain ⟨middle, hmiddle, hsame, hadvance⟩ := advance_calling hheldStarts hcalling rfl
    (totalCredit_lt (world.waitingToStart ref cell))
  obtain ⟨hlt, -⟩ := List.getElem?_eq_some_iff.mp hmiddle.isCall
  have hcall : call ref .start world =
      (((middle.started world.tasks.length ref { cell with holder := some world.tasks.length }
          result harvester).replyOf? world.tasks.length).map Prod.snd,
        middle.started world.tasks.length ref { cell with holder := some world.tasks.length }
          result harvester) := by
    rw [← hadvance, ← runUntilFinished, ← Option.getD_some (a := world.waitingToStart ref cell)
      (b := (spawnCall ref .start world).2), ← hrun]
    rfl
  refine ⟨_, hcall.trans (congrArg (·, _) ?_), hmiddle.launched_started, hsame.disk,
    hsame.registry, hsame.listeners, ?_, ?_, ?_⟩
  · simp [replyOf?, started, hlt]
  · rw [hholder]
    exact cell?_setCell hmiddle.isTarget _
  · simp only [started, List.map_set, hsame.harvesters, waitingToStart, List.set_set]
  · calc (middle.tasks.set world.tasks.length
          ⟨ref, .call .start, .finished middle.now (some (.started result))⟩).map Task.outline
      _ = middle.tasks.map Task.outline := map_set_self hmiddle.isCall rfl
      _ = world.tasks.map Task.outline ++ [(ref, false)] := by
          rw [hsame.outlines, waitingToStart, List.map_append]
          rfl

end Starting

theorem Launched.target_lt (h : Launched lister none world) {id : TaskId} {task : Task}
    (htask : world.tasks[id]? = some task) (hopen : ¬task.IsOver) :
    task.target < world.harvesters.length := by
  obtain ⟨loopCell, hready⟩ := (h.loops id task htask (by simp)).resolve_left hopen
  exact (List.getElem?_eq_some_iff.mp hready.isTarget).1

theorem Launched.isFree_new (h : Launched lister none world) :
    world.IsFree world.harvesters.length :=
  fun _ _ htask hopen => Nat.ne_of_lt (h.target_lt htask hopen)

theorem Launched.addHarvester (h : Launched lister none world) (config : HarvesterConfig)
    (other : Nat) (store : StoreRef) :
    Launched lister none (World.addHarvester config other store world).2 :=
  h.of_same rfl rfl fun _ _ htask hopen => List.getElem?_append_left (h.target_lt htask hopen)

theorem Launched.setCell (h : Launched lister none world) (hfree : world.IsFree ref)
    (cell : HarvesterCell) : Launched lister none (world.setCell ref cell) := by
  refine h.of_same rfl rfl fun id task htask hopen => ?_
  simp only [cell?, World.setCell, List.getElem?_set, if_neg (Ne.symm (hfree id task htask hopen))]

theorem Launched.spawnPoller (h : Launched lister none world) (hfree : world.IsFree ref)
    (hcell : world.cell? ref = some cell) (hlister : cell.lister = lister)
    (hinterval : cell.harvester.interval ≠ 0) (hchanges : cell.changes = 0)
    (hqueue : cell.queue = []) (hholder : cell.holder = none) :
    Launched lister none (World.spawnPoller ref world).2 :=
  h.addTask ⟨ref, .loop Poller.spawned, .idle⟩ hfree fun _ =>
    ⟨cell, hcell, hlister, hinterval, hchanges, hqueue, Poller.spawned, rfl, by
      rw [hholder]
      exact .fresh⟩

/-- Whether a task is a loop that goes on polling a harvester. -/
def Polls (world : World) (task : TaskId) (ref : HarvesterRef) : Prop :=
  world.tasks[task]?.map Task.outline = some (ref, true)

theorem Launched.isFree_of_not_polls (h : Launched lister none world)
    (hpolls : ∀ task, ¬world.Polls task ref) : world.IsFree ref := by
  rintro id ⟨target, work, phase⟩ htask hopen rfl
  obtain ⟨loopCell, hready⟩ := (h.loops id _ htask (by simp)).resolve_left hopen
  obtain ⟨poller, hwork, hprepared⟩ := hready.prepared
  simp only at hwork hprepared
  subst hwork
  refine hpolls id ?_
  rw [Polls, htask, Option.map_some, outline_loop hprepared.not_over]

theorem not_polls_of_isOver {id : TaskId} (h : ∀ task, world.tasks[id]? = some task → task.IsOver) :
    ¬world.Polls id ref := by
  intro hpolls
  obtain ⟨⟨target, work, phase⟩, htask, houtline⟩ := Option.map_eq_some_iff.mp hpolls
  obtain ⟨time, reply, hphase⟩ := h _ htask
  simp only at hphase
  subst hphase
  cases work <;> cases houtline

theorem polls_iff_of_concat {world' : World} {target : HarvesterRef} {goesOn : Bool}
    (h : world'.tasks.map Task.outline = world.tasks.map Task.outline ++ [(target, goesOn)])
    (id : TaskId) :
    world'.Polls id ref ↔
      world.Polls id ref ∨ id = world.tasks.length ∧ target = ref ∧ goesOn = true := by
  rw [Polls, ← List.getElem?_map, h, getElem?_concat_eq, List.length_map, Polls,
    ← List.getElem?_map]
  split
  · rename_i hlast
    rw [hlast, List.getElem?_eq_none (by simp)]
    simp
  · rename_i hne
    simp [hne]

theorem polls_spawnPoller (target : HarvesterRef) (id : TaskId) :
    (World.spawnPoller target world).2.Polls id ref ↔
      world.Polls id ref ∨ id = world.tasks.length ∧ target = ref := by
  have houtlines : (World.spawnPoller target world).2.tasks.map Task.outline =
      world.tasks.map Task.outline ++ [(target, true)] := List.map_append
  rw [polls_iff_of_concat houtlines, and_iff_left rfl]

end Fresh

end World

end CatalogSync.Simulation
