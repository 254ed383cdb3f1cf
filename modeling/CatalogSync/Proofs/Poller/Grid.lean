import CatalogSync.Harvest.Poller
import CatalogSync.Proofs.Lists
import Mathlib.Data.List.Chain
import Mathlib.Order.Bounds.Basic

/-!
A poll loop on a clock, as long as nobody changes its interval or ends it. Its polls keep to one
grid of times: points that have passed are skipped, and no poll is made up for.
-/

namespace CatalogSync

namespace Ticker

def pointsAfter (origin period time : Nat) : Set Nat :=
  {point | (∃ k, point = origin + k * period) ∧ time < point}

/-- The number of the cell of a grid in which a time lies. -/
def cellOf (origin period time : Nat) : Nat :=
  (time - origin) / period

variable {origin period time : Nat}

theorem le_of_cellOf (htime : origin ≤ time) :
    origin + cellOf origin period time * period ≤ time := by
  have hmul : (time - origin) / period * period ≤ time - origin := Nat.div_mul_le_self _ _
  unfold cellOf
  omega

theorem lt_of_cellOf (hperiod : 0 < period) :
    time < origin + (cellOf origin period time + 1) * period := by
  have hmul : time - origin < ((time - origin) / period + 1) * period := by
    rw [Nat.mul_comm]
    exact Nat.lt_mul_div_succ _ hperiod
  unfold cellOf
  omega

theorem cellOf_eq {k : Nat} (hlow : origin + k * period ≤ time)
    (hhigh : time < origin + (k + 1) * period) : cellOf origin period time = k := by
  unfold cellOf
  apply Nat.div_eq_of_lt_le
  · omega
  · omega

theorem isLeast_pointsAfter (hperiod : 0 < period) (htime : origin ≤ time) :
    IsLeast (pointsAfter origin period time)
      (origin + (cellOf origin period time + 1) * period) := by
  refine ⟨⟨⟨_, rfl⟩, lt_of_cellOf hperiod⟩, ?_⟩
  rintro _ ⟨⟨k, rfl⟩, hk⟩
  have hbelow : cellOf origin period time * period < k * period := by
    have hlow := @le_of_cellOf origin period time htime
    omega
  have hlt : cellOf origin period time < k := Nat.lt_of_mul_lt_mul_right hbelow
  have hmul : (cellOf origin period time + 1) * period ≤ k * period :=
    Nat.mul_le_mul_right _ hlt
  omega

theorem period_take (ticker : Ticker) (now : Nat) : (ticker.take now).period = ticker.period := by
  unfold take
  split <;> rfl

theorem due_take {ticker : Ticker} {k now : Nat} (hperiod : tolerance < ticker.period)
    (hgrid : ticker.due = origin + k * ticker.period) (hdue : ticker.due ≤ now) :
    (ticker.take now).due = origin + (cellOf origin ticker.period now + 1) * ticker.period := by
  unfold take
  split
  · rename_i hontime
    have hcell : cellOf origin ticker.period now = k := by
      apply cellOf_eq
      · omega
      · rw [Nat.succ_mul]
        omega
    rw [hcell, Nat.succ_mul, hgrid]
    exact Nat.add_assoc _ _ _
  · have hcell : cellOf origin ticker.period now = k + (now - ticker.due) / ticker.period := by
      have hsplit : now - origin = now - ticker.due + k * ticker.period := by omega
      rw [cellOf, hsplit, Nat.add_mul_div_right _ _ (by omega : 0 < ticker.period), Nat.add_comm]
    rw [hcell]
    simp only [Nat.add_mul] at *
    omega

end Ticker

namespace Poller

open Ticker

/-- A poll with the time for which its tick was due. -/
structure TimedPoll where
  due : Nat
  start : Nat
  finish : Nat

def TimedPoll.duration (poll : TimedPoll) : Nat :=
  poll.finish - poll.start

/-- A loop from one time to another, with the polls that it makes. The clock stands still while the
loop has anything to do; a poll takes any time. -/
inductive OnClock (interval changes : Nat) :
    Nat → Poller → List TimedPoll → Nat → Poller → Prop where
  | rest {now : Nat} {poller : Poller} : OnClock interval changes now poller [] now poller
  | acts {now last : Nat} {poller next final : Poller} {polls : List TimedPoll}
      (hnext : poller.next? now interval changes = some next)
      (hquiet : ∀ ticker, next.stage ≠ .polling ticker)
      (hrun : OnClock interval changes now next polls last final) :
      OnClock interval changes now poller polls last final
  | waits {now later last : Nat} {poller final : Poller} {polls : List TimedPoll}
      (hlater : now ≤ later)
      (hidle : ∀ time, now ≤ time → time < later → poller.next? time interval changes = none)
      (hrun : OnClock interval changes later poller polls last final) :
      OnClock interval changes now poller polls last final
  | polls {now duration last : Nat} {poller next final : Poller} {ticker after : Ticker}
      {polls : List TimedPoll} (hwaiting : poller.stage = .waiting ticker)
      (hnext : poller.next? now interval changes = some next)
      (hpolling : next.stage = .polling after)
      (hrun : OnClock interval changes (now + duration) next.pollDone polls last final) :
      OnClock interval changes now poller (⟨ticker.due, now, now + duration⟩ :: polls) last final

structure KeepsToGrid (origin period : Nat) (polls : List TimedPoll) : Prop where
  first : ∀ poll ∈ polls.head?, poll.due = origin ∧ poll.start = origin
  next : polls.IsChain fun before after => ∃ point,
    IsLeast (pointsAfter origin period before.start) point ∧
      after.due = point ∧ after.start = max before.finish point
  dues : ∃ numbers : List Nat, numbers.Pairwise (· < ·) ∧
    polls.map TimedPoll.due = numbers.map fun k => origin + k * period
  cells : ∀ k, (polls.filter fun poll =>
    origin + k * period ≤ poll.start ∧ poll.start < origin + (k + 1) * period).length ≤ 1
  apart : polls.Pairwise fun before after => before.finish ≤ after.start

/-- Polls that are made one after another from a time on; the first one is due at the point with a
number. -/
def InTurn (origin period : Nat) : Nat → Nat → List TimedPoll → Prop
  | _, _, [] => True
  | number, now, poll :: polls =>
    poll.due = origin + number * period ∧ poll.start = max now poll.due ∧
      poll.start ≤ poll.finish ∧
      InTurn origin period (cellOf origin period poll.start + 1) poll.finish polls

section Runs

variable {origin interval changes number now last : Nat} {ticker : Ticker}
  {polls : List TimedPoll} {final : Poller}

theorem next?_waiting (ticker : Ticker) (now interval changes : Nat) :
    next? ⟨.waiting ticker, changes, false⟩ now interval changes =
      if ticker.due ≤ now then some ⟨.polling (ticker.take now), changes, false⟩ else none := by
  simp [next?]

theorem inTurn_of_waiting (hperiod : tolerance < ticker.period)
    (hgrid : ticker.due = origin + number * ticker.period)
    (hrun : OnClock interval changes now ⟨.waiting ticker, changes, false⟩ polls last final) :
    InTurn origin ticker.period number now polls := by
  generalize hpoller : (⟨.waiting ticker, changes, false⟩ : Poller) = poller at hrun
  induction hrun generalizing ticker number with
  | rest => trivial
  | acts hnext hquiet =>
    subst hpoller
    rw [next?_waiting] at hnext
    split at hnext
    · cases hnext
      exact absurd rfl (hquiet _)
    · cases hnext
  | @waits now later last poller final polls hlater hidle _ ih =>
    subst hpoller
    have hsame : max later ticker.due = max now ticker.due := by
      rcases hlater.eq_or_lt with rfl | hlt
      · rfl
      -- The loop has had nothing to do until now, so its tick is not overdue.
      · have hnone := hidle (later - 1) (by omega) (by omega)
        rw [next?_waiting] at hnone
        split at hnone
        · cases hnone
        · omega
    have hturn := ih hperiod hgrid rfl
    cases polls with
    | nil => trivial
    | cons poll polls =>
      obtain ⟨hdue, hstart, hrest⟩ := hturn
      refine ⟨hdue, ?_, hrest⟩
      rw [hstart, hdue, ← hgrid, hsame]
  | polls hwaiting hnext hpolling _ ih =>
    subst hpoller
    cases hwaiting
    rw [next?_waiting] at hnext
    split at hnext
    · rename_i hdue
      cases hnext
      refine ⟨hgrid, (max_eq_left hdue).symm, Nat.le_add_right _ _, ?_⟩
      have hturn := ih ((period_take ..).symm ▸ hperiod)
        ((period_take ..).symm ▸ due_take hperiod hgrid hdue) rfl
      rw [period_take] at hturn
      exact hturn
    · cases hnext

theorem not_polling_waiting (after : Ticker) (poller : Poller)
    (hwaiting : poller.stage = .waiting after) : ∀ ticker, poller.stage ≠ .polling ticker := by
  intro ticker hpolling
  rw [hwaiting] at hpolling
  cases hpolling

theorem next?_spawned (hinterval : interval ≠ 0) (now : Nat) :
    next? spawned now interval changes = some ⟨.waiting ⟨now, interval⟩, changes, false⟩ := by
  simp [next?, spawned, begin, hinterval]

theorem inTurn_of_spawned (hinterval : tolerance < interval)
    (hrun : OnClock interval changes origin spawned polls last final) :
    InTurn origin interval 0 origin polls := by
  have hbegin := @next?_spawned interval changes (by omega)
  generalize hpoller : spawned = poller at hrun
  induction hrun with
  | rest => trivial
  | acts hnext _ hrun =>
    subst hpoller
    rw [hbegin] at hnext
    cases hnext
    exact inTurn_of_waiting hinterval (by simp) hrun
  | waits hlater hidle _ ih =>
    subst hpoller
    rcases hlater.eq_or_lt with rfl | hlt
    · exact ih rfl
    · have hnone := hidle _ le_rfl hlt
      rw [hbegin] at hnone
      cases hnone
  | polls hwaiting =>
    subst hpoller
    cases hwaiting

theorem onClock_tick (duration : Nat) (hdue : ticker.due ≤ now)
    (hrun : OnClock interval changes (now + duration) ⟨.waiting (ticker.take now), changes, false⟩
      polls last final) :
    OnClock interval changes now ⟨.waiting ticker, changes, false⟩
      (⟨ticker.due, now, now + duration⟩ :: polls) last final := by
  have hnext := next?_waiting ticker now interval changes
  rw [if_pos hdue] at hnext
  exact .polls rfl hnext rfl hrun

theorem onClock_wait (later : Nat) (hlater : now ≤ later) (hdue : later ≤ max now ticker.due)
    (hrun : OnClock interval changes later ⟨.waiting ticker, changes, false⟩ polls last final) :
    OnClock interval changes now ⟨.waiting ticker, changes, false⟩ polls last final := by
  refine .waits hlater ?_ hrun
  intro time hfrom hbefore
  rw [next?_waiting, if_neg]
  omega

theorem exists_onClock_waiting (durations : List Nat) (now : Nat) (ticker : Ticker) :
    ∃ polls last final, OnClock interval changes now ⟨.waiting ticker, changes, false⟩ polls last
      final ∧ polls.map TimedPoll.duration = durations := by
  induction durations generalizing now ticker with
  | nil => exact ⟨[], _, _, .rest, rfl⟩
  | cons duration durations ih =>
    obtain ⟨polls, last, final, hrun, hdurations⟩ :=
      ih (max now ticker.due + duration) (ticker.take (max now ticker.due))
    refine ⟨_, last, final, onClock_wait _ (le_max_left _ _) le_rfl
      (onClock_tick duration (le_max_right _ _) hrun), ?_⟩
    rw [List.map_cons, hdurations, TimedPoll.duration, Nat.add_sub_cancel_left]

end Runs

section Grid

variable {origin period number now : Nat} {polls : List TimedPoll}

theorem InTurn.le_start (h : InTurn origin period number now polls) :
    ∀ poll ∈ polls, now ≤ poll.start := by
  induction polls generalizing number now with
  | nil => exact List.forall_mem_nil _
  | cons first polls ih =>
    obtain ⟨-, hstart, hfinish, hrest⟩ := h
    have hfirst : now ≤ first.start := hstart ▸ le_max_left _ _
    intro poll hpoll
    rcases List.mem_cons.mp hpoll with rfl | hlater
    · exact hfirst
    · have hafter := ih hrest poll hlater
      omega

theorem InTurn.le_cellOf (h : InTurn origin period number now polls) (hperiod : 0 < period) :
    ∀ poll ∈ polls, number ≤ cellOf origin period poll.start := by
  induction polls generalizing number now with
  | nil => exact List.forall_mem_nil _
  | cons first polls ih =>
    obtain ⟨hdue, hstart, -, hrest⟩ := h
    have hfirst : number ≤ cellOf origin period first.start := by
      have hle : origin + number * period ≤ first.start := hdue ▸ hstart ▸ le_max_right _ _
      exact (Nat.le_div_iff_mul_le hperiod).mpr (by omega)
    intro poll hpoll
    rcases List.mem_cons.mp hpoll with rfl | hlater
    · exact hfirst
    · have hafter := ih hrest poll hlater
      omega

theorem InTurn.apart (h : InTurn origin period number now polls) :
    polls.Pairwise fun before after => before.finish ≤ after.start := by
  induction polls generalizing number now with
  | nil => exact .nil
  | cons first polls ih =>
    obtain ⟨-, -, -, hrest⟩ := h
    exact .cons hrest.le_start (ih hrest)

theorem InTurn.cells (h : InTurn origin period number now polls) (hperiod : 0 < period) :
    polls.Pairwise fun before after =>
      cellOf origin period before.start < cellOf origin period after.start := by
  induction polls generalizing number now with
  | nil => exact .nil
  | cons first polls ih =>
    obtain ⟨-, -, -, hrest⟩ := h
    exact .cons (hrest.le_cellOf hperiod) (ih hrest)

theorem InTurn.dues (h : InTurn origin period number now polls) (hperiod : 0 < period) :
    ∃ numbers : List Nat, (∀ k ∈ numbers, number ≤ k) ∧ numbers.Pairwise (· < ·) ∧
      polls.map TimedPoll.due = numbers.map fun k => origin + k * period := by
  induction polls generalizing number now with
  | nil => exact ⟨[], List.forall_mem_nil _, .nil, rfl⟩
  | cons first polls ih =>
    have hcell := h.le_cellOf hperiod first List.mem_cons_self
    obtain ⟨hdue, -, -, hrest⟩ := h
    obtain ⟨numbers, hfrom, hincreasing, hdues⟩ := ih hrest
    have hlater : ∀ k ∈ numbers, number < k := by
      intro k hk
      have hle := hfrom k hk
      omega
    refine ⟨number :: numbers, ?_, .cons hlater hincreasing, ?_⟩
    · intro k hk
      rcases List.mem_cons.mp hk with rfl | hk
      · exact le_rfl
      · exact (hlater k hk).le
    · rw [List.map_cons, List.map_cons, hdue, hdues]

theorem InTurn.next (h : InTurn origin period number now polls) (hperiod : 0 < period)
    (hnow : origin ≤ now) :
    polls.IsChain fun before after => ∃ point,
      IsLeast (pointsAfter origin period before.start) point ∧
        after.due = point ∧ after.start = max before.finish point := by
  induction polls generalizing number now with
  | nil => exact .nil
  | cons first polls ih =>
    have hstart := h.le_start first List.mem_cons_self
    obtain ⟨-, -, hfinish, hrest⟩ := h
    have hchain := ih hrest (by omega)
    cases polls with
    | nil => exact .singleton _
    | cons second polls =>
      obtain ⟨hdue, hsecond, -⟩ := hrest
      refine .cons_cons ⟨_, isLeast_pointsAfter hperiod (by omega), hdue, ?_⟩ hchain
      rw [hsecond, hdue]

theorem keepsToGrid_of_inTurn (hperiod : 0 < period) (h : InTurn origin period 0 origin polls) :
    KeepsToGrid origin period polls := by
  constructor
  · cases polls with
    | nil =>
      rintro _ ⟨⟩
    | cons poll polls =>
      rintro _ ⟨⟩
      obtain ⟨hdue, hstart, -⟩ := h
      have hfirst : poll.due = origin := by simpa using hdue
      refine ⟨hfirst, ?_⟩
      rw [hstart, hfirst, max_self]
  · exact h.next hperiod le_rfl
  · obtain ⟨numbers, -, hincreasing, hdues⟩ := h.dues hperiod
    exact ⟨numbers, hincreasing, hdues⟩
  · intro k
    apply length_filter_le_one (h.cells hperiod) k
    intro poll hpoll
    obtain ⟨hlow, hhigh⟩ := of_decide_eq_true hpoll
    exact cellOf_eq hlow hhigh
  · exact h.apart

end Grid

/-- A loop that is spawned at a time, and whose interval stays the same, begins its first poll at
once. It begins every other one as soon as the one before is over and the grid has come to a point
that was not yet reached when that one began. However long its polls take, it never stops
polling. -/
theorem polls_keep_to_grid (period origin changes : Nat) (hperiod : 5 < period) :
    (∀ durations : List Nat, ∃ polls last final,
      OnClock period changes origin spawned polls last final ∧
        polls.map TimedPoll.duration = durations) ∧
      ∀ polls last final, OnClock period changes origin spawned polls last final →
        KeepsToGrid origin period polls := by
  constructor
  · intro durations
    obtain ⟨polls, last, final, hrun, hdurations⟩ :=
      @exists_onClock_waiting period changes durations origin ⟨origin, period⟩
    have hbegin := @next?_spawned period changes (by omega) origin
    exact ⟨polls, last, final, .acts hbegin (not_polling_waiting _ _ rfl) hrun, hdurations⟩
  · intro polls last final hrun
    exact keepsToGrid_of_inTurn (by omega) (inTurn_of_spawned hperiod hrun)

theorem uneven_polls_keep_to_grid :
    5 < 60 ∧ ∃ polls last final, OnClock 60 0 100 spawned polls last final ∧
      polls.map TimedPoll.start = [100, 230, 280, 343, 400] ∧ KeepsToGrid 100 60 polls := by
  have hwaits : OnClock 60 0 350 ⟨.waiting ⟨400, 60⟩, 0, false⟩ [⟨400, 400, 400⟩] 400
      ⟨.waiting ⟨460, 60⟩, 0, false⟩ :=
    onClock_wait 400 (by decide) (by decide) (onClock_tick 0 le_rfl .rest)
  have hlate : OnClock 60 0 280 ⟨.waiting ⟨280, 60⟩, 0, false⟩
      [⟨280, 280, 343⟩, ⟨340, 343, 350⟩, ⟨400, 400, 400⟩] 400 ⟨.waiting ⟨460, 60⟩, 0, false⟩ :=
    onClock_tick 63 le_rfl (onClock_tick 7 (by decide) hwaits)
  have hrun : OnClock 60 0 100 spawned
      [⟨100, 100, 230⟩, ⟨160, 230, 280⟩, ⟨280, 280, 343⟩, ⟨340, 343, 350⟩, ⟨400, 400, 400⟩] 400
      ⟨.waiting ⟨460, 60⟩, 0, false⟩ :=
    .acts (next?_spawned (by decide) 100) (not_polling_waiting _ _ rfl)
      (onClock_tick 130 le_rfl (onClock_tick 50 (by decide) hlate))
  exact ⟨by decide, _, _, _, hrun, rfl, (polls_keep_to_grid 60 100 0 (by decide)).2 _ _ _ hrun⟩

end Poller

end CatalogSync
