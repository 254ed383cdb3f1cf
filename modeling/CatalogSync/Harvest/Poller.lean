/-!
The loop that polls one harvester at a fixed interval. It ticks on a grid: a tick that comes late
makes the loop skip the grid points that have passed. A changed interval starts a new grid; a loop
that is shut down finishes the poll it is in. Times are in milliseconds.
-/

namespace CatalogSync

/-- A grid of times: the next one, and the distance between two. -/
structure Ticker where
  due : Nat
  period : Nat
  deriving DecidableEq, Repr

namespace Ticker

/-- A tick taken no later than this after it was due is on time. -/
def tolerance : Nat := 5

/-- The grid after a tick has been taken: the next point if the tick was on time, or else the first
point that still lies ahead. -/
def take (ticker : Ticker) (now : Nat) : Ticker :=
  if now ≤ ticker.due + tolerance then { ticker with due := ticker.due + ticker.period }
  else
    let passed := (now - ticker.due) / ticker.period
    { ticker with due := ticker.due + (passed + 1) * ticker.period }

end Ticker

/-- What a poll loop is doing. -/
inductive PollerStage where
  /-- It has not run yet. -/
  | fresh
  /-- It waits for the next tick, a change of the interval or the end. -/
  | waiting (ticker : Ticker)
  /-- Its harvester is being polled. -/
  | polling (ticker : Ticker)
  | ended
  deriving DecidableEq, Repr

structure Poller where
  stage : PollerStage
  /-- How many changes of the interval the loop has taken notice of. -/
  seen : Nat
  stopping : Bool
  deriving DecidableEq, Repr

namespace Poller

def spawned : Poller := ⟨.fresh, 0, false⟩

/-- Times end here: seconds are counted in 64 bits with a sign, from before the clock starts. -/
def endOfTime : Nat := 0x7FFF_FFFF_FFFF_FFFF * 1000

/-- Asks the loop to end. -/
def requestStop (poller : Poller) : Poller :=
  { poller with stopping := true }

/-- The first run: the first tick is due at once. There is no grid without a distance. -/
def begin (poller : Poller) (now interval changes : Nat) : Poller :=
  if interval = 0 then { poller with stage := .ended }
  else { poller with stage := .waiting ⟨now, interval⟩, seen := changes }

/-- Takes notice of a changed interval: the next tick is due after the new interval. A time that
does not exist ends the loop. -/
def followInterval (poller : Poller) (now interval changes : Nat) : Poller :=
  if interval = 0 ∨ endOfTime ≤ now + interval then { poller with stage := .ended, seen := changes }
  else { poller with stage := .waiting ⟨now + interval, interval⟩, seen := changes }

/-- What a waiting loop does next at a time, if it does anything: it ends, or takes notice of a
changed interval, or takes the tick that is due and polls. -/
def next? (poller : Poller) (now interval changes : Nat) : Option Poller :=
  match poller.stage with
  | .fresh => some (poller.begin now interval changes)
  | .waiting ticker =>
    if poller.stopping then some { poller with stage := .ended }
    else if poller.seen ≠ changes then some (poller.followInterval now interval changes)
    else if ticker.due ≤ now then some { poller with stage := .polling (ticker.take now) }
    else none
  | .polling _ => none
  | .ended => none

/-- What a loop does when its poll is over. -/
def pollDone (poller : Poller) : Poller :=
  match poller.stage with
  | .polling ticker =>
    if poller.stopping then { poller with stage := .ended }
    else { poller with stage := .waiting ticker }
  | _ => poller

/-- When the loop wants to run next, if nothing else happens. -/
def wakeTime? (poller : Poller) : Option Nat :=
  match poller.stage with
  | .waiting ticker => some ticker.due
  | _ => none

end Poller

end CatalogSync
