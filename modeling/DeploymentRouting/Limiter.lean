import DeploymentRouting.Limits
import DeploymentRouting.Table
/-!
Admission of calls under limits, in fixed windows. Every key has a cell with the
calls in flight and the counts of its current window. A window starts with the
cell and lasts one window length, and counts start again from zero with the next
one, so that a burst across the edge of two windows is accepted.

An admission takes its place in the counts at once, with an estimated token cost,
and is settled later with the actual one. It belongs to the cell that granted it:
a cell has a serial number of its own and counts the admissions that are still
out on it. Each function below is one atomic step, and the instant at which it
happens is one of its arguments.
-/
namespace DeploymentRouting

/-- Whose limits an admission is under. Deployments and callers never share a cell, even
under one name. -/
inductive Party where
  | deployment
  | caller
deriving DecidableEq, Repr

/-- The counts of one cell. The generation is the number of windows that have passed since
the cell was made. -/
structure Counters where
  inFlight : Nat := 0
  start : Instant
  generation : Nat := 0
  requests : Nat := 0
  tokens : Nat := 0
deriving DecidableEq, Repr

namespace Counters

/-- Whole windows between the start of the current one and an instant. -/
def windowsPassed (counters : Counters) (window : Duration) (now : Instant) : Nat :=
  (now - counters.start) / max window 1

/-- Moves on to the window of an instant, if that is a later one. A move is never longer than
the greatest 32-bit number of windows; the generation counts them all. -/
def roll (counters : Counters) (window : Duration) (now : Instant) : Counters :=
  let passed := counters.windowsPassed window now
  if passed = 0 then counters
  else
    { counters with
      start := counters.start + window * min passed Counter.top32
      generation := Counter.add64 counters.generation passed
      requests := 0
      tokens := 0 }

def load (counters : Counters) : Load :=
  ⟨counters.inFlight, counters.requests, counters.tokens⟩

/-- The counts as they stand at an instant. Those of a window that is over read as zero. -/
def loadAt (counters : Counters) (window : Duration) (now : Instant) : Load :=
  if counters.windowsPassed window now = 0 then counters.load
  else { counters.load with requests := 0, tokens := 0 }

/-- Counts one more call. -/
def take (counters : Counters) (cost : Nat) : Counters :=
  { counters with
    inFlight := counters.inFlight + 1
    requests := counters.requests + 1
    tokens := Counter.add64 counters.tokens cost }

/-- Gives back the place of a call and puts the actual cost in the place of the estimate. A
call of an earlier window changes no token count. -/
def giveBack (counters : Counters) (window : Duration) (now : Instant)
    (generation estimate actual : Nat) : Counters :=
  let counters := { counters with inFlight := counters.inFlight - 1 }.roll window now
  if counters.generation = generation then
    { counters with tokens := Counter.add64 (counters.tokens - estimate) actual }
  else counters

end Counters

/-- The counts of one key, and the number of admissions that are out on them. -/
structure Cell where
  serial : Nat
  counters : Counters
  holders : Nat := 0
deriving DecidableEq, Repr

/-- A place that was granted and has to be settled once. -/
structure Admission where
  party : Party
  key : String
  serial : Nat
  estimate : Nat
  generation : Nat
deriving DecidableEq, Repr

structure Limiter where
  window : Duration
  deployments : Table Cell := ∅
  callers : Table Cell := ∅
  /-- The serial number of the next new cell. -/
  fresh : Nat := 0

namespace Limiter

/-- An empty limiter. No window is shorter than a millisecond. -/
def new (window : Duration) : Limiter := { window := max window (Duration.ofMillis 1) }

/-- The window of a limiter that is given none. -/
def defaultWindow : Duration := Duration.ofSeconds 60

def cells (limiter : Limiter) : Party → Table Cell
  | .deployment => limiter.deployments
  | .caller => limiter.callers

def withCells (limiter : Limiter) (party : Party) (cells : Table Cell) : Limiter :=
  match party with
  | .deployment => { limiter with deployments := cells }
  | .caller => { limiter with callers := cells }

def cell? (limiter : Limiter) (party : Party) (key : String) : Option Cell :=
  (limiter.cells party).get? key

def store (limiter : Limiter) (party : Party) (key : String) (cell : Cell) : Limiter :=
  limiter.withCells party ((limiter.cells party).insert key cell)

/-- The cell of a key. A key that has none gets one, whose first window starts now. -/
def cellFor (limiter : Limiter) (party : Party) (key : String) (now : Instant) :
    Limiter × Cell :=
  match limiter.cell? party key with
  | some cell => (limiter, cell)
  | none =>
      ({ limiter with fresh := limiter.fresh + 1 },
        { serial := limiter.fresh, counters := { start := now } })

/-- Asks for a place. A refusal takes no place, but it does make the cell and move its
window on. -/
def reserve (limiter : Limiter) (party : Party) (key : String) (limits : Limits) (cost : Nat)
    (now : Instant) : Limiter × Except Refusal Admission :=
  let (limiter, cell) := limiter.cellFor party key now
  let counters := cell.counters.roll limiter.window now
  match limits.refusal? counters.load cost with
  | some refusal => (limiter.store party key { cell with counters }, .error refusal)
  | none =>
      (limiter.store party key
          { cell with counters := counters.take cost, holders := cell.holders + 1 },
        .ok
          { party, key
            serial := cell.serial
            estimate := cost
            generation := counters.generation })

/-- Settles an admission with its actual cost. A cell that its key no longer leads to is out
of sight, and nothing that can be seen changes. -/
def settle (limiter : Limiter) (admission : Admission) (actual : Nat) (now : Instant) : Limiter :=
  match limiter.cell? admission.party admission.key with
  | none => limiter
  | some cell =>
      if cell.serial = admission.serial then
        limiter.store admission.party admission.key
          { cell with
            counters := cell.counters.giveBack limiter.window now admission.generation
              admission.estimate actual
            holders := cell.holders - 1 }
      else limiter

/-- Gives up an admission unsettled: its estimate stands as its cost. -/
def abandon (limiter : Limiter) (admission : Admission) (now : Instant) : Limiter :=
  limiter.settle admission admission.estimate now

/-- The counts of a key at an instant. A key without a cell has none. -/
def load (limiter : Limiter) (party : Party) (key : String) (now : Instant) : Load :=
  match limiter.cell? party key with
  | some cell => cell.counters.loadAt limiter.window now
  | none => {}

/-- Whether a deployment would get a place now. Nothing changes by asking. -/
def admits (limiter : Limiter) (key : String) (limits : Limits) (cost : Nat) (now : Instant) :
    Bool :=
  limits.isUnlimited || limits.allows (limiter.load .deployment key now) cost

/-- Drops the cell of a deployment, unless an admission is still out on it, and tells whether
there was one to drop. -/
def forget (limiter : Limiter) (key : String) : Limiter × Bool :=
  match limiter.cell? .deployment key with
  | some cell =>
      if cell.holders = 0 then
        (limiter.withCells .deployment (limiter.deployments.erase key), true)
      else (limiter, false)
  | none => (limiter, false)

end Limiter

end DeploymentRouting
