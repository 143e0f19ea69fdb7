import DeploymentRouting.Limiter
/-!
What the operations of a limiter do to its cells. An operation touches the cell of one key
only. For each operation there is one equation that tells the cell of every key afterwards,
so that no proof has to open the operation itself.
-/
namespace DeploymentRouting

namespace Counters

variable (counters : Counters) (window : Duration) (now : Instant)

/-- A new window leaves the calls in flight as they are. -/
@[simp] theorem roll_inFlight : (counters.roll window now).inFlight = counters.inFlight := by
  simp only [roll]
  split <;> rfl

/-- A move takes the start of the window past as many windows as one move can. -/
theorem roll_start : (counters.roll window now).start =
    counters.start + window * min (counters.windowsPassed window now) Counter.top32 := by
  simp only [roll]
  split
  next hNone => rw [hNone, Nat.zero_min, Nat.mul_zero, Nat.add_zero]
  next => rfl

/-- The number of the window counts all windows that have passed, until it comes to its end. -/
theorem roll_generation
    (hFits : counters.generation + counters.windowsPassed window now ≤ Counter.top64) :
    (counters.roll window now).generation =
      counters.generation + counters.windowsPassed window now := by
  simp only [roll]
  split
  next hNone => rw [hNone, Nat.add_zero]
  next => exact Counter.add64_eq_add hFits

theorem roll_withInFlight (inFlight : Nat) :
    { counters with inFlight }.roll window now =
      { counters.roll window now with inFlight } := by
  simp only [roll, windowsPassed]
  by_cases hNone : (now - counters.start) / max window 1 = 0 <;> simp [hNone]

theorem loadAt_withInFlight (inFlight : Nat) :
    { counters with inFlight }.loadAt window now =
      { counters.loadAt window now with inFlight } := by
  simp only [loadAt, windowsPassed]
  by_cases hNone : (now - counters.start) / max window 1 = 0 <;> simp [hNone, load]

/-- A place that comes back frees one call in flight and moves the window on. The tokens are
settled only if the window is still the one of the admission. -/
theorem giveBack_eq (generation estimate actual : Nat) :
    counters.giveBack window now generation estimate actual =
      { counters.roll window now with
        inFlight := counters.inFlight - 1
        tokens :=
          if (counters.roll window now).generation = generation then
            Counter.add64 ((counters.roll window now).tokens - estimate) actual
          else (counters.roll window now).tokens } := by
  simp only [giveBack, roll_withInFlight]
  split <;> simp [*]

/-- A place that goes back is one call less in flight, whatever its window. -/
@[simp] theorem giveBack_inFlight (generation estimate actual : Nat) :
    (counters.giveBack window now generation estimate actual).inFlight =
      counters.inFlight - 1 := by
  rw [giveBack_eq]

end Counters

namespace Cell

def roll (cell : Cell) (window : Duration) (now : Instant) : Cell :=
  { cell with counters := cell.counters.roll window now }

def take (cell : Cell) (cost : Nat) : Cell :=
  { cell with counters := cell.counters.take cost, holders := cell.holders + 1 }

def settle (cell : Cell) (window : Duration) (admission : Admission) (actual : Nat)
    (now : Instant) : Cell :=
  { cell with
    counters :=
      cell.counters.giveBack window now admission.generation admission.estimate actual
    holders := cell.holders - 1 }

end Cell

namespace Limiter

section Storing

variable (limiter : Limiter) (party p : Party) (key k : String) (cell : Cell)

@[simp] theorem cells_withCells (cells : Table Cell) :
    (limiter.withCells party cells).cells p = if p = party then cells else limiter.cells p := by
  cases party <;> cases p <;> rfl

@[simp] theorem window_withCells (cells : Table Cell) :
    (limiter.withCells party cells).window = limiter.window := by
  cases party <;> rfl

@[simp] theorem fresh_withCells (cells : Table Cell) :
    (limiter.withCells party cells).fresh = limiter.fresh := by
  cases party <;> rfl

@[simp] theorem window_store : (limiter.store party key cell).window = limiter.window :=
  window_withCells ..

@[simp] theorem fresh_store : (limiter.store party key cell).fresh = limiter.fresh :=
  fresh_withCells ..

/-- A cell that is stored is found under its key and changes no other one. -/
@[simp] theorem cell?_store :
    (limiter.store party key cell).cell? p k =
      if p = party ∧ k = key then some cell else limiter.cell? p k := by
  simp only [cell?, store, cells_withCells]
  by_cases hParty : p = party
  · subst hParty
    by_cases hKey : k = key <;> simp [hKey]
  · simp [hParty]

end Storing

section Reserving

variable (limiter : Limiter) (party p : Party) (key k : String) (limits : Limits) (cost : Nat)
  (now : Instant)

/-- The cell of a key as it stands at an instant. A key without a cell is taken to get one. -/
def currentCell : Cell := (limiter.cellFor party key now).2.roll limiter.window now

/-- The place that a key would give at an instant. -/
def offer : Admission where
  party := party
  key := key
  serial := (limiter.currentCell party key now).serial
  estimate := cost
  generation := (limiter.currentCell party key now).counters.generation

/-- A cell that is there is looked at in its present window. -/
theorem currentCell_of_some {cell : Cell} (h : limiter.cell? party key = some cell) :
    limiter.currentCell party key now = cell.roll limiter.window now := by
  simp [currentCell, cellFor, h]

/-- Where there is none a new one begins its first window. -/
theorem currentCell_of_none (h : limiter.cell? party key = none) :
    limiter.currentCell party key now =
      { serial := limiter.fresh, counters := { start := now } } := by
  simp [currentCell, cellFor, h, Cell.roll, Counters.roll, Counters.windowsPassed]

/-- The limits decide on the current counts, and a place that is granted is the one on offer. -/
theorem reserve_snd :
    (limiter.reserve party key limits cost now).2 =
      match limits.refusal? (limiter.currentCell party key now).counters.load cost with
      | some refusal => .error refusal
      | none => .ok (limiter.offer party key cost now) := by
  simp only [reserve, currentCell, offer, cellFor]
  cases limiter.cell? party key <;> dsimp only [Cell.roll] <;> split <;> simp_all

/-- Whatever the answer, the cell is made and its window is moved on. Only a place that is
granted is counted. -/
theorem reserve_cell? :
    (limiter.reserve party key limits cost now).1.cell? p k =
      if p = party ∧ k = key then
        some (match limits.refusal? (limiter.currentCell party key now).counters.load cost with
          | some _ => limiter.currentCell party key now
          | none => (limiter.currentCell party key now).take cost)
      else limiter.cell? p k := by
  simp only [reserve, currentCell, cellFor]
  cases limiter.cell? party key <;> dsimp only [Cell.roll, Cell.take] <;> split <;>
    simp_all [cell?_store] <;> rfl

@[simp] theorem reserve_window :
    (limiter.reserve party key limits cost now).1.window = limiter.window := by
  simp only [reserve, cellFor]
  cases limiter.cell? party key <;> dsimp only <;> split <;> simp

/-- A serial number is used up exactly when a cell is made. -/
theorem reserve_fresh :
    (limiter.reserve party key limits cost now).1.fresh =
      if (limiter.cell? party key).isSome then limiter.fresh else limiter.fresh + 1 := by
  simp only [reserve, cellFor]
  cases limiter.cell? party key <;> dsimp only <;> split <;> simp

end Reserving

section Settling

variable (limiter : Limiter) (admission : Admission) (actual : Nat) (now : Instant)
  (p : Party) (key k : String)

/-- Only the cell that granted an admission is touched by its settlement. -/
theorem settle_cell? :
    (limiter.settle admission actual now).cell? p k =
      if p = admission.party ∧ k = admission.key then
        (limiter.cell? p k).map fun cell =>
          if cell.serial = admission.serial then
            cell.settle limiter.window admission actual now
          else cell
      else limiter.cell? p k := by
  unfold settle
  by_cases hKey : p = admission.party ∧ k = admission.key
  · obtain ⟨rfl, rfl⟩ := hKey
    cases hCell : limiter.cell? admission.party admission.key with
    | none => simp [hCell]
    | some cell =>
        by_cases hSerial : cell.serial = admission.serial
        · simp [hSerial, Cell.settle]
        · simp [hSerial, hCell]
  · simp only [if_neg hKey]
    split
    · rfl
    · split
      · rw [cell?_store, if_neg hKey]
      · rfl

@[simp] theorem settle_window : (limiter.settle admission actual now).window = limiter.window := by
  unfold settle
  split
  · rfl
  · split <;> simp

@[simp] theorem settle_fresh : (limiter.settle admission actual now).fresh = limiter.fresh := by
  unfold settle
  split
  · rfl
  · split <;> simp

/-- A cell on which an admission is out is never dropped. -/
theorem forget_cell? :
    (limiter.forget key).1.cell? p k =
      if p = .deployment ∧ k = key then
        (limiter.cell? p k).filter fun cell => decide (cell.holders ≠ 0)
      else limiter.cell? p k := by
  unfold forget
  by_cases hKey : p = .deployment ∧ k = key
  · obtain ⟨rfl, rfl⟩ := hKey
    cases hCell : limiter.cell? .deployment k with
    | none => simp [hCell]
    | some cell =>
        by_cases hHolders : cell.holders = 0
        · simp [hHolders, cell?, Option.filter]
        · simp [hHolders, hCell, Option.filter]
  · simp only [if_neg hKey]
    split
    · split
      · simp only [cell?, cells_withCells]
        by_cases hParty : p = .deployment
        · subst hParty
          have hOther : k ≠ key := fun hEq => hKey ⟨rfl, hEq⟩
          simp [hOther, cells]
        · simp [hParty]
      · rfl
    · rfl

@[simp] theorem forget_window : (limiter.forget key).1.window = limiter.window := by
  unfold forget
  split
  · split <;> simp
  · rfl

@[simp] theorem forget_fresh : (limiter.forget key).1.fresh = limiter.fresh := by
  unfold forget
  split
  · split <;> simp
  · rfl

end Settling

/-- A new limiter has no cells. -/
@[simp] theorem new_cell? (window : Duration) (p : Party) (k : String) :
    (new window).cell? p k = none := by
  cases p <;> rfl

/-- The calls in flight are those of the cell, or none. -/
theorem load_inFlight (limiter : Limiter) (p : Party) (k : String) (now : Instant) :
    (limiter.load p k now).inFlight =
      ((limiter.cell? p k).map fun cell => cell.counters.inFlight).getD 0 := by
  unfold load
  cases limiter.cell? p k with
  | none => rfl
  | some cell =>
      simp only [Counters.loadAt, Counters.load]
      split <;> rfl

end Limiter

end DeploymentRouting
