import DeploymentRouting.Proofs.Limiter.Windows
/-!
Cells that were moved on at different times. A request that is refused moves the window of its
key on and does nothing else. The cell is then ahead of the one that would be there without that
request, and here it is shown that it stays out of sight: every reading is the same, and the next
step that touches both makes them equal again, unless the other one has so many windows to make
up that one move cannot do it.
-/
namespace DeploymentRouting

namespace Counter

theorem add64_add64 (a b c : Nat) : add64 (add64 a b) c = add64 a (b + c) := by
  simp only [add64]
  omega

end Counter

namespace Counters

variable {window : Duration} {last now after : Instant} {counters ahead behind : Counters}

/-- The start of a window never moves back. -/
theorem start_le_roll (counters : Counters) (window : Duration) (now : Instant) :
    counters.start ≤ (counters.roll window now).start := by
  rw [roll_start]
  exact Nat.le_add_right _ _

/-- A window that started later has seen fewer pass. -/
theorem windowsPassed_le (hStart : behind.start ≤ ahead.start) (now : Instant) :
    ahead.windowsPassed window now ≤ behind.windowsPassed window now :=
  Nat.div_le_div_right (Nat.sub_le_sub_left hStart now)

/-- Counters that are moved on are behind by so many windows less. -/
theorem windowsPassed_roll (hWindow : 0 < window) (counters : Counters) (now later : Instant) :
    (counters.roll window now).windowsPassed window later =
      counters.windowsPassed window later -
        min (counters.windowsPassed window now) Counter.top32 := by
  have hWidth : max window 1 = window := Nat.max_eq_left hWindow
  rw [windowsPassed, roll_start, hWidth, Nat.sub_add_eq, Nat.sub_mul_div]
  simp only [windowsPassed, hWidth]

/-- Two moves come to the same as the later one alone, unless that is too long for one move. -/
theorem roll_roll (hWindow : 0 < window) (hLe : now ≤ after)
    (hReach : counters.windowsPassed window after ≤ Counter.top32) :
    (counters.roll window now).roll window after = counters.roll window after := by
  have hMono : counters.windowsPassed window now ≤ counters.windowsPassed window after :=
    Nat.div_le_div_right (Nat.sub_le_sub_right hLe _)
  have hRest := windowsPassed_roll hWindow counters now after
  rw [Nat.min_eq_left (Nat.le_trans hMono hReach)] at hRest
  by_cases hNone : counters.windowsPassed window now = 0
  · simp [roll, hNone]
  · have hLater : counters.windowsPassed window after ≠ 0 := by omega
    have hRolled : counters.roll window now =
        { counters with
          start := counters.start + window * counters.windowsPassed window now
          generation := Counter.add64 counters.generation (counters.windowsPassed window now)
          requests := 0
          tokens := 0 } := by
      simp only [roll, if_neg hNone, Nat.min_eq_left (Nat.le_trans hMono hReach)]
    have hSum : counters.windowsPassed window now +
        (counters.windowsPassed window after - counters.windowsPassed window now) =
          counters.windowsPassed window after := Nat.add_sub_of_le hMono
    rw [roll, hRest]
    split
    next hSame =>
      have hEq : counters.windowsPassed window after = counters.windowsPassed window now := by
        omega
      rw [roll, roll, hEq]
    next =>
      rw [Nat.min_eq_left (Nat.le_trans (Nat.sub_le _ _) hReach), hRolled]
      simp only [roll, if_neg hLater, Nat.min_eq_left hReach, Counter.add64_add64, hSum,
        Nat.add_assoc, ← Nat.mul_add]

/-- Counters that were moved on at times up to an instant, beside the same ones that were not.
From then on they read alike, and they are the same after the next move that both make. -/
structure Ahead (window : Duration) (last : Instant) (ahead behind : Counters) : Prop where
  start : behind.start ≤ ahead.start
  loadAt : ∀ now, last ≤ now → ahead.loadAt window now = behind.loadAt window now
  roll : ∀ now, last ≤ now → behind.windowsPassed window now ≤ Counter.top32 →
    ahead.roll window now = behind.roll window now

theorem Ahead.refl (window : Duration) (last : Instant) (counters : Counters) :
    Ahead window last counters counters :=
  ⟨Nat.le_refl _, fun _ _ => rfl, fun _ _ _ => rfl⟩

/-- What is ahead stays ahead. -/
theorem Ahead.later (h : Ahead window last ahead behind) (hLast : last ≤ now) :
    Ahead window now ahead behind :=
  ⟨h.start, fun later hLe => h.loadAt later (Nat.le_trans hLast hLe),
    fun later hLe => h.roll later (Nat.le_trans hLast hLe)⟩

/-- One more move on the side that is ahead. -/
theorem Ahead.rolled (h : Ahead window last ahead behind) (hWindow : 0 < window)
    (hLast : last ≤ now) : Ahead window now (ahead.roll window now) behind where
  start := Nat.le_trans h.start (start_le_roll ahead window now)
  loadAt later hLe := by
    rw [loadAt_roll ahead window hLe]
    exact h.loadAt later (Nat.le_trans hLast hLe)
  roll later hLe hReach := by
    rw [roll_roll hWindow hLe (Nat.le_trans (windowsPassed_le h.start later) hReach)]
    exact h.roll later (Nat.le_trans hLast hLe) hReach

/-- Both have the same calls in flight. -/
theorem Ahead.inFlight (h : Ahead window last ahead behind) :
    ahead.inFlight = behind.inFlight := by
  have hInFlight : ∀ counters : Counters,
      (counters.loadAt window last).inFlight = counters.inFlight := by
    intro counters
    rw [← load_roll]
    exact roll_inFlight ..
  rw [← hInFlight, h.loadAt last (Nat.le_refl _), hInFlight]

end Counters

/-- Two cells of one key that differ only in when their windows were moved on. -/
structure Cell.Ahead (window : Duration) (last : Instant) (ahead behind : Cell) : Prop where
  serial : ahead.serial = behind.serial
  holders : ahead.holders = behind.holders
  counters : ahead.counters.Ahead window last behind.counters

theorem Cell.Ahead.refl (window : Duration) (last : Instant) (cell : Cell) :
    Cell.Ahead window last cell cell :=
  ⟨rfl, rfl, .refl window last cell.counters⟩

theorem Cell.Ahead.later {window : Duration} {last now : Instant} {ahead behind : Cell}
    (h : Cell.Ahead window last ahead behind) (hLast : last ≤ now) :
    Cell.Ahead window now ahead behind :=
  ⟨h.serial, h.holders, h.counters.later hLast⟩

namespace Limiter

/-- A limiter that has refused calls, beside one that was never asked for them: they have the
same cells, and these differ only in when their windows were moved on. -/
structure Ahead (last : Instant) (ahead behind : Limiter) : Prop where
  window : ahead.window = behind.window
  window_pos : 0 < behind.window
  fresh : ahead.fresh = behind.fresh
  cells : ∀ party key,
    Option.Rel (Cell.Ahead behind.window last) (ahead.cell? party key) (behind.cell? party key)

/-- The cell of a key, if it has one, is not further behind than one move can take it. -/
def InReach (limiter : Limiter) (party : Party) (key : String) (now : Instant) : Prop :=
  ∀ cell ∈ limiter.cell? party key,
    cell.counters.windowsPassed limiter.window now ≤ Counter.top32

instance (limiter : Limiter) (party : Party) (key : String) (now : Instant) :
    Decidable (limiter.InReach party key now) :=
  inferInstanceAs (Decidable (∀ cell ∈ limiter.cell? party key,
    cell.counters.windowsPassed limiter.window now ≤ Counter.top32))

namespace Ahead

variable {last now : Instant} {ahead behind : Limiter} {party : Party} {key : String}

/-- Both have a cell for a key or none has. -/
theorem cell?_cases (h : Ahead last ahead behind) (party : Party) (key : String) :
    (ahead.cell? party key = none ∧ behind.cell? party key = none) ∨
      ∃ cell other, ahead.cell? party key = some cell ∧ behind.cell? party key = some other ∧
        Cell.Ahead behind.window last cell other := by
  have hCells := h.cells party key
  cases hAhead : ahead.cell? party key <;> cases hBehind : behind.cell? party key <;>
    rw [hAhead, hBehind] at hCells <;> cases hCells
  case none.none => exact Or.inl ⟨rfl, rfl⟩
  case some.some cell other hAlike => exact Or.inr ⟨cell, other, rfl, rfl, hAlike⟩

theorem later (h : Ahead last ahead behind) (hLast : last ≤ now) : Ahead now ahead behind where
  window := h.window
  window_pos := h.window_pos
  fresh := h.fresh
  cells party key := by
    obtain ⟨hAhead, hBehind⟩ | ⟨_, _, hAhead, hBehind, hAlike⟩ := h.cell?_cases party key
    · rw [hAhead, hBehind]
      exact .none
    · rw [hAhead, hBehind]
      exact .some (hAlike.later hLast)

/-- A key has a cell on both sides or on none. -/
theorem isSome_cell? (h : Ahead last ahead behind) (party : Party) (key : String) :
    (ahead.cell? party key).isSome = (behind.cell? party key).isSome := by
  obtain ⟨hAhead, hBehind⟩ | ⟨_, _, hAhead, hBehind, _⟩ := h.cell?_cases party key
  · rw [hAhead, hBehind]
  · rw [hAhead, hBehind]
    rfl

/-- What the counts of a key are cannot tell the two apart. -/
theorem load (h : Ahead last ahead behind) (hLast : last ≤ now) (party : Party) (key : String) :
    ahead.load party key now = behind.load party key now := by
  unfold Limiter.load
  obtain ⟨hAhead, hBehind⟩ | ⟨_, _, hAhead, hBehind, hAlike⟩ := h.cell?_cases party key
  · rw [hAhead, hBehind]
  · rw [hAhead, hBehind, h.window]
    exact hAlike.counters.loadAt now hLast

/-- Whatever both are asked about a key is decided on the same cell. -/
theorem currentCell (h : Ahead last ahead behind) (hLast : last ≤ now)
    (hReach : behind.InReach party key now) :
    ahead.currentCell party key now = behind.currentCell party key now := by
  obtain ⟨hAhead, hBehind⟩ | ⟨_, cell, hAhead, hBehind, hAlike⟩ := h.cell?_cases party key
  · rw [currentCell_of_none _ _ _ _ hAhead, currentCell_of_none _ _ _ _ hBehind, h.fresh]
  · rw [currentCell_of_some _ _ _ _ hAhead, currentCell_of_some _ _ _ _ hBehind, h.window]
    simp only [Cell.roll, hAlike.counters.roll now hLast (hReach cell hBehind), hAlike.serial,
      hAlike.holders]

/-- Both give the same answer to a request for a place. -/
theorem reserve_snd_eq (h : Ahead last ahead behind) (hLast : last ≤ now)
    (hReach : behind.InReach party key now) (limits : Limits) (cost : Nat) :
    (ahead.reserve party key limits cost now).2 = (behind.reserve party key limits cost now).2 := by
  rw [reserve_snd, reserve_snd, offer, offer, h.currentCell hLast hReach]

/-- What is ahead is still so after both were asked for a place. -/
theorem reserve (h : Ahead last ahead behind) (hLast : last ≤ now)
    (hReach : behind.InReach party key now) (limits : Limits) (cost : Nat) :
    Ahead now (ahead.reserve party key limits cost now).1
      (behind.reserve party key limits cost now).1 where
  window := by rw [reserve_window, reserve_window, h.window]
  window_pos := by rw [reserve_window]; exact h.window_pos
  fresh := by rw [reserve_fresh, reserve_fresh, h.isSome_cell?, h.fresh]
  cells p k := by
    rw [reserve_cell?, reserve_cell?, h.currentCell hLast hReach, reserve_window]
    split
    · exact .some (Cell.Ahead.refl ..)
    · exact (h.later hLast).cells p k

/-- A refusal on one side only, where the key has a cell. -/
theorem reserve_refused (h : Ahead last ahead behind) (hLast : last ≤ now) {limits : Limits}
    {cost : Nat} {refusal : Refusal}
    (hRefused : (ahead.reserve party key limits cost now).2 = .error refusal)
    (hCell : (ahead.cell? party key).isSome = true) :
    Ahead now (ahead.reserve party key limits cost now).1 behind where
  window := by rw [reserve_window, h.window]
  window_pos := h.window_pos
  fresh := by rw [reserve_fresh, if_pos hCell, h.fresh]
  cells p k := by
    have hDecided : limits.refusal? (ahead.currentCell party key now).counters.load cost =
        some refusal := by
      rw [reserve_snd] at hRefused
      split at hRefused
      next other hOther =>
        cases hRefused
        exact hOther
      next => cases hRefused
    rw [reserve_cell?, hDecided]
    split
    next hHere =>
      obtain ⟨rfl, rfl⟩ := hHere
      obtain ⟨hAhead, _⟩ | ⟨_, _, hAhead, hBehind, hAlike⟩ := h.cell?_cases p k
      · rw [hAhead] at hCell
        cases hCell
      · rw [currentCell_of_some _ _ _ _ hAhead, hBehind, h.window]
        exact .some ⟨hAlike.serial, hAlike.holders, hAlike.counters.rolled h.window_pos hLast⟩
    next => exact (h.later hLast).cells p k

/-- It is still so after a return to both. -/
theorem settle {admission : Admission} (h : Ahead last ahead behind) (hLast : last ≤ now)
    (hReach : behind.InReach admission.party admission.key now) (actual : Nat) :
    Ahead now (ahead.settle admission actual now) (behind.settle admission actual now) where
  window := by rw [settle_window, settle_window, h.window]
  window_pos := by rw [settle_window]; exact h.window_pos
  fresh := by rw [settle_fresh, settle_fresh, h.fresh]
  cells p k := by
    rw [settle_cell?, settle_cell?, settle_window]
    split
    next hHere =>
      obtain ⟨rfl, rfl⟩ := hHere
      obtain ⟨hAhead, hBehind⟩ | ⟨cell, other, hAhead, hBehind, hAlike⟩ :=
        h.cell?_cases admission.party admission.key
      · rw [hAhead, hBehind]
        exact .none
      · rw [hAhead, hBehind, Option.map_some, Option.map_some, hAlike.serial]
        split
        next =>
          have hSame : cell.settle ahead.window admission actual now =
              other.settle behind.window admission actual now := by
            simp only [Cell.settle, Counters.giveBack_eq, h.window, hAlike.serial, hAlike.holders,
              hAlike.counters.inFlight, hAlike.counters.roll now hLast (hReach other hBehind)]
          rw [hSame]
          exact .some (Cell.Ahead.refl ..)
        next => exact .some (hAlike.later hLast)
    next => exact (h.later hLast).cells p k

theorem forget_snd_eq (h : Ahead last ahead behind) (key : String) :
    (ahead.forget key).2 = (behind.forget key).2 := by
  unfold Limiter.forget
  obtain ⟨hAhead, hBehind⟩ | ⟨_, _, hAhead, hBehind, hAlike⟩ := h.cell?_cases .deployment key
  · rw [hAhead, hBehind]
  · rw [hAhead, hBehind]
    simp only [hAlike.holders]
    split <;> rfl

/-- It is still so after both forget a key. -/
theorem forget (h : Ahead last ahead behind) (key : String) :
    Ahead last (ahead.forget key).1 (behind.forget key).1 where
  window := by rw [forget_window, forget_window, h.window]
  window_pos := by rw [forget_window]; exact h.window_pos
  fresh := by rw [forget_fresh, forget_fresh, h.fresh]
  cells p k := by
    rw [forget_cell?, forget_cell?, forget_window]
    split
    next =>
      obtain ⟨hAhead, hBehind⟩ | ⟨_, _, hAhead, hBehind, hAlike⟩ := h.cell?_cases p k
      · rw [hAhead, hBehind]
        exact .none
      · rw [hAhead, hBehind, Option.filter, Option.filter, hAlike.holders]
        split
        · exact .some hAlike
        · exact .none
    next => exact h.cells p k

end Ahead

end Limiter

end DeploymentRouting
