import DeploymentRouting.Proofs.Limiter.Decision
import DeploymentRouting.Proofs.Limiter.Lag
import Mathlib.Logic.Function.Iterate
/-!
How far one move brings the counters of a key. A move goes on by whole windows, but never by more
of them than 32 bits can tell, while the number of the window counts all that have passed. Up to
that many windows a move brings the counters to the window of the instant: a second move at the
same instant does nothing, and all places that are granted at one instant are counted in one
window. Beyond it the counters stay behind, and each further move at the same instant begins its
counts anew.
-/
namespace DeploymentRouting

namespace Counters

variable {counters : Counters} {window : Duration} {now instant : Instant}

/-- The window of some counters holds an instant. -/
def Covers (counters : Counters) (window : Duration) (now : Instant) : Prop :=
  counters.start ≤ now ∧ now < counters.start + window

instance (counters : Counters) (window : Duration) (now : Instant) :
    Decidable (counters.Covers window now) :=
  inferInstanceAs (Decidable (_ ∧ _))

theorem covers_iff (hWindow : 0 < window) (hStart : counters.start ≤ now) :
    counters.Covers window now ↔ counters.windowsPassed window now = 0 := by
  have hWidth : max window 1 = window := Nat.max_eq_left hWindow
  rw [windowsPassed, hWidth, Nat.div_eq_zero_iff_lt hWindow, Covers, and_iff_right hStart,
    Nat.sub_lt_iff_lt_add' hStart]

/-- Counters whose window is not over stay as they are. -/
theorem roll_of_covers (h : counters.Covers window now) (hLe : instant ≤ now) :
    counters.roll window instant = counters := by
  obtain ⟨hStart, hEnd⟩ := h
  have hAge : instant - counters.start < max window 1 :=
    calc instant - counters.start
        ≤ now - counters.start := Nat.sub_le_sub_right hLe _
      _ < window := (Nat.sub_lt_iff_lt_add' hStart).mpr hEnd
      _ ≤ max window 1 := Nat.le_max_left _ _
  have hNone : counters.windowsPassed window instant = 0 := Nat.div_eq_of_lt hAge
  simp only [roll, if_pos hNone]

/-- No move goes beyond its instant. -/
theorem roll_start_le (hWindow : 0 < window) (hStart : counters.start ≤ now) :
    (counters.roll window now).start ≤ now := by
  have hWidth : max window 1 = window := Nat.max_eq_left hWindow
  have hPassed : window * counters.windowsPassed window now ≤ now - counters.start := by
    rw [windowsPassed, hWidth]
    exact Nat.mul_div_le _ _
  have hMoved : window * min (counters.windowsPassed window now) Counter.top32 ≤
      window * counters.windowsPassed window now :=
    Nat.mul_le_mul_left _ (Nat.min_le_left _ _)
  rw [roll_start]
  exact Nat.add_le_of_le_sub' hStart (Nat.le_trans hMoved hPassed)

/-- Counters that have to be moved on begin to count anew. -/
theorem load_roll_of_passed (hPassed : counters.windowsPassed window now ≠ 0) :
    (counters.roll window now).load = { inFlight := counters.inFlight } := by
  simp only [roll, if_neg hPassed, load]

/-- What is left for the next move at the same instant. -/
theorem windowsPassed_roll_self (hWindow : 0 < window) (counters : Counters) (now : Instant) :
    (counters.roll window now).windowsPassed window now =
      counters.windowsPassed window now - Counter.top32 := by
  rw [windowsPassed_roll hWindow]
  omega

/-- A move comes to the window of its instant exactly if that is no further than a move can go. -/
theorem covers_roll_iff (hWindow : 0 < window) (hStart : counters.start ≤ now) :
    (counters.roll window now).Covers window now ↔
      counters.windowsPassed window now ≤ Counter.top32 := by
  rw [covers_iff hWindow (roll_start_le hWindow hStart), windowsPassed_roll_self hWindow,
    Nat.sub_eq_zero_iff_le]

/-- A second move at the same instant does nothing in just these cases. -/
theorem roll_roll_self_iff (hWindow : 0 < window) :
    (counters.roll window now).roll window now = counters.roll window now ↔
      counters.windowsPassed window now ≤ Counter.top32 := by
  refine ⟨fun hSame => ?_, roll_roll hWindow (Nat.le_refl now)⟩
  -- If the start stays where it is, the first move has left no window to go past.
  have hStart := roll_start (counters.roll window now) window now
  rw [hSame, windowsPassed_roll_self hWindow, Nat.left_eq_add, Nat.mul_eq_zero,
    or_iff_right (Nat.ne_of_gt hWindow)] at hStart
  have hTop : Counter.top32 ≠ 0 := by decide
  omega

theorem windowsPassed_iterate_roll (hWindow : 0 < window) (counters : Counters) (now : Instant)
    (times : Nat) :
    ((fun counters => counters.roll window now)^[times] counters).windowsPassed window now =
      counters.windowsPassed window now - times * Counter.top32 := by
  induction times with
  | zero => rw [Nat.zero_mul, Nat.sub_zero, Function.iterate_zero_apply]
  | succ times ih =>
      rw [Function.iterate_succ_apply', windowsPassed_roll_self hWindow, ih, Nat.sub_sub,
        Nat.succ_mul]

theorem iterate_roll_start_le (hWindow : 0 < window) (hStart : counters.start ≤ now)
    (times : Nat) :
    ((fun counters => counters.roll window now)^[times] counters).start ≤ now := by
  induction times with
  | zero => exact hStart
  | succ times ih =>
      rw [Function.iterate_succ_apply']
      exact roll_start_le hWindow ih

/-- It takes one move for every stretch of windows that a move can go. -/
theorem covers_iterate_roll_iff (hWindow : 0 < window) (hStart : counters.start ≤ now)
    (times : Nat) :
    ((fun counters => counters.roll window now)^[times] counters).Covers window now ↔
      counters.windowsPassed window now ≤ times * Counter.top32 := by
  rw [covers_iff hWindow (iterate_roll_start_le hWindow hStart times),
    windowsPassed_iterate_roll hWindow, Nat.sub_eq_zero_iff_le]

end Counters

/-- A cell is still in the window of a place that it granted, and counts it. -/
structure Cell.Counts (cell : Cell) (place : Admission) (window : Duration) (now : Instant) :
    Prop where
  serial : cell.serial = place.serial
  generation : cell.counters.generation = place.generation
  covers : cell.counters.Covers window now
  requests : 0 < cell.counters.requests

namespace Cell.Counts

variable {cell : Cell} {place : Admission} {window : Duration} {now instant : Instant}

theorem roll (h : cell.Counts place window now) (hLe : instant ≤ now) :
    cell.roll window instant = cell := by
  rw [Cell.roll, Counters.roll_of_covers h.covers hLe]

theorem take (h : cell.Counts place window now) (cost : Nat) :
    (cell.take cost).Counts place window now :=
  ⟨h.serial, h.generation, h.covers, Nat.succ_pos _⟩

/-- A place that comes back stays among the requests of its window. -/
theorem settle (h : cell.Counts place window now) (hLe : instant ≤ now) (admission : Admission)
    (actual : Nat) : (cell.settle window admission actual instant).Counts place window now := by
  simp only [Cell.settle, Counters.giveBack_eq, Counters.roll_of_covers h.covers hLe]
  exact ⟨h.serial, h.generation, h.covers, h.requests⟩

end Cell.Counts

namespace Limiter

/-- Whether a step is made up to some instant, and does not drop the cell of a key. -/
def Move.Stays (party : Party) (key : String) (now : Instant) : Move → Prop
  | .reserve _ _ _ _ _ instant | .settle _ _ _ instant | .abandon _ _ instant => instant ≤ now
  | .forget other => ¬(party = .deployment ∧ key = other)

instance (party : Party) (key : String) (now : Instant) :
    (move : Move) → Decidable (move.Stays party key now)
  | .reserve _ _ _ _ _ instant | .settle _ _ _ instant | .abandon _ _ instant =>
      inferInstanceAs (Decidable (instant ≤ now))
  | .forget other => inferInstanceAs (Decidable ¬(party = .deployment ∧ key = other))

/-- The key of a place leads to a cell that counts it in the window of an instant. -/
def Counts (limiter : Limiter) (place : Admission) (now : Instant) : Prop :=
  ∃ cell, limiter.cell? place.party place.key = some cell ∧
    cell.Counts place limiter.window now

variable {limiter : Limiter} {party : Party} {key : String} {now instant : Instant}
  {limits : Limits} {cost : Nat} {place : Admission}

theorem refusal?_of_reserve_ok (h : (limiter.reserve party key limits cost now).2 = .ok place) :
    limits.refusal? (limiter.currentCell party key now).counters.load cost = none ∧
      place = limiter.offer party key cost now := by
  rw [reserve_snd] at h
  split at h
  next => cases h
  next hOpen => exact ⟨hOpen, (Except.ok.inj h).symm⟩

/-- A request finds its cell in the window of its instant, if the cell was within reach. -/
theorem covers_currentCell (hWindow : 0 < limiter.window)
    (hStart : ∀ cell ∈ limiter.cell? party key, cell.counters.start ≤ now)
    (hReach : limiter.InReach party key now) :
    (limiter.currentCell party key now).counters.Covers limiter.window now := by
  cases hCell : limiter.cell? party key with
  | none =>
      rw [currentCell_of_none _ _ _ _ hCell]
      exact ⟨Nat.le_refl now, Nat.lt_add_of_pos_right hWindow⟩
  | some cell =>
      rw [currentCell_of_some _ _ _ _ hCell]
      exact (Counters.covers_roll_iff hWindow (hStart cell hCell)).mpr (hReach cell hCell)

/-- A grant is counted. -/
theorem counts_of_reserve_ok (hWindow : 0 < limiter.window)
    (hStart : ∀ cell ∈ limiter.cell? party key, cell.counters.start ≤ now)
    (hReach : limiter.InReach party key now)
    (h : (limiter.reserve party key limits cost now).2 = .ok place) :
    Counts (limiter.reserve party key limits cost now).1 place now := by
  obtain ⟨hOpen, rfl⟩ := refusal?_of_reserve_ok h
  refine ⟨(limiter.currentCell party key now).take cost, ?_, rfl, rfl, ?_, Nat.succ_pos _⟩
  · rw [reserve_cell?, hOpen]
    exact if_pos ⟨rfl, rfl⟩
  · rw [reserve_window]
    exact covers_currentCell hWindow hStart hReach

namespace Counts

theorem currentCell (h : Counts limiter place now) (hLe : instant ≤ now) :
    (limiter.currentCell place.party place.key instant).Counts place limiter.window now := by
  obtain ⟨cell, hCell, hCounts⟩ := h
  rw [currentCell_of_some _ _ _ _ hCell, hCounts.roll hLe]
  exact hCounts

theorem reserve (h : Counts limiter place now) (hLe : instant ≤ now) (party : Party)
    (key : String) (limits : Limits) (cost : Nat) :
    Counts (limiter.reserve party key limits cost instant).1 place now := by
  unfold Counts
  rw [reserve_cell?, reserve_window]
  split
  next hKey =>
    obtain ⟨rfl, rfl⟩ := hKey
    refine ⟨_, rfl, ?_⟩
    split
    · exact h.currentCell hLe
    · exact (h.currentCell hLe).take cost
  next => exact h

theorem settle (h : Counts limiter place now) (hLe : instant ≤ now) (admission : Admission)
    (actual : Nat) : Counts (limiter.settle admission actual instant) place now := by
  obtain ⟨cell, hCell, hCounts⟩ := h
  unfold Counts
  rw [settle_cell?, settle_window, hCell, Option.map_some]
  split
  · refine ⟨_, rfl, ?_⟩
    split
    · exact hCounts.settle hLe admission actual
    · exact hCounts
  · exact ⟨cell, rfl, hCounts⟩

theorem forget (h : Counts limiter place now) {other : String}
    (hOther : ¬(place.party = .deployment ∧ place.key = other)) :
    Counts (limiter.forget other).1 place now := by
  unfold Counts
  rw [forget_cell?, forget_window, if_neg hOther]
  exact h

/-- As long as a place is counted, a place that is granted is one of the same window. -/
theorem same_window (h : Counts limiter place now) {other : Admission}
    (hOther : (limiter.reserve place.party place.key limits cost now).2 = .ok other) :
    other.serial = place.serial ∧ other.generation = place.generation := by
  obtain ⟨-, rfl⟩ := refusal?_of_reserve_ok hOther
  have hCounts := h.currentCell (Nat.le_refl now)
  exact ⟨hCounts.serial, hCounts.generation⟩

/-- As long as a place is counted, there is none left under a limit of one. -/
theorem reserve_refused (h : Counts limiter place now) (hOne : limits.requests = some 1) :
    ∃ refusal, (limiter.reserve place.party place.key limits cost now).2 = .error refusal := by
  cases hAnswer : (limiter.reserve place.party place.key limits cost now).2 with
  | error refusal => exact ⟨refusal, rfl⟩
  | ok other =>
      have hCounted := (h.currentCell (Nat.le_refl now)).requests
      have hRoom := Limits.requests_lt_of_refusal?_eq_none (refusal?_of_reserve_ok hAnswer).1 hOne
      exact absurd hCounted (Nat.not_lt.mpr (Nat.le_of_lt_succ hRoom))

end Counts

/-- One request in a window and no other limit. -/
def onePerWindow : Limits := { requests := some 1 }

/-- A window that is over takes one request more. -/
theorem reserve_onePerWindow {cell : Cell} (hCell : limiter.cell? party key = some cell)
    (hPassed : cell.counters.windowsPassed limiter.window now ≠ 0) (cost : Nat) :
    (limiter.reserve party key onePerWindow cost now).2 =
        .ok (limiter.offer party key cost now) ∧
      (limiter.reserve party key onePerWindow cost now).1.cell? party key =
        some ((cell.roll limiter.window now).take cost) := by
  have hOpen : onePerWindow.refusal? (limiter.currentCell party key now).counters.load cost =
      none := by
    rw [currentCell_of_some _ _ _ _ hCell, Cell.roll, Counters.load_roll_of_passed hPassed]
    rfl
  rw [reserve_snd, reserve_cell?, hOpen, currentCell_of_some _ _ _ _ hCell, if_pos ⟨rfl, rfl⟩]
  exact ⟨rfl, rfl⟩

/-- Two requests at one instant both get the one place of a window, if the cell was out of
reach. -/
theorem reserve_twice_onePerWindow (hWindow : 0 < limiter.window) {cell : Cell}
    (hCell : limiter.cell? party key = some cell)
    (hBeyond : Counter.top32 < cell.counters.windowsPassed limiter.window now)
    (cost nextCost : Nat) :
    ∃ first second, (limiter.reserve party key onePerWindow cost now).2 = .ok first ∧
      ((limiter.reserve party key onePerWindow cost now).1.reserve party key onePerWindow
        nextCost now).2 = .ok second := by
  have hPassed : cell.counters.windowsPassed limiter.window now ≠ 0 :=
    Nat.ne_of_gt (Nat.zero_lt_of_lt hBeyond)
  obtain ⟨hFirst, hNext⟩ := reserve_onePerWindow hCell hPassed cost
  have hLeft : ((cell.roll limiter.window now).take cost).counters.windowsPassed
      (limiter.reserve party key onePerWindow cost now).1.window now ≠ 0 := by
    rw [reserve_window]
    exact Counters.windowsPassed_roll_self hWindow cell.counters now ▸ Nat.sub_ne_zero_of_lt hBeyond
  exact ⟨_, _, hFirst, (reserve_onePerWindow hNext hLeft nextCost).1⟩

namespace Log

variable {log : Log}

theorem counts_giveBack (h : Counts log.limiter place now) (hLe : instant ≤ now) (holder : Nat)
    (party : Party) (cost : Admission → Nat) :
    Counts (log.giveBack holder party instant cost).limiter place now := by
  cases hOut : log.outOf holder party with
  | nil =>
      rw [giveBack_of_nil hOut]
      exact h
  | cons admission rest =>
      rw [giveBack_of_cons hOut]
      exact h.settle hLe admission (cost admission)

theorem counts_perform (h : Counts log.limiter place now) {move : Move}
    (hMove : move.Stays place.party place.key now) :
    Counts (log.perform move).limiter place now := by
  cases move with
  | reserve holder party key limits cost instant =>
      rw [(perform_reserve_cases log holder party key limits cost instant).1]
      exact h.reserve hMove party key limits cost
  | settle holder party actual instant => exact counts_giveBack h hMove holder party _
  | abandon holder party instant => exact counts_giveBack h hMove holder party _
  | forget other => exact h.forget hMove

/-- A place stays counted, whatever else is done up to its instant. -/
theorem counts_performAll (h : Counts log.limiter place now) {moves : List Move}
    (hMoves : ∀ move ∈ moves, move.Stays place.party place.key now) :
    Counts (log.performAll moves).limiter place now :=
  performAll_induction (motive := fun log => Counts log.limiter place now) h
    fun _ move hMem hLog => counts_perform hLog (hMoves move hMem)

/-- Moving counters on brings them up to date, unless more windows have passed than 32 bits can
tell. A move always goes by whole windows and never beyond its instant, and the number of the window
counts all that have passed, as far as 64 bits go. The window after the move holds the instant, and
a second move does nothing, exactly if the counters were within reach; otherwise it takes one move
for every stretch of that many windows. Within reach all that is granted on a key at one instant,
whatever else is done up to then short of dropping its cell, belongs to one window, so that of two
requests under a limit of one only the first can be granted. Out of reach both are. -/
theorem up_to_date_within_reach {window : Duration} (hWindow : 0 < window) :
    (∀ (counters : Counters) (now : Instant),
      let passed := counters.windowsPassed window now
      let rolled := counters.roll window now
      counters.start ≤ now → passed ≤ Counter.top64 →
        rolled.start = counters.start + window * min passed Counter.top32 ∧
        rolled.start ≤ now ∧
        (counters.generation + passed ≤ Counter.top64 →
          rolled.generation = counters.generation + passed) ∧
        (now < rolled.start + window ↔ passed ≤ Counter.top32) ∧
        (rolled.roll window now = rolled ↔ passed ≤ Counter.top32) ∧
        ∀ times, ((fun counters => counters.roll window now)^[times] counters).Covers window now ↔
          passed ≤ times * Counter.top32) ∧
    (∀ (log : Log) party key now, log.limiter.window = window →
      (∀ cell ∈ log.limiter.cell? party key, cell.counters.start ≤ now) →
      log.limiter.InReach party key now →
      ∀ holder limits cost first, (log.limiter.reserve party key limits cost now).2 = .ok first →
      ∀ moves, (∀ move ∈ moves, Move.Stays party key now move) →
        let later := ((log.perform (.reserve holder party key limits cost now)).performAll
          moves).limiter
        ∀ nextLimits nextCost,
          (∀ second, (later.reserve party key nextLimits nextCost now).2 = .ok second →
            second.serial = first.serial ∧ second.generation = first.generation) ∧
          (nextLimits.requests = some 1 →
            ∃ refusal, (later.reserve party key nextLimits nextCost now).2 = .error refusal)) ∧
    ∀ (limiter : Limiter) party key now cell, limiter.window = window →
      limiter.cell? party key = some cell →
      Counter.top32 < cell.counters.windowsPassed window now →
      cell.counters.windowsPassed window now ≤ Counter.top64 →
      ∀ cost nextCost, ∃ first second,
        (limiter.reserve party key onePerWindow cost now).2 = .ok first ∧
        ((limiter.reserve party key onePerWindow cost now).1.reserve party key onePerWindow
          nextCost now).2 = .ok second := by
  refine ⟨?_, ?_, ?_⟩
  · intro counters now passed rolled hStart _
    have hRolled : rolled.start ≤ now := Counters.roll_start_le hWindow hStart
    have hCovers := Counters.covers_roll_iff hWindow hStart
    rw [Counters.Covers, and_iff_right hRolled] at hCovers
    exact ⟨Counters.roll_start counters window now, hRolled, Counters.roll_generation _ _ _,
      hCovers, Counters.roll_roll_self_iff hWindow,
      Counters.covers_iterate_roll_iff hWindow hStart⟩
  · rintro log party key now rfl hStart hReach holder limits cost first hFirst moves hMoves later
      nextLimits nextCost
    -- The first place is counted when it is granted, and it stays so through all that follows.
    have hCounts := counts_of_reserve_ok hWindow hStart hReach hFirst
    obtain ⟨-, rfl⟩ := refusal?_of_reserve_ok hFirst
    rw [← (perform_reserve_cases log holder party key limits cost now).1] at hCounts
    have hLater := counts_performAll hCounts hMoves
    exact ⟨fun second => hLater.same_window, hLater.reserve_refused⟩
  · rintro limiter party key now cell rfl hCell hBeyond - cost nextCost
    exact reserve_twice_onePerWindow hWindow hCell hBeyond cost nextCost

/-- A deployment that takes one request in a millisecond has had one at the start. After as many
milliseconds as can be made up at once, and just before the end of the next, two come at one
instant, and in between the first one and an older one come back and another deployment is called.
The second is refused. One millisecond later both are granted. -/
theorem up_to_date_within_reach_edge :
    let window := (Limiter.new (Duration.ofMillis 1)).window
    let counters : Counters := { inFlight := 1, start := 0, requests := 1 }
    let log := run window [.reserve 0 .deployment "d1" onePerWindow 5 0]
    let now := Duration.ofMillis Counter.top32 + 999999
    let request : Move := .reserve 1 .deployment "d1" onePerWindow 5 now
    let moves : List Move := [.settle 1 .deployment 3 now, .settle 0 .deployment 9 7,
      .reserve 2 .deployment "d2" onePerWindow 5 now]
    0 < window ∧ counters.windowsPassed window now = Counter.top32 ∧
      (counters.roll window now).Covers window now ∧
      (counters.roll window now).generation = Counter.top32 ∧
      (counters.roll window now).roll window now = counters.roll window now ∧
      log.limiter.InReach .deployment "d1" now ∧
      (∃ refusal, (((log.perform request).performAll moves).limiter.reserve .deployment "d1"
        onePerWindow 5 now).2 = .error refusal) ∧
      ∃ first second,
        (log.limiter.reserve .deployment "d1" onePerWindow 5 (now + window)).2 = .ok first ∧
        ((log.limiter.reserve .deployment "d1" onePerWindow 5 (now + window)).1.reserve
          .deployment "d1" onePerWindow 5 (now + window)).2 = .ok second := by
  intro window counters log now request moves
  have hWindow : 0 < window := by decide
  have hPassed : counters.windowsPassed window now = Counter.top32 := by decide
  have hReach : log.limiter.InReach .deployment "d1" now := by decide
  obtain ⟨hMove, hSame, hBoth⟩ := up_to_date_within_reach hWindow
  obtain ⟨-, hStart, hNumber, hEnd, hAgain, -⟩ := hMove counters now (by decide) (by decide)
  have hGeneration : 0 + counters.windowsPassed window now = Counter.top32 := by
    rw [hPassed, Nat.zero_add]
  have hOpen : onePerWindow.refusal?
      (log.limiter.currentCell .deployment "d1" now).counters.load 5 = none := by decide
  have hFirst : (log.limiter.reserve .deployment "d1" onePerWindow 5 now).2 =
      .ok (log.limiter.offer .deployment "d1" 5 now) := by rw [reserve_snd, hOpen]
  obtain ⟨-, hRefused⟩ := hSame log .deployment "d1" now (by decide) (by decide) hReach 1
    onePerWindow 5 _ hFirst moves (by decide) onePerWindow 5
  exact ⟨hWindow, hPassed, ⟨hStart, hEnd.mpr (Nat.le_of_eq hPassed)⟩,
    (hNumber (by decide)).trans hGeneration, hAgain.mpr (Nat.le_of_eq hPassed), hReach, hRefused rfl,
    hBoth log.limiter .deployment "d1" (now + window) ⟨0, { counters with tokens := 5 }, 1⟩
      (by decide) (by decide) (by decide) (by decide) 5 5⟩

/-- Three requests for a deployment that takes one in a millisecond, the last two at one instant
2^32 milliseconds after the first. -/
def idleMoves : List Move :=
  let now := Duration.ofMillis 4294967296
  [.reserve 0 .deployment "d1" onePerWindow 0 0, .reserve 1 .deployment "d1" onePerWindow 0 now,
    .reserve 2 .deployment "d1" onePerWindow 0 now]

/-- The move that the second request makes comes one window short, and that of the third makes up
for it and counts anew: both are granted. -/
theorem granted_twice_at_once :
    let window := (Limiter.new (Duration.ofMillis 1)).window
    let now := Duration.ofMillis 4294967296
    let counters : Counters := { inFlight := 1, start := 0, requests := 1 }
    let rolled := counters.roll window now
    counters.start ≤ now ∧ ¬rolled.Covers window now ∧
      rolled.start = counters.start + 4294967295 * window ∧ rolled.generation = 4294967296 ∧
      rolled.roll window now ≠ rolled ∧
      (run window idleMoves).grants.map (fun grant => (grant.instant, grant.admission.generation)) =
        [(0, 0), (now, 4294967296), (now, 4294967297)] := by
  decide

end Log

end Limiter

end DeploymentRouting
