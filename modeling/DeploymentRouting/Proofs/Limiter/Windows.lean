import DeploymentRouting.Proofs.Limiter.Log
/-!
Windows and what belongs to them. Counting from the instant at which a cell is made, time
falls into windows of one length, and a grant belongs to the window of its own instant. This
is the reference for the counts of a cell, which keeps those of one window only.
-/
namespace DeploymentRouting

/-- The window that an instant falls in, where the first one is window zero. -/
def windowIndex (window : Duration) (start now : Instant) : Nat := (now - start) / window

theorem windowIndex_mono {window : Duration} {start earlier later : Instant}
    (hLe : earlier ≤ later) : windowIndex window start earlier ≤ windowIndex window start later :=
  Nat.div_le_div_right (Nat.sub_le_sub_right hLe start)

namespace Counters

/-- The counters stand at a window: their own window starts where it starts, and their
generation is its number. -/
structure StandAt (counters : Counters) (window : Duration) (start : Instant) (index : Nat) :
    Prop where
  start : counters.start = start + index * window
  generation : counters.generation = index

variable {counters : Counters} {window : Duration} {start now : Instant} {index : Nat}

theorem StandAt.windowsPassed (h : StandAt counters window start index) (now : Instant)
    (hWindow : 0 < window) :
    counters.windowsPassed window now = windowIndex window start now - index := by
  have hWidth : max window 1 = window := Nat.max_eq_left hWindow
  rw [Counters.windowsPassed, hWidth, h.start, Nat.sub_add_eq, Nat.mul_comm, Nat.sub_mul_div]
  rfl

/-- The generation of counters that are moved on is the number of their window, until it comes
to its end. -/
theorem StandAt.roll_generation (h : StandAt counters window start index) (hWindow : 0 < window)
    (hLe : index ≤ windowIndex window start now)
    (hWidth : windowIndex window start now ≤ Counter.top64) :
    (counters.roll window now).generation = windowIndex window start now := by
  have hSum : counters.generation + counters.windowsPassed window now =
      windowIndex window start now := by
    rw [h.generation, h.windowsPassed now hWindow, Nat.add_sub_of_le hLe]
  rw [Counters.roll_generation _ _ _ (hSum.symm ▸ hWidth), hSum]

/-- Counters that are moved on stand at the window of the instant, if they were not behind by
more windows than can be moved at once. -/
theorem StandAt.roll (h : StandAt counters window start index) (hWindow : 0 < window)
    (hLe : index ≤ windowIndex window start now)
    (hGap : windowIndex window start now - index ≤ Counter.top32)
    (hWidth : windowIndex window start now ≤ Counter.top64) :
    StandAt (counters.roll window now) window start (windowIndex window start now) := by
  refine ⟨?_, h.roll_generation hWindow hLe hWidth⟩
  rw [roll_start, h.windowsPassed now hWindow, Nat.min_eq_left hGap, h.start, Nat.add_assoc,
    Nat.mul_comm window, ← Nat.add_mul, Nat.add_sub_of_le hLe]

/-- The counts after moving on are those that would be read. -/
theorem load_roll (counters : Counters) (window : Duration) (now : Instant) :
    (counters.roll window now).load = counters.loadAt window now := by
  simp only [Counters.roll, loadAt]
  split <;> rfl

/-- It does not matter to a reading whether the counters were moved on before. -/
theorem loadAt_roll (counters : Counters) (window : Duration) {now later : Instant}
    (hLe : now ≤ later) :
    (counters.roll window now).loadAt window later = counters.loadAt window later := by
  have hMono : counters.windowsPassed window now ≤ counters.windowsPassed window later :=
    Nat.div_le_div_right (Nat.sub_le_sub_right hLe _)
  by_cases hNone : counters.windowsPassed window now = 0
  · simp [Counters.roll, hNone]
  · have hLater : counters.windowsPassed window later ≠ 0 := by omega
    simp only [loadAt, if_neg hLater]
    simp only [Counters.roll, if_neg hNone, load]
    split <;> rfl

end Counters

namespace Limiter

/-- The reading of a key at an instant is what the next request for it would be decided on. -/
theorem load_eq_currentCell (limiter : Limiter) (party : Party) (key : String) (now : Instant) :
    limiter.load party key now = (limiter.currentCell party key now).counters.load := by
  cases hCell : limiter.cell? party key with
  | none => simp [load, hCell, currentCell_of_none _ _ _ _ hCell, Counters.load]
  | some cell =>
      simp [load, hCell, currentCell_of_some _ _ _ _ hCell, Cell.roll, Counters.load_roll]

/-- The look before a request for a place agrees with the answer to it, whatever the state of
the key. -/
theorem admits_iff (limiter : Limiter) (key : String) (limits : Limits) (cost : Nat)
    (now : Instant) :
    limiter.admits key limits cost now = true ↔
      ∃ admission, (limiter.reserve .deployment key limits cost now).2 = .ok admission := by
  have hDecision : limiter.admits key limits cost now = true ↔
      limits.refusal? (limiter.currentCell .deployment key now).counters.load cost = none := by
    rw [admits, Bool.or_eq_true, load_eq_currentCell, Limits.allows, Option.isNone_iff_eq_none]
    exact or_iff_right_of_imp fun hUnlimited =>
      Limits.refusal?_eq_none_of_isUnlimited hUnlimited _ cost
  rw [hDecision, reserve_snd]
  cases limits.refusal? (limiter.currentCell .deployment key now).counters.load cost <;> simp

/-- A cell that is watched: the key it is for, its serial number, the length of its windows
and the instant at which it was made. -/
structure Origin where
  party : Party
  key : String
  serial : Nat
  window : Duration
  start : Instant

namespace Origin

variable (origin : Origin)

def index (now : Instant) : Nat := windowIndex origin.window origin.start now

/-- Whether a grant was made by this cell, in this window. -/
def grantedIn (index : Nat) (grant : Grant) : Bool :=
  grant.admission.serial == origin.serial && origin.index grant.instant == index

/-- The tokens that a grant stands for: its actual cost if it came back in the window in which
it was made, and its estimate if it came back later or is still out. -/
def charge (grant : Grant) : Nat :=
  match grant.returned with
  | some (instant, cost) =>
      if origin.index instant = origin.index grant.instant then cost
      else grant.admission.estimate
  | none => grant.admission.estimate

/-- The number of grants of a window. -/
def requestsIn (grants : List Grant) (index : Nat) : Nat :=
  grants.countP (origin.grantedIn index)

/-- The tokens of all grants of a window. -/
def tokensIn (grants : List Grant) (index : Nat) : Nat :=
  ((grants.filter (origin.grantedIn index)).map origin.charge).foldr (· + ·) 0

/-- What should be read at an instant: the calls that are out, and the grants of the window
of that instant. -/
def reference (log : Log) (now : Instant) : Load where
  inFlight := log.outOn origin.party origin.key
  requests := origin.requestsIn log.grants (origin.index now)
  tokens := origin.tokensIn log.grants (origin.index now)

variable {origin} {grants : List Grant} {grant : Grant} {i : Nat}

theorem requestsIn_append (first second : List Grant) (i : Nat) :
    origin.requestsIn (first ++ second) i =
      origin.requestsIn first i + origin.requestsIn second i :=
  List.countP_append

theorem requestsIn_cons (grant : Grant) (grants : List Grant) (i : Nat) :
    origin.requestsIn (grant :: grants) i =
      origin.requestsIn grants i + if origin.grantedIn i grant then 1 else 0 :=
  List.countP_cons

theorem tokensIn_cons (grant : Grant) (grants : List Grant) (i : Nat) :
    origin.tokensIn (grant :: grants) i =
      origin.tokensIn grants i + if origin.grantedIn i grant then origin.charge grant else 0 := by
  simp only [tokensIn, List.filter_cons]
  split
  · rw [List.map_cons, List.foldr_cons, Nat.add_comm]
  · rfl

theorem tokensIn_append (first second : List Grant) (i : Nat) :
    origin.tokensIn (first ++ second) i = origin.tokensIn first i + origin.tokensIn second i := by
  induction first with
  | nil => exact (Nat.zero_add _).symm
  | cons grant first ih =>
      rw [List.cons_append, tokensIn_cons, tokensIn_cons, ih, Nat.add_right_comm]

theorem requestsIn_eq_zero (h : ∀ grant ∈ grants, origin.grantedIn i grant = false) :
    origin.requestsIn grants i = 0 :=
  List.countP_eq_zero.mpr fun grant hMem => by simp [h grant hMem]

theorem tokensIn_eq_zero (h : ∀ grant ∈ grants, origin.grantedIn i grant = false) :
    origin.tokensIn grants i = 0 := by
  rw [tokensIn, List.filter_eq_nil_iff.mpr fun grant hMem => by simp [h grant hMem]]
  rfl

theorem grantedIn_of_serial_ne (h : grant.admission.serial ≠ origin.serial) (i : Nat) :
    origin.grantedIn i grant = false := by
  simp [grantedIn, h]

/-- A grant that comes back keeps its place among the requests, and what it stands for changes
only if its window is still the one it was made in. -/
theorem counts_returned (before after : List Grant) (hOut : grant.returned = none)
    (now : Instant) (cost i : Nat) :
    origin.requestsIn (before ++ { grant with returned := some (now, cost) } :: after) i =
        origin.requestsIn (before ++ grant :: after) i ∧
      origin.tokensIn (before ++ { grant with returned := some (now, cost) } :: after) i =
        if origin.grantedIn i grant ∧ origin.index now = i then
          origin.tokensIn (before ++ grant :: after) i - grant.admission.estimate + cost
        else origin.tokensIn (before ++ grant :: after) i := by
  have hSame : origin.grantedIn i { grant with returned := some (now, cost) } =
    origin.grantedIn i grant := rfl
  refine ⟨?_, ?_⟩
  · simp only [requestsIn_append, requestsIn_cons, hSame]
  · simp only [tokensIn_append, tokensIn_cons, hSame]
    cases hIn : origin.grantedIn i grant with
    | false => simp
    | true =>
        have hIndex : origin.index grant.instant = i := by
          simp only [grantedIn, Bool.and_eq_true, beq_iff_eq] at hIn
          exact hIn.2
        by_cases hNow : origin.index now = i
        · simp [charge, hOut, hNow, hIndex]
          omega
        · simp [charge, hOut, hNow, hIndex]

end Origin

end Limiter

end DeploymentRouting
