import DeploymentRouting.Proofs.Limiter.Decision
import DeploymentRouting.Proofs.Limiter.Log
/-!
The places that are taken on a limiter are exactly those that were granted and have not come
back. This holds in every interleaving of requests, returns and removals, and it is what
keeps a limit of calls at one time from being exceeded: a cell with an admission out on it
stays where it is, so a deployment that is registered again still counts the calls that it
is draining.
-/
namespace DeploymentRouting

namespace Limiter

open Admission

/-- The cells of a limiter account for a list of admissions: each cell counts those of its
key, each admission leads to the cell that granted it, and no two cells are confused. The
order of the list does not matter. -/
structure Accounts (limiter : Limiter) (out : List Admission) : Prop where
  inFlight : ∀ {party key cell}, limiter.cell? party key = some cell →
    cell.counters.inFlight = countOn out party key
  holders : ∀ {party key cell}, limiter.cell? party key = some cell →
    cell.holders = countOn out party key
  attached : ∀ admission ∈ out, ∃ cell,
    limiter.cell? admission.party admission.key = some cell ∧ cell.serial = admission.serial
  serial_lt : ∀ {party key cell}, limiter.cell? party key = some cell →
    cell.serial < limiter.fresh
  serial_injective : ∀ {party key cell p k other}, limiter.cell? party key = some cell →
    limiter.cell? p k = some other → other.serial = cell.serial → p = party ∧ k = key

namespace Accounts

variable {limiter after : Limiter} {out rest : List Admission} {party : Party} {key : String}
  {cell : Cell}

theorem perm (h : Accounts limiter out) (hPerm : out.Perm rest) : Accounts limiter rest where
  inFlight hCell := (h.inFlight hCell).trans (countOn_perm hPerm ..)
  holders hCell := (h.holders hCell).trans (countOn_perm hPerm ..)
  attached admission hMem := h.attached admission (hPerm.mem_iff.mpr hMem)
  serial_lt := h.serial_lt
  serial_injective := h.serial_injective

/-- Nothing is out on a key without a cell. -/
theorem countOn_of_none (h : Accounts limiter out) (hNone : limiter.cell? party key = none) :
    countOn out party key = 0 := by
  refine List.countP_eq_zero.mpr fun admission hMem hOn => ?_
  obtain ⟨cell, hCell, _⟩ := h.attached admission hMem
  obtain ⟨rfl, rfl⟩ := isOn_iff.mp hOn
  rw [hNone] at hCell
  cases hCell

/-- The counter of a key tells how many admissions are out on it, whether it has a cell or not. -/
theorem load_inFlight (h : Accounts limiter out) (party : Party) (key : String)
    (now : Instant) :
    (limiter.load party key now).inFlight =
      countOn out party key := by
  rw [Limiter.load_inFlight]
  cases hCell : limiter.cell? party key with
  | none => exact (h.countOn_of_none hCell).symm
  | some cell => exact h.inFlight hCell

theorem currentCell_inFlight (h : Accounts limiter out) (party : Party) (key : String)
    (now : Instant) :
    (limiter.currentCell party key now).counters.inFlight =
      countOn out party key := by
  cases hCell : limiter.cell? party key with
  | none => simpa [currentCell_of_none _ _ _ _ hCell] using (h.countOn_of_none hCell).symm
  | some cell => simpa [currentCell_of_some _ _ _ _ hCell, Cell.roll] using h.inFlight hCell

theorem currentCell_holders (h : Accounts limiter out) (party : Party) (key : String)
    (now : Instant) :
    (limiter.currentCell party key now).holders =
      countOn out party key := by
  cases hCell : limiter.cell? party key with
  | none => simpa [currentCell_of_none _ _ _ _ hCell] using (h.countOn_of_none hCell).symm
  | some cell => simpa [currentCell_of_some _ _ _ _ hCell, Cell.roll] using h.holders hCell

/-- One cell is replaced, under its old serial number or, where there was none, under a new
one. It is enough to count the admissions on its key again. -/
theorem replace (h : Accounts limiter out) (party : Party) (key : String) (cell : Cell)
    (hCell? : ∀ p k, after.cell? p k =
      if p = party ∧ k = key then some cell else limiter.cell? p k)
    (hFresh : limiter.fresh ≤ after.fresh) (hLt : cell.serial < after.fresh)
    (hSerial : ∀ {p k other}, limiter.cell? p k = some other → other.serial = cell.serial →
      p = party ∧ k = key)
    (hInFlight : cell.counters.inFlight =
      countOn rest party key)
    (hHolders : cell.holders = countOn rest party key)
    (hHere : ∀ admission ∈ rest, admission.isOn party key = true →
      admission.serial = cell.serial)
    (hThere : ∀ admission ∈ rest, admission.isOn party key = false → admission ∈ out)
    (hCount : ∀ p k, ¬(p = party ∧ k = key) →
      countOn rest p k = countOn out p k) :
    Accounts after rest where
  inFlight {p k other} hOther := by
    rw [hCell?] at hOther
    split at hOther
    next hKey =>
      obtain ⟨rfl, rfl⟩ := hKey
      cases hOther
      exact hInFlight
    next hKey => rw [hCount p k hKey, h.inFlight hOther]
  holders {p k other} hOther := by
    rw [hCell?] at hOther
    split at hOther
    next hKey =>
      obtain ⟨rfl, rfl⟩ := hKey
      cases hOther
      exact hHolders
    next hKey => rw [hCount p k hKey, h.holders hOther]
  attached admission hMem := by
    rw [hCell?]
    split
    next hKey =>
      exact ⟨cell, rfl, (hHere admission hMem (isOn_iff.mpr hKey)).symm⟩
    next hKey =>
      have hOff : admission.isOn party key = false :=
        Bool.eq_false_iff.mpr fun hOn => hKey (isOn_iff.mp hOn)
      exact h.attached admission (hThere admission hMem hOff)
  serial_lt {p k other} hOther := by
    rw [hCell?] at hOther
    split at hOther
    · cases hOther
      exact hLt
    · exact Nat.lt_of_lt_of_le (h.serial_lt hOther) hFresh
  serial_injective {p k other q l another} hOther hAnother hEq := by
    rw [hCell?] at hOther hAnother
    split at hOther
    next hKey =>
      cases hOther
      obtain ⟨rfl, rfl⟩ := hKey
      split at hAnother
      next hKey => exact hKey
      next => exact hSerial hAnother hEq
    next hKey =>
      split at hAnother
      next hKey' =>
        cases hAnother
        exact absurd (hSerial hOther hEq.symm) hKey
      next => exact h.serial_injective hOther hAnother hEq

theorem new (window : Duration) : Accounts (Limiter.new window) [] := by
  constructor <;> simp

/-- The cell that is used is the one that the key has, or one with a new number. -/
theorem currentCell_serial (h : Accounts limiter out) (now : Instant) {p : Party} {k : String}
    {other : Cell} (hOther : limiter.cell? p k = some other)
    (hEq : other.serial = (limiter.currentCell party key now).serial) : p = party ∧ k = key := by
  cases hCell : limiter.cell? party key with
  | none =>
      rw [currentCell_of_none _ _ _ _ hCell] at hEq
      exact absurd hEq (Nat.ne_of_lt (h.serial_lt hOther))
  | some cell =>
      rw [currentCell_of_some _ _ _ _ hCell] at hEq
      exact h.serial_injective hCell hOther hEq

theorem currentCell_serial_lt (h : Accounts limiter out) (limits : Limits) (cost : Nat)
    (now : Instant) :
    (limiter.currentCell party key now).serial <
      (limiter.reserve party key limits cost now).1.fresh := by
  rw [reserve_fresh]
  cases hCell : limiter.cell? party key with
  | none => simp [currentCell_of_none _ _ _ _ hCell]
  | some cell => simpa [currentCell_of_some _ _ _ _ hCell, Cell.roll] using h.serial_lt hCell

theorem fresh_le_reserve (limiter : Limiter) (party : Party) (key : String) (limits : Limits)
    (cost : Nat) (now : Instant) :
    limiter.fresh ≤ (limiter.reserve party key limits cost now).1.fresh := by
  rw [reserve_fresh]
  split <;> omega

/-- All admissions on a key were granted by the cell that is used for the next one. -/
theorem serial_of_isOn (h : Accounts limiter out) (now : Instant) {admission : Admission}
    (hMem : admission ∈ out) (hOn : admission.isOn party key = true) :
    admission.serial = (limiter.currentCell party key now).serial := by
  obtain ⟨cell, hCell, hSerial⟩ := h.attached admission hMem
  obtain ⟨rfl, rfl⟩ := isOn_iff.mp hOn
  rw [currentCell_of_some _ _ _ _ hCell, ← hSerial]
  rfl

/-- A refusal leaves the account as it is. -/
theorem reserve_refused (h : Accounts limiter out) {limits : Limits} {cost : Nat}
    {now : Instant} {refusal : Refusal}
    (hRefusal : limits.refusal? (limiter.currentCell party key now).counters.load cost =
      some refusal) :
    Accounts (limiter.reserve party key limits cost now).1 out := by
  refine h.replace party key (limiter.currentCell party key now) (fun p k => ?_)
    (fresh_le_reserve ..) (h.currentCell_serial_lt limits cost now)
    (h.currentCell_serial now) (h.currentCell_inFlight party key now)
    (h.currentCell_holders party key now) (fun _ hMem hOn => h.serial_of_isOn now hMem hOn)
    (fun _ hMem _ => hMem) (fun _ _ _ => rfl)
  rw [reserve_cell?, hRefusal]

/-- A grant puts the place on offer into the account. -/
theorem reserve_granted (h : Accounts limiter out) {limits : Limits} {cost : Nat}
    {now : Instant}
    (hOpen : limits.refusal? (limiter.currentCell party key now).counters.load cost = none) :
    Accounts (limiter.reserve party key limits cost now).1
      (limiter.offer party key cost now :: out) := by
  have hCount : countOn (limiter.offer party key cost now :: out) party key =
      countOn out party key + 1 := countOn_cons_self (limiter.offer party key cost now) out
  refine h.replace party key ((limiter.currentCell party key now).take cost) (fun p k => ?_)
    (fresh_le_reserve ..) (h.currentCell_serial_lt limits cost now)
    (h.currentCell_serial now) ?_ ?_ (fun admission hMem hHere => ?_)
    (fun admission hMem hOff => ?_) (fun p k hKey => countOn_cons_of_ne hKey out)
  · rw [reserve_cell?, hOpen]
  · rw [← h.currentCell_inFlight party key now] at hCount
    exact hCount.symm
  · rw [← h.currentCell_holders party key now] at hCount
    exact hCount.symm
  · rcases List.mem_cons.mp hMem with rfl | hMem
    · rfl
    · exact h.serial_of_isOn now hMem hHere
  · rcases List.mem_cons.mp hMem with rfl | hMem
    · rw [show (limiter.offer party key cost now).isOn party key = true from isOn_self _] at hOff
      cases hOff
    · exact hMem

/-- A settlement takes its admission out of the account. The subtraction from the counter
never stops at zero, since the admission was counted. -/
theorem settle {admission : Admission} (h : Accounts limiter (admission :: rest))
    (actual : Nat) (now : Instant) : Accounts (limiter.settle admission actual now) rest := by
  obtain ⟨cell, hCell, hSerial⟩ := h.attached admission List.mem_cons_self
  have hCount := countOn_cons_self admission rest
  refine h.replace admission.party admission.key
    (cell.settle limiter.window admission actual now) (fun p k => ?_)
    (Nat.le_of_eq (settle_fresh ..).symm) ?_
    (fun hOther hEq => h.serial_injective hCell hOther hEq) ?_ ?_
    (fun other hMem hHere => ?_) (fun other hMem _ => List.mem_cons_of_mem _ hMem)
    (fun p k hKey => (countOn_cons_of_ne hKey rest).symm)
  · rw [settle_cell?]
    split
    next hKey =>
      obtain ⟨rfl, rfl⟩ := hKey
      simp [hCell, hSerial]
    next => rfl
  · rw [settle_fresh]
    exact (h.serial_lt hCell : cell.serial < limiter.fresh)
  · have hInFlight := h.inFlight hCell
    simp only [Cell.settle, Counters.giveBack_inFlight]
    omega
  · have hHolders := h.holders hCell
    simp only [Cell.settle]
    omega
  · obtain ⟨same, hSame, hOther⟩ := h.attached other (List.mem_cons_of_mem _ hMem)
    obtain ⟨hParty, hKey⟩ := isOn_iff.mp hHere
    rw [hParty, hKey, hCell] at hSame
    cases hSame
    exact hOther.symm

/-- A removal leaves the account as it is: a cell that goes had nothing out on it. -/
theorem forget (h : Accounts limiter out) (key : String) :
    Accounts (limiter.forget key).1 out := by
  have hOld : ∀ {p k cell}, (limiter.forget key).1.cell? p k = some cell →
      limiter.cell? p k = some cell := by
    intro p k cell hCell
    rw [forget_cell?] at hCell
    split at hCell
    · exact (Option.filter_eq_some_iff.mp hCell).1
    · exact hCell
  refine ⟨fun hCell => h.inFlight (hOld hCell), fun hCell => h.holders (hOld hCell),
    fun admission hMem => ?_, fun hCell => ?_,
    fun hCell hOther => h.serial_injective (hOld hCell) (hOld hOther)⟩
  · obtain ⟨cell, hCell, hSerial⟩ := h.attached admission hMem
    refine ⟨cell, ?_, hSerial⟩
    rw [forget_cell?]
    split
    · have hPositive : 0 < cell.holders := by
        rw [h.holders hCell]
        exact countOn_pos hMem
      simp [hCell, Option.filter, Nat.ne_of_gt hPositive]
    · exact hCell
  · rw [forget_fresh]
    exact h.serial_lt (hOld hCell)

end Accounts

/-- An admission that is out leads to the cell that granted it. The cell counts it, belongs
to no other key, grants the next place of the key as well, and outlasts every removal. -/
structure Attached (limiter : Limiter) (admission : Admission) : Prop where
  cell : ∃ cell, limiter.cell? admission.party admission.key = some cell ∧
    cell.serial = admission.serial ∧ 0 < cell.counters.inFlight
  alone : ∀ {party key cell}, limiter.cell? party key = some cell →
    cell.serial = admission.serial → party = admission.party ∧ key = admission.key
  shared : ∀ cost now,
    (limiter.offer admission.party admission.key cost now).serial = admission.serial
  kept : admission.party = .deployment →
    limiter.forget admission.key = (limiter, false)

theorem Accounts.toAttached {limiter : Limiter} {out : List Admission}
    (h : Accounts limiter out) {admission : Admission} (hMem : admission ∈ out) :
    Attached limiter admission := by
  obtain ⟨cell, hCell, hSerial⟩ := h.attached admission hMem
  have hPositive := countOn_pos hMem
  refine ⟨⟨cell, hCell, hSerial, (h.inFlight hCell).symm ▸ hPositive⟩,
    fun hOther hEq => h.serial_injective hCell hOther (hEq.trans hSerial.symm),
    fun _ now => (h.serial_of_isOn now hMem admission.isOn_self).symm, fun hParty => ?_⟩
  have hHolders : cell.holders ≠ 0 := by
    rw [h.holders hCell]
    exact Nat.ne_of_gt hPositive
  rw [hParty] at hCell
  simp [Limiter.forget, hCell, hHolders]

namespace Log

/-- The limiter accounts for the places of its log, and no serial number will be given to a
second cell. -/
structure Sound (log : Log) : Prop where
  accounts : Accounts log.limiter log.out
  serial_lt : ∀ admission ∈ log.grants.map Grant.admission,
    admission.serial < log.limiter.fresh

variable {log : Log}

theorem Sound.giveBack (h : Sound log) (holder : Nat) (party : Party) (now : Instant)
    (cost : Admission → Nat) : Sound (log.giveBack holder party now cost) := by
  cases hOut : log.outOf holder party with
  | nil => rwa [giveBack_of_nil hOut]
  | cons admission rest =>
      have hAccounts := (h.accounts.perm (perm_out_giveBack hOut now cost)).settle
        (cost admission) now
      rw [giveBack_of_cons hOut] at hAccounts ⊢
      exact ⟨hAccounts, by simpa using h.serial_lt⟩

/-- Every atomic step keeps the account. -/
theorem Sound.perform (h : Sound log) (move : Move) : Sound (log.perform move) := by
  cases move with
  | settle holder party actual now => exact h.giveBack holder party now _
  | abandon holder party now => exact h.giveBack holder party now _
  | forget key =>
      refine ⟨h.accounts.forget key, fun admission hMem => ?_⟩
      simpa [Log.perform] using h.serial_lt admission hMem
  | reserve holder party key limits cost now =>
      obtain ⟨hLimiter, ⟨refusal, hRefusal, hGrants⟩ | ⟨hOpen, hGrants⟩⟩ :=
        perform_reserve_cases log holder party key limits cost now
      · refine ⟨?_, fun admission hMem => ?_⟩
        · rw [hLimiter, out_of_grants_eq hGrants]
          exact h.accounts.reserve_refused hRefusal
        · rw [hLimiter]
          rw [hGrants] at hMem
          exact Nat.lt_of_lt_of_le (h.serial_lt admission hMem) (Accounts.fresh_le_reserve ..)
      · refine ⟨?_, fun admission hMem => ?_⟩
        · rw [hLimiter, out_of_grants_append hGrants rfl]
          exact (h.accounts.reserve_granted hOpen).perm (List.perm_append_singleton ..).symm
        · rw [hLimiter]
          rw [hGrants, List.map_append, List.mem_append, List.map_singleton,
            List.mem_singleton] at hMem
          rcases hMem with hMem | rfl
          · exact Nat.lt_of_lt_of_le (h.serial_lt admission hMem) (Accounts.fresh_le_reserve ..)
          · exact h.accounts.currentCell_serial_lt limits cost now

theorem sound_run (window : Duration) (moves : List Move) : Sound (run window moves) :=
  performAll_induction ⟨Accounts.new window, by simp⟩ fun _ move _ h => h.perform move

/-- Whether a step, if it asks for a place on a key, sets a limit of calls at one time that
is no greater than `most`. -/
def Bounds (party : Party) (key : String) (most : Nat) : Move → Prop
  | .reserve _ p k limits _ _ =>
      p = party ∧ k = key → ∃ limit, limits.parallel = some limit ∧ limit ≤ most
  | .settle .. | .abandon .. | .forget _ => True

theorem outOn_giveBack_le (log : Log) (holder : Nat) (party p : Party) (key : String)
    (now : Instant) (cost : Admission → Nat) :
    (log.giveBack holder party now cost).outOn p key ≤ log.outOn p key := by
  cases hOut : log.outOf holder party with
  | nil => exact Nat.le_of_eq (by rw [giveBack_of_nil hOut])
  | cons admission rest =>
      rw [outOn, outOn, countOn_perm (perm_out_giveBack hOut now cost)]
      exact (List.sublist_cons_self ..).countP_le

/-- A grant finds room under its own limit, so the bound survives it. -/
theorem Sound.outOn_perform_le (h : Sound log) {party : Party} {key : String} {most : Nat}
    {move : Move} (hBounds : Bounds party key most move) (hLe : log.outOn party key ≤ most) :
    (log.perform move).outOn party key ≤ most := by
  cases move with
  | settle holder p actual now => exact Nat.le_trans (outOn_giveBack_le ..) hLe
  | abandon holder p now => exact Nat.le_trans (outOn_giveBack_le ..) hLe
  | forget k => exact hLe
  | reserve holder p k limits cost now =>
      obtain ⟨_, ⟨refusal, _, hGrants⟩ | ⟨hOpen, hGrants⟩⟩ :=
        perform_reserve_cases log holder p k limits cost now
      · rw [outOn, out_of_grants_eq hGrants]
        exact hLe
      · rw [outOn, out_of_grants_append hGrants rfl,
          countOn_perm (List.perm_append_singleton ..)]
        -- Only a grant on this very key adds to the count.
        by_cases hKey : party = p ∧ key = k
        · obtain ⟨rfl, rfl⟩ := hKey
          obtain ⟨limit, hLimit, hLimitLe⟩ := hBounds ⟨rfl, rfl⟩
          have hRoom := Limits.inFlight_lt_of_refusal?_eq_none hOpen hLimit
          have hCount : (log.limiter.currentCell party key now).counters.inFlight =
            log.outOn party key := h.accounts.currentCell_inFlight party key now
          have hCons := countOn_cons_self (log.limiter.offer party key cost now) log.out
          simp only [offer, Counters.load, outOn] at *
          omega
        · rw [countOn_cons_of_ne hKey]
          exact hLe

/-- In every interleaving of atomic steps the counters agree with the places that are out.
The counter of a key is the number of admissions on it that have not come back, so it never
has to stop at zero and stays within 32 bits as long as that many are out. An admission that
is out leads to the very cell that granted it, also across removals. Hence a limit of calls
at one time that all requests for a key observe is never exceeded. -/
theorem run_places_accounted (window : Duration) (moves : List Move) :
    (∀ party key now, ((run window moves).limiter.load party key now).inFlight =
        (run window moves).outOn party key) ∧
      ((run window moves).out.length ≤ Counter.top32 → ∀ party key now,
        ((run window moves).limiter.load party key now).inFlight ≤ Counter.top32) ∧
      (∀ admission ∈ (run window moves).out,
        Attached (run window moves).limiter admission) ∧
      (∀ party key most, (∀ move ∈ moves, Bounds party key most move) →
        (run window moves).outOn party key ≤ most) := by
  have hSound := sound_run window moves
  refine ⟨hSound.accounts.load_inFlight, fun hFits party key now => ?_,
    fun admission hMem => hSound.accounts.toAttached hMem, fun party key most hBounds => ?_⟩
  · rw [hSound.accounts.load_inFlight]
    exact Nat.le_trans (countOn_le_length ..) hFits
  · have hBoth : Sound (run window moves) ∧ (run window moves).outOn party key ≤ most :=
      performAll_induction (motive := fun log => Sound log ∧ log.outOn party key ≤ most)
        ⟨⟨Accounts.new window, by simp⟩, Nat.zero_le most⟩
        fun log move hMem hLog =>
          ⟨hLog.1.perform move, hLog.1.outOn_perform_le (hBounds move hMem) hLog.2⟩
    exact hBoth.2

/-- One call at a time on a deployment that is removed twice. The first removal comes while a
call is in flight and keeps the cell, so the next two requests are refused; the second one
drops it, and the last request begins a new cell. -/
def drainedMoves : List Move :=
  [.reserve 0 .deployment "d1" { parallel := some 1 } 5 0,
    .reserve 1 .deployment "d1" { parallel := some 1 } 5 10, .forget "d1",
    .reserve 2 .deployment "d1" { parallel := some 1 } 5 20, .settle 0 .deployment 7 30,
    .forget "d1", .reserve 3 .deployment "d1" { parallel := some 1 } 5 40]

theorem run_places_accounted_drained :
    (run Limiter.defaultWindow drainedMoves).out = [⟨.deployment, "d1", 1, 5, 0⟩] ∧
      (∀ move ∈ drainedMoves, Bounds .deployment "d1" 1 move) ∧
      (run Limiter.defaultWindow drainedMoves).outOn .deployment "d1" ≤ 1 ∧
      ((run Limiter.defaultWindow drainedMoves).limiter.load .deployment "d1" 40).inFlight ≤
        Counter.top32 ∧
      Attached (run Limiter.defaultWindow drainedMoves).limiter ⟨.deployment, "d1", 1, 5, 0⟩ := by
  have hOut : (run Limiter.defaultWindow drainedMoves).out = [⟨.deployment, "d1", 1, 5, 0⟩] := by
    decide
  have hBounds : ∀ move ∈ drainedMoves, Bounds .deployment "d1" 1 move := by
    simp [drainedMoves, Bounds]
  obtain ⟨_, hWidth, hAttached, hMost⟩ :=
    run_places_accounted Limiter.defaultWindow drainedMoves
  refine ⟨hOut, hBounds, hMost .deployment "d1" 1 hBounds, hWidth ?_ .deployment "d1" 40,
    hAttached _ ?_⟩
  · rw [hOut]
    decide
  · rw [hOut]
    exact List.mem_cons_self

end Log

end Limiter

end DeploymentRouting
