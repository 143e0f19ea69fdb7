import DeploymentRouting.Proofs.Limiter.Occupancy
import Mathlib.Data.List.Infix
import Mathlib.Data.List.Induction
/-!
What the counts of a key are made of. A grant stands for one request, and for as many tokens as it
cost in the end, or as were estimated for it as long as it is out. The counts of a key are the sums
over the grants of the window at which its cell is. Windows are told apart by their numbers alone,
so the instants of the steps may come in any order. A sum can be split by the holders of the
grants, and what one holder stands for is changed by no other.
-/
namespace DeploymentRouting

universe u

/-- The sum of an amount over some items. -/
def tally {α : Type u} (amount : α → Nat) (items : List α) : Nat :=
  items.foldr (fun item sum => amount item + sum) 0

section Tally

variable {α : Type u} {amount other : α → Nat}

@[simp] theorem tally_nil (amount : α → Nat) : tally amount [] = 0 := rfl

@[simp] theorem tally_cons (amount : α → Nat) (item : α) (items : List α) :
    tally amount (item :: items) = amount item + tally amount items := rfl

/-- Amounts of two lists add up. -/
@[simp] theorem tally_append (amount : α → Nat) (first second : List α) :
    tally amount (first ++ second) = tally amount first + tally amount second := by
  induction first with
  | nil => exact (Nat.zero_add _).symm
  | cons item first ih => rw [List.cons_append, tally_cons, tally_cons, ih, Nat.add_assoc]

theorem tally_congr {items : List α} (h : ∀ item ∈ items, amount item = other item) :
    tally amount items = tally other items := by
  induction items with
  | nil => rfl
  | cons item items ih =>
      obtain ⟨hItem, hItems⟩ := List.forall_mem_cons.mp h
      rw [tally_cons, tally_cons, hItem, ih hItems]

/-- Items that count for nothing add up to nothing. -/
theorem tally_eq_zero {items : List α} (h : ∀ item ∈ items, amount item = 0) :
    tally amount items = 0 := by
  induction items with
  | nil => rfl
  | cons item items ih =>
      obtain ⟨hItem, hItems⟩ := List.forall_mem_cons.mp h
      rw [tally_cons, hItem, ih hItems]

end Tally

namespace Limiter

namespace Grant

/-- The tokens that a grant stands for. -/
def charge (grant : Grant) : Nat := (grant.returned.map Prod.snd).getD grant.admission.estimate

/-- What a grant has cost, once it has come back. -/
def cost (grant : Grant) : Nat := (grant.returned.map Prod.snd).getD 0

/-- Whether a grant was made to a holder on a key. -/
def isOwn (holder : Nat) (party : Party) (key : String) (grant : Grant) : Bool :=
  grant.holder == holder && grant.admission.isOn party key

/-- The sum of some amount over the grants of a kind. -/
def sumOf (amount : Grant → Nat) (keep : Grant → Bool) (grants : List Grant) : Nat :=
  tally (fun grant => if keep grant then amount grant else 0) grants

section Sums

variable {amount : Grant → Nat} {keep other : Grant → Bool} {grants : List Grant}

@[simp] theorem sumOf_nil (amount : Grant → Nat) (keep : Grant → Bool) :
    sumOf amount keep [] = 0 := rfl

@[simp] theorem sumOf_cons (amount : Grant → Nat) (keep : Grant → Bool) (grant : Grant)
    (grants : List Grant) :
    sumOf amount keep (grant :: grants) =
      (if keep grant then amount grant else 0) + sumOf amount keep grants := rfl

@[simp] theorem sumOf_append (amount : Grant → Nat) (keep : Grant → Bool)
    (first second : List Grant) :
    sumOf amount keep (first ++ second) = sumOf amount keep first + sumOf amount keep second :=
  tally_append ..

/-- Where no grant is kept the sum is zero. -/
theorem sumOf_eq_zero (h : ∀ grant ∈ grants, keep grant = false) :
    sumOf amount keep grants = 0 :=
  tally_eq_zero fun grant hMem => by simp [h grant hMem]

theorem sumOf_congr (h : ∀ grant ∈ grants, keep grant = other grant) :
    sumOf amount keep grants = sumOf amount other grants :=
  tally_congr fun grant hMem => by rw [h grant hMem]

/-- The grants of a kind are those that are of another kind as well and those that are not. -/
theorem sumOf_split (amount : Grant → Nat) (keep other : Grant → Bool) (grants : List Grant) :
    sumOf amount keep grants =
      sumOf amount (fun grant => keep grant && other grant) grants +
        sumOf amount (fun grant => keep grant && !other grant) grants := by
  induction grants with
  | nil => rfl
  | cons grant grants ih =>
      rw [sumOf_cons, sumOf_cons, sumOf_cons, ih]
      cases keep grant <;> cases other grant <;> simp <;> omega

end Sums

end Grant

open Grant

end Limiter

open Limiter

/-- The window that granted a place, by the number of the cell and by its own. -/
def Admission.epoch (admission : Admission) : Nat × Nat := (admission.serial, admission.generation)

namespace Cell

/-- The window at which a cell is, by the number of the cell and by its own. -/
def epoch (cell : Cell) : Nat × Nat := (cell.serial, cell.counters.generation)

/-- Whether a grant was made by a cell in the window at which the cell is. -/
def granted (cell : Cell) (party : Party) (key : String) (grant : Grant) : Bool :=
  grant.admission.isOn party key && grant.admission.epoch == cell.epoch

/-- The counts of a cell are the sums over the grants of its window, if that is the window that
matters, and no grant is of a later one. -/
structure Sums (epoch : Nat × Nat) (cell : Cell) (party : Party) (key : String)
    (grants : List Grant) : Prop where
  requests : cell.epoch = epoch →
    cell.counters.requests = Grant.sumOf (fun _ => 1) (cell.granted party key) grants
  tokens : cell.epoch = epoch →
    cell.counters.tokens = Grant.sumOf Grant.charge (cell.granted party key) grants
  bounded : cell.counters.generation ≤ Counter.top64
  earlier : ∀ grant ∈ grants, grant.admission.isOn party key = true →
    grant.admission.serial = cell.serial →
      grant.admission.generation ≤ cell.counters.generation

variable {epoch : Nat × Nat} {cell : Cell} {party : Party} {key : String}
  {grants before after : List Grant} {grant : Grant}

/-- A grant counts for a cell if it is on its key and of its present window. -/
theorem granted_iff : cell.granted party key grant = true ↔
    grant.admission.isOn party key = true ∧ grant.admission.epoch = cell.epoch := by
  simp [granted]

/-- What counts for a cell depends on its window alone. -/
theorem granted_eq {other : Cell} (hEpoch : other.epoch = cell.epoch) :
    other.granted party key = cell.granted party key := by
  funext grant
  simp only [granted, hEpoch]

theorem epoch_eq {other : Cell} (hSerial : other.serial = cell.serial)
    (hGeneration : other.counters.generation = cell.counters.generation) :
    other.epoch = cell.epoch :=
  Prod.ext hSerial hGeneration

/-- Cells of the same counts and the same window stand for the same sums. -/
theorem Sums.congr (h : cell.Sums epoch party key grants) {other : Cell}
    (hSerial : other.serial = cell.serial)
    (hRequests : other.counters.requests = cell.counters.requests)
    (hTokens : other.counters.tokens = cell.counters.tokens)
    (hGeneration : other.counters.generation = cell.counters.generation) :
    other.Sums epoch party key grants := by
  have hEpoch := epoch_eq hSerial hGeneration
  obtain ⟨hCount, hSum, hBounded, hEarlier⟩ := h
  rw [← hRequests, ← hEpoch] at hCount
  rw [← hTokens, ← hEpoch] at hSum
  rw [← hGeneration] at hBounded
  rw [← hSerial, ← hGeneration] at hEarlier
  rw [← granted_eq hEpoch] at hCount hSum
  exact ⟨hCount, hSum, hBounded, hEarlier⟩

/-- A window that begins has no grants yet. -/
theorem sums_of_none (hRequests : cell.counters.requests = 0) (hTokens : cell.counters.tokens = 0)
    (hBounded : cell.counters.generation ≤ Counter.top64)
    (hEarlier : ∀ grant ∈ grants, grant.admission.isOn party key = true →
      grant.admission.serial = cell.serial →
        grant.admission.generation ≤ cell.counters.generation)
    (hNone : cell.epoch = epoch → ∀ grant ∈ grants, cell.granted party key grant = false) :
    cell.Sums epoch party key grants :=
  ⟨fun hEpoch => hRequests.trans (Grant.sumOf_eq_zero (hNone hEpoch)).symm,
    fun hEpoch => hTokens.trans (Grant.sumOf_eq_zero (hNone hEpoch)).symm, hBounded, hEarlier⟩

/-- The numbers of windows are told apart as long as they have not come to their end. -/
theorem Sums.roll (h : cell.Sums epoch party key grants) (window : Duration) (now : Instant)
    (hNumber : epoch.2 < Counter.top64) : (cell.roll window now).Sums epoch party key grants := by
  by_cases hPassed : cell.counters.windowsPassed window now = 0
  · have hSame : cell.roll window now = cell := by
      simp only [Cell.roll, Counters.roll, if_pos hPassed]
    rw [hSame]
    exact h
  · have hRolled : (cell.roll window now).counters.generation =
        Counter.add64 cell.counters.generation (cell.counters.windowsPassed window now) := by
      simp only [Cell.roll, Counters.roll, if_neg hPassed]
    have hBounded := h.bounded
    have hLater : cell.counters.generation ≤ (cell.roll window now).counters.generation := by
      rw [hRolled]
      simp only [Counter.add64]
      omega
    refine sums_of_none ?_ ?_ ?_ (fun grant hMem hOn hSerial =>
      (h.earlier grant hMem hOn hSerial).trans hLater) fun hEpoch grant hMem => ?_
    · simp only [Cell.roll, Counters.roll, if_neg hPassed]
    · simp only [Cell.roll, Counters.roll, if_neg hPassed]
    · rw [hRolled]
      exact Nat.min_le_right ..
    · refine Bool.eq_false_iff.mpr fun hGranted => ?_
      obtain ⟨hOn, hSame⟩ := granted_iff.mp hGranted
      obtain ⟨hSerial, hGeneration⟩ := Prod.ext_iff.mp hSame
      have hLe := h.earlier grant hMem hOn hSerial
      have hLast : (cell.roll window now).counters.generation = epoch.2 :=
        congrArg Prod.snd hEpoch
      simp only [Admission.epoch, Cell.epoch] at hGeneration
      simp only [Counter.add64] at hRolled
      omega

/-- A grant adds to the counts what it adds to the sums. -/
theorem Sums.take (h : cell.Sums epoch party key grants) {holder cost : Nat} {now : Instant}
    {admission : Admission} (hOn : admission.isOn party key = true)
    (hEstimate : admission.estimate = cost) (hSame : admission.epoch = cell.epoch)
    (hFits : cell.epoch = epoch → Grant.sumOf Grant.charge (cell.granted party key)
      (grants ++ [{ holder, admission, instant := now }]) ≤ Counter.top64) :
    (cell.take cost).Sums epoch party key (grants ++ [{ holder, admission, instant := now }]) := by
  have hKept : (cell.take cost).granted party key = cell.granted party key := rfl
  have hGranted : cell.granted party key { holder, admission, instant := now } = true :=
    granted_iff.mpr ⟨hOn, hSame⟩
  have hCharge : Grant.charge { holder, admission, instant := now } = cost := hEstimate
  refine ⟨fun hEpoch => ?_, fun hEpoch => ?_, h.bounded, ?_⟩
  · rw [hKept]
    simp only [Grant.sumOf_append, Grant.sumOf_cons, Grant.sumOf_nil, hGranted, if_true,
      ← h.requests hEpoch, Nat.add_zero]
    rfl
  · have hSum := hFits hEpoch
    rw [hKept]
    simp only [Grant.sumOf_append, Grant.sumOf_cons, Grant.sumOf_nil, hGranted, if_true, hCharge,
      ← h.tokens hEpoch, Nat.add_zero] at hSum ⊢
    exact Counter.add64_eq_add hSum
  · intro grant hMem hGrantOn hGrantSerial
    rcases List.mem_append.mp hMem with hOld | hNew
    · exact h.earlier grant hOld hGrantOn hGrantSerial
    · rw [List.mem_singleton.mp hNew]
      exact Nat.le_of_eq (congrArg Prod.snd hSame)

/-- Grants on other keys do not count. -/
theorem Sums.elsewhere (h : cell.Sums epoch party key grants)
    (hOther : grant.admission.isOn party key = false) :
    cell.Sums epoch party key (grants ++ [grant]) := by
  have hNot : cell.granted party key grant = false := by simp [granted, hOther]
  refine ⟨fun hEpoch => ?_, fun hEpoch => ?_, h.bounded, fun other hMem hOn => ?_⟩
  · simp [h.requests hEpoch, hNot]
  · simp [h.tokens hEpoch, hNot]
  · rcases List.mem_append.mp hMem with hOld | hNew
    · exact h.earlier other hOld hOn
    · rw [List.mem_singleton.mp hNew, hOther] at hOn
      cases hOn

section Returned

variable {how : Instant × Nat}

/-- To mark a grant as returned leaves the order of the windows as it was. -/
theorem earlier_returned (h : ∀ other ∈ before ++ grant :: after,
      other.admission.isOn party key = true → other.admission.serial = cell.serial →
        other.admission.generation ≤ cell.counters.generation) :
    ∀ other ∈ before ++ { grant with returned := some how } :: after,
      other.admission.isOn party key = true → other.admission.serial = cell.serial →
        other.admission.generation ≤ cell.counters.generation := by
  intro other hMem
  obtain ⟨old, hOld, hAdmission, _⟩ := Grant.exists_of_mem_returned hMem
  rw [← hAdmission]
  exact h old hOld

/-- A grant of another window or key may come back at any price. -/
theorem Sums.returned_elsewhere (h : cell.Sums epoch party key (before ++ grant :: after))
    (hNot : cell.granted party key grant = false) :
    cell.Sums epoch party key (before ++ { grant with returned := some how } :: after) := by
  have hStill : cell.granted party key { grant with returned := some how } = false := hNot
  refine ⟨fun hEpoch => ?_, fun hEpoch => ?_, h.bounded, earlier_returned h.earlier⟩
  · simpa [hNot, hStill] using h.requests hEpoch
  · simpa [hNot, hStill] using h.tokens hEpoch

/-- A grant of the window puts its cost in the place of its estimate. -/
theorem Sums.returned (h : cell.Sums epoch party key (before ++ grant :: after))
    (hGranted : cell.granted party key grant = true) (hOut : grant.returned = none)
    {other : Cell} (hSerial : other.serial = cell.serial)
    (hRequests : other.counters.requests = cell.counters.requests)
    (hGeneration : other.counters.generation = cell.counters.generation)
    (hTokens : other.counters.tokens =
      Counter.add64 (cell.counters.tokens - grant.admission.estimate) how.2)
    (hFits : other.epoch = epoch → Grant.sumOf Grant.charge (other.granted party key)
      (before ++ { grant with returned := some how } :: after) ≤ Counter.top64) :
    other.Sums epoch party key (before ++ { grant with returned := some how } :: after) := by
  have hEpoch := epoch_eq hSerial hGeneration
  have hSame : other.granted party key = cell.granted party key := granted_eq hEpoch
  have hStill : cell.granted party key { grant with returned := some how } = true := hGranted
  have hBefore : grant.charge = grant.admission.estimate := by simp [Grant.charge, hOut]
  have hAfter : Grant.charge { grant with returned := some how } = how.2 := rfl
  rw [hSame, hEpoch] at hFits
  refine ⟨fun hHere => ?_, fun hHere => ?_, hGeneration ▸ h.bounded, ?_⟩
  · rw [hSame]
    simpa [hGranted, hStill, hRequests] using h.requests (hEpoch.symm.trans hHere)
  · have hSum := h.tokens (hEpoch.symm.trans hHere)
    have hFit := hFits (hEpoch.symm.trans hHere)
    rw [hSame]
    simp only [Grant.sumOf_append, Grant.sumOf_cons, hGranted, hStill, if_true, hBefore, hAfter]
      at hSum hFit ⊢
    rw [hTokens, hSum, Counter.add64_eq_add (by omega)]
    omega
  · rw [hSerial, hGeneration]
    exact earlier_returned h.earlier

/-- A return within the window of the grant puts the cost in place of the estimate. -/
theorem Sums.settle (h : cell.Sums epoch party key (before ++ grant :: after))
    (hOn : grant.admission.isOn party key = true)
    (hSerial : cell.serial = grant.admission.serial) (hOut : grant.returned = none)
    {window : Duration} {now : Instant} {cost : Nat} (hNumber : epoch.2 < Counter.top64)
    (hFits : (cell.settle window grant.admission cost now).epoch = epoch →
      Grant.sumOf Grant.charge
        ((cell.settle window grant.admission cost now).granted party key)
        (before ++ { grant with returned := some (now, cost) } :: after) ≤ Counter.top64) :
    (cell.settle window grant.admission cost now).Sums epoch party key
      (before ++ { grant with returned := some (now, cost) } :: after) := by
  have hSettled : (cell.settle window grant.admission cost now).counters =
      cell.counters.giveBack window now grant.admission.generation grant.admission.estimate
        cost := rfl
  rw [Counters.giveBack_eq] at hSettled
  have hGeneration : (cell.settle window grant.admission cost now).counters.generation =
      (cell.roll window now).counters.generation := by
    rw [hSettled]
    rfl
  have hRolled := h.roll window now hNumber
  by_cases hGranted : (cell.roll window now).granted party key grant = true
  · have hSame : grant.admission.generation = (cell.roll window now).counters.generation :=
      congrArg Prod.snd (granted_iff.mp hGranted).2
    refine hRolled.returned hGranted hOut rfl ?_ hGeneration ?_ hFits
    · rw [hSettled]
      rfl
    · rw [hSettled]
      exact if_pos hSame.symm
  · have hOther : ¬(cell.counters.roll window now).generation = grant.admission.generation :=
      fun hSame => hGranted (granted_iff.mpr ⟨hOn, Prod.ext hSerial.symm hSame.symm⟩)
    refine (hRolled.returned_elsewhere (Bool.eq_false_iff.mpr hGranted)).congr rfl ?_ ?_
      hGeneration
    · rw [hSettled]
      rfl
    · rw [hSettled]
      exact if_neg hOther

end Returned

end Cell

namespace Limiter

namespace Log

open Grant

variable {log : Log} {party p : Party} {key : String} {window : Duration} {moves : List Move}

/-- What the grants of some holders stand for in the window at which the cell of a key is. -/
def standing (log : Log) (amount : Grant → Nat) (who : Nat → Bool) (party : Party)
    (key : String) : Nat :=
  (log.limiter.cell? party key).elim 0 fun cell =>
    sumOf amount (fun grant => cell.granted party key grant && who grant.holder) log.grants

/-- The tokens of a window do not reach the end of their counter. -/
def Fits (log : Log) (epoch : Nat × Nat) (party : Party) (key : String) : Prop :=
  ∀ cell ∈ log.limiter.cell? party key, cell.epoch = epoch →
    sumOf charge (cell.granted party key) log.grants ≤ Counter.top64

instance (log : Log) (epoch : Nat × Nat) (party : Party) (key : String) :
    Decidable (log.Fits epoch party key) :=
  inferInstanceAs (Decidable (∀ cell ∈ log.limiter.cell? party key, cell.epoch = epoch →
    sumOf charge (cell.granted party key) log.grants ≤ Counter.top64))

/-- The counts of a key are the sums over the grants of its window, if that is the window that
matters. -/
def Sums (log : Log) (epoch : Nat × Nat) (party : Party) (key : String) : Prop :=
  ∀ cell, log.limiter.cell? party key = some cell → cell.Sums epoch party key log.grants

/-! ## Steps -/

section Steps

variable {epoch : Nat × Nat}

/-- The cell that is looked at stands for the sums of its window, also when it is new. -/
theorem Sums.currentCell (h : log.Sums epoch party key) (hSound : log.Sound) {now : Instant}
    (hNumber : epoch.2 < Counter.top64) :
    (log.limiter.currentCell party key now).Sums epoch party key log.grants := by
  cases hCell : log.limiter.cell? party key with
  | none =>
      rw [currentCell_of_none _ _ _ _ hCell]
      -- A cell that is made has a serial number that no grant has.
      have hFresh : ∀ grant ∈ log.grants, grant.admission.serial ≠ log.limiter.fresh :=
        fun grant hMem => Nat.ne_of_lt (hSound.serial_lt grant.admission (List.mem_map_of_mem hMem))
      refine Cell.sums_of_none rfl rfl (Nat.zero_le _)
        (fun grant hMem _ hSerial => absurd hSerial (hFresh grant hMem)) fun _ grant hMem => ?_
      refine Bool.eq_false_iff.mpr fun hGranted => hFresh grant hMem ?_
      exact congrArg Prod.fst (Cell.granted_iff.mp hGranted).2
  | some cell =>
      rw [currentCell_of_some _ _ _ _ hCell]
      exact (h cell hCell).roll log.limiter.window now hNumber

/-- Sums are kept by a request for a place, whatever the answer. -/
theorem Sums.reserve (h : log.Sums epoch party key) (hSound : log.Sound) {holder cost : Nat}
    {other : String} {limits : Limits} {now : Instant} (hNumber : epoch.2 < Counter.top64)
    (hFits : (log.perform (.reserve holder p other limits cost now)).Fits epoch party key) :
    (log.perform (.reserve holder p other limits cost now)).Sums epoch party key := by
  obtain ⟨hLimiter, hGrants⟩ := perform_reserve_cases log holder p other limits cost now
  intro cell hCell
  have hSum := hFits cell hCell
  rw [hLimiter, reserve_cell?] at hCell
  by_cases hHere : party = p ∧ key = other
  · obtain ⟨rfl, rfl⟩ := hHere
    rw [if_pos ⟨rfl, rfl⟩, Option.some.injEq] at hCell
    rcases hGrants with ⟨refusal, hRefusal, hGrants⟩ | ⟨hOpen, hGrants⟩
    · rw [hRefusal] at hCell
      rw [hGrants, ← hCell]
      exact h.currentCell hSound hNumber
    · rw [hOpen] at hCell
      subst hCell
      rw [hGrants] at hSum ⊢
      exact (h.currentCell hSound hNumber).take (Admission.isOn_self _) rfl rfl hSum
  · rw [if_neg hHere] at hCell
    rcases hGrants with ⟨refusal, hRefusal, hGrants⟩ | ⟨hOpen, hGrants⟩
    · rw [hGrants]
      exact h cell hCell
    · rw [hGrants]
      refine (h cell hCell).elsewhere (Bool.eq_false_iff.mpr fun hOn => hHere ?_)
      obtain ⟨hParty, hKey⟩ := Admission.isOn_iff.mp hOn
      exact ⟨hParty.symm, hKey.symm⟩

/-- They are kept by a return. -/
theorem Sums.giveBack (h : log.Sums epoch party key) {holder : Nat} {now : Instant}
    {cost : Admission → Nat} (hNumber : epoch.2 < Counter.top64)
    (hFits : (log.giveBack holder p now cost).Fits epoch party key) :
    (log.giveBack holder p now cost).Sums epoch party key := by
  cases hOut : log.outOf holder p with
  | nil =>
      rw [giveBack_of_nil hOut]
      exact h
  | cons admission rest =>
      rw [giveBack_of_cons hOut] at hFits ⊢
      obtain ⟨before, grant, after, hGrants, rfl, hNotBack, hMarks⟩ :=
        @Grant.markReturned_eq_append holder p now (cost admission) _ _ _ hOut
      -- A grant of another key, or of a cell that is gone, has no part in the sums.
      have hApart : ∀ cell, log.limiter.cell? party key = some cell →
          cell.granted party key grant = false →
          cell.Sums epoch party key (before ++
            { grant with returned := some (now, cost grant.admission) } :: after) := by
        intro cell hCell hNot
        have hSums := h cell hCell
        rw [hGrants] at hSums
        exact hSums.returned_elsewhere hNot
      intro cell hCell
      have hSum := hFits cell hCell
      rw [hMarks] at hSum ⊢
      rw [settle_cell?] at hCell
      split at hCell
      next hHere =>
        obtain ⟨rfl, rfl⟩ := hHere
        obtain ⟨old, hOld, hCell⟩ := Option.map_eq_some_iff.mp hCell
        split at hCell
        next hSerial =>
          subst hCell
          have hSums := h old hOld
          rw [hGrants] at hSums
          exact hSums.settle (Admission.isOn_self _) hSerial hNotBack hNumber hSum
        next hSerial =>
          subst hCell
          exact hApart old hOld (Bool.eq_false_iff.mpr fun hGranted =>
            hSerial (congrArg Prod.fst (Cell.granted_iff.mp hGranted).2).symm)
      next hElsewhere =>
        refine hApart cell hCell (Bool.eq_false_iff.mpr fun hGranted => hElsewhere ?_)
        obtain ⟨hParty, hKey⟩ := Admission.isOn_iff.mp (Cell.granted_iff.mp hGranted).1
        exact ⟨hParty.symm, hKey.symm⟩

/-- So every move of the limiter keeps them. -/
theorem Sums.perform (h : log.Sums epoch party key) (hSound : log.Sound) {move : Move}
    (hNumber : epoch.2 < Counter.top64) (hFits : (log.perform move).Fits epoch party key) :
    (log.perform move).Sums epoch party key := by
  cases move with
  | reserve holder p other limits cost now => exact h.reserve hSound hNumber hFits
  | settle holder p actual now => exact h.giveBack hNumber hFits
  | abandon holder p now => exact h.giveBack hNumber hFits
  | forget other =>
      intro cell hCell
      have hOld : log.limiter.cell? party key = some cell := by
        change (log.limiter.forget other).1.cell? party key = some cell at hCell
        rw [forget_cell?] at hCell
        split at hCell
        · exact (Option.filter_eq_some_iff.mp hCell).1
        · exact hCell
      exact h cell hOld

/-- The counts of a key in one window are what its grants of that window stand for, whatever was
done before and meanwhile, and in whatever order, as long as no counter came to its end in that
window. -/
theorem sums_run (hNumber : epoch.2 < Counter.top64)
    (hFits : ∀ prior ∈ moves.inits, (run window prior).Fits epoch party key) :
    (run window moves).Sums epoch party key := by
  induction moves using List.reverseRecOn with
  | nil => exact fun cell hCell => by simp [run] at hCell
  | append_singleton moves move ih =>
      have hEarlier := ih fun prior hPrior => hFits prior <| (List.mem_inits ..).mpr <|
        ((List.mem_inits ..).mp hPrior).trans (List.prefix_append moves [move])
      have hLast := hFits _ ((List.mem_inits ..).mpr (List.prefix_refl _))
      rw [run, performAll_append] at hLast ⊢
      exact hEarlier.perform (sound_run window moves) hNumber hLast

end Steps

/-! ## One holder -/

/-- The places on a key that a holder was ever granted. -/
def granted (log : Log) (holder : Nat) (party : Party) (key : String) : Nat :=
  sumOf (fun _ => 1) (isOwn holder party key) log.grants

/-- What the places of a holder on a key have cost that have come back. -/
def paid (log : Log) (holder : Nat) (party : Party) (key : String) : Nat :=
  sumOf Grant.cost (isOwn holder party key) log.grants

/-- The cell of a key is still in the window of every place on it that a holder was granted. -/
def InWindow (log : Log) (holder : Nat) (party : Party) (key : String) : Prop :=
  ∀ grant ∈ log.grants, isOwn holder party key grant = true →
    (log.limiter.cell? party key).any (·.granted party key grant) = true

instance (log : Log) (holder : Nat) (party : Party) (key : String) :
    Decidable (log.InWindow holder party key) :=
  inferInstanceAs (Decidable (∀ grant ∈ log.grants, isOwn holder party key grant = true →
    (log.limiter.cell? party key).any (·.granted party key grant) = true))

section Holders

variable {holder h : Nat} {limits : Limits} {now : Instant} {cost : Nat} {place : Option Admission}

/-- To ask for a place pays for nothing. -/
theorem paid_reserve (log : Log) (holder : Nat) (party : Party) (key : String) (limits : Limits)
    (cost : Nat) (now : Instant) (h : Nat) (p : Party) (k : String) :
    (log.perform (.reserve holder party key limits cost now)).paid h p k = log.paid h p k := by
  obtain ⟨_, ⟨refusal, _, hGrants⟩ | ⟨_, hGrants⟩⟩ :=
    perform_reserve_cases log holder party key limits cost now
  · rw [paid, hGrants]
    rfl
  · rw [paid, hGrants, sumOf_append, sumOf_cons, sumOf_nil]
    simp [paid, Grant.cost]

/-- Asked for a place, the limiter grants one to the holder or none at all. -/
theorem granted_reserve (log : Log) (holder : Nat) (party : Party) (key : String)
    (limits : Limits) (cost : Nat) (now : Instant) (p : Party) (k : String) :
    (log.perform (.reserve holder party key limits cost now)).granted holder p k =
      log.granted holder p k + Admission.countOn
        (log.limiter.reserve party key limits cost now).2.toOption.toList p k := by
  rw [reserve_snd]
  obtain ⟨_, ⟨refusal, hRefusal, hGrants⟩ | ⟨hOpen, hGrants⟩⟩ :=
    perform_reserve_cases log holder party key limits cost now
  · rw [granted, hGrants, hRefusal]
    rfl
  · rw [granted, hGrants, sumOf_append, sumOf_cons, sumOf_nil, hOpen]
    cases hOn : (log.limiter.offer party key cost now).isOn p k <;>
      simp [granted, isOwn, Admission.countOn, hOn, Except.toOption]

/-- A return adds the cost of the first place that is out to what its holder has paid. -/
theorem sumOf_cost_markReturned {grants : List Grant} {admission : Admission}
    {rest : List Admission}
    (hOut : (grants.filter (isOutWith holder party)).map Grant.admission = admission :: rest)
    (p : Party) (k : String) :
    sumOf Grant.cost (isOwn holder p k) (markReturned holder party now cost grants) =
      sumOf Grant.cost (isOwn holder p k) grants + if admission.isOn p k then cost else 0 := by
  induction grants with
  | nil => simp at hOut
  | cons grant grants ih =>
      by_cases hMarked : grant.isOutWith holder party = true
      · simp only [List.filter_cons, hMarked, if_true, List.map_cons, List.cons.injEq] at hOut
        have hWith := hMarked
        simp only [isOutWith, isOut, Bool.and_eq_true, Option.isNone_iff_eq_none, beq_iff_eq]
          at hWith
        obtain ⟨⟨hNotBack, rfl⟩, _⟩ := hWith
        have hKept : Grant.cost grant = 0 := by simp [Grant.cost, hNotBack]
        have hPaid : Grant.cost { grant with returned := some (now, cost) } = cost := rfl
        have hOwn : isOwn grant.holder p k grant = admission.isOn p k := by
          rw [← hOut.1, isOwn, BEq.rfl, Bool.true_and]
        have hStill : isOwn grant.holder p k { grant with returned := some (now, cost) } =
            isOwn grant.holder p k grant := rfl
        rw [markReturned, if_pos hMarked, sumOf_cons, sumOf_cons, hKept, hPaid, hStill, hOwn,
          ite_self, Nat.zero_add, Nat.add_comm]
      · simp only [List.filter_cons, hMarked, if_false, Bool.false_eq_true] at hOut
        rw [markReturned, if_neg hMarked, sumOf_cons, sumOf_cons, ih hOut, Nat.add_assoc]

/-- A place that comes back is paid for, by its holder and on its key. -/
theorem paid_giveBack (hOut : log.outOf holder party = place.toList) (now : Instant)
    (cost : Admission → Nat) (p : Party) (k : String) :
    (log.giveBack holder party now cost).paid holder p k =
      log.paid holder p k +
        tally (fun admission => if admission.isOn p k then cost admission else 0) place.toList := by
  cases place with
  | none =>
      rw [giveBack_of_nil hOut]
      rfl
  | some admission =>
      rw [giveBack_of_cons hOut, paid, sumOf_cost_markReturned hOut]
      rfl

/-- A return changes nothing of what has been granted. -/
theorem granted_giveBack (log : Log) (holder : Nat) (party : Party) (now : Instant)
    (cost : Admission → Nat) (h : Nat) (p : Party) (k : String) :
    (log.giveBack holder party now cost).granted h p k = log.granted h p k := by
  cases hOut : log.outOf holder party with
  | nil => rw [giveBack_of_nil hOut]
  | cons admission rest =>
      rw [giveBack_of_cons hOut]
      obtain ⟨before, grant, after, hGrants, rfl, hNotBack, hMarks⟩ :=
        @Grant.markReturned_eq_append holder party now (cost admission) _ _ _ hOut
      rw [granted, granted, hMarks, hGrants]
      simp [isOwn]

end Holders

/-- A run at whose end the counts of a key can be read for a holder: the key is in the window of
all places on it that the holder was granted, and no counter came to its end in that window. -/
structure Countable (window : Duration) (moves : List Move) (holder : Nat) (party : Party)
    (key : String) (now : Instant) : Prop where
  granted : (run window moves).InWindow holder party key
  present : ∀ cell ∈ (run window moves).limiter.cell? party key,
    cell.counters.windowsPassed (run window moves).limiter.window now = 0
  number : ∀ cell ∈ (run window moves).limiter.cell? party key,
    cell.counters.generation < Counter.top64
  fits : ∀ cell ∈ (run window moves).limiter.cell? party key, ∀ prior ∈ moves.inits,
    (run window prior).Fits cell.epoch party key

instance (window : Duration) (moves : List Move) (holder : Nat) (party : Party) (key : String)
    (now : Instant) : Decidable (Countable window moves holder party key now) :=
  decidable_of_iff
    ((run window moves).InWindow holder party key ∧
      (∀ cell ∈ (run window moves).limiter.cell? party key,
        cell.counters.windowsPassed (run window moves).limiter.window now = 0) ∧
      (∀ cell ∈ (run window moves).limiter.cell? party key,
        cell.counters.generation < Counter.top64) ∧
      ∀ cell ∈ (run window moves).limiter.cell? party key, ∀ prior ∈ moves.inits,
        (run window prior).Fits cell.epoch party key)
    ⟨fun ⟨hGranted, hPresent, hNumber, hFits⟩ => ⟨hGranted, hPresent, hNumber, hFits⟩,
      fun ⟨hGranted, hPresent, hNumber, hFits⟩ => ⟨hGranted, hPresent, hNumber, hFits⟩⟩

/-- What is read of a key when all places on it of some holder are back: what the others stand
for, and what this holder was granted and has paid. -/
theorem Countable.load {holder : Nat} {now : Instant}
    (h : Countable window moves holder party key now)
    (hBack : (run window moves).outOf holder party = []) :
    ((run window moves).limiter.load party key now).requests =
        (run window moves).standing (fun _ => 1) (· != holder) party key +
          (run window moves).granted holder party key ∧
      ((run window moves).limiter.load party key now).tokens =
        (run window moves).standing charge (· != holder) party key +
          (run window moves).paid holder party key := by
  obtain ⟨hGranted, hPresent, hNumber, hFits⟩ := h
  have hSums : ∀ cell ∈ (run window moves).limiter.cell? party key,
      (run window moves).Sums cell.epoch party key := fun cell hCell =>
    sums_run (hNumber cell hCell) (hFits cell hCell)
  generalize run window moves = log at *
  have hCost : ∀ grant ∈ log.grants, isOwn holder party key grant = true →
      grant.charge = grant.cost := by
    intro grant hMem hOwn
    cases hReturned : grant.returned with
    | some how => simp [charge, Grant.cost, hReturned]
    | none =>
        simp only [isOwn, Bool.and_eq_true, beq_iff_eq] at hOwn
        have hOut : grant.admission ∈ log.outOf holder party := by
          refine List.mem_map.mpr ⟨grant, List.mem_filter.mpr ⟨hMem, ?_⟩, rfl⟩
          simp [isOutWith, isOut, hReturned, hOwn.1, (Admission.isOn_iff.mp hOwn.2).1]
        rw [hBack] at hOut
        cases hOut
  cases hCell : log.limiter.cell? party key with
  | none =>
      have hNone : ∀ grant ∈ log.grants, isOwn holder party key grant = false := by
        intro grant hMem
        refine Bool.eq_false_iff.mpr fun hOwn => ?_
        have hAny := hGranted grant hMem hOwn
        rw [hCell] at hAny
        cases hAny
      simp [Limiter.load, standing, Log.granted, paid, hCell, sumOf_eq_zero hNone]
  | some cell =>
      have hLoad : log.limiter.load party key now = cell.counters.load := by
        simp [Limiter.load, hCell, Counters.loadAt, hPresent cell hCell]
      have hOwnGranted : ∀ grant ∈ log.grants,
          (cell.granted party key grant && !(grant.holder != holder)) =
            isOwn holder party key grant := by
        intro grant hMem
        cases hOwn : isOwn holder party key grant with
        | true =>
            have hAny := hGranted grant hMem hOwn
            rw [hCell, Option.any_some] at hAny
            simp only [isOwn, Bool.and_eq_true, beq_iff_eq] at hOwn
            simp [hAny, hOwn.1]
        | false =>
            refine Bool.eq_false_iff.mpr fun hBoth => Bool.eq_false_iff.mp hOwn ?_
            simp only [Bool.and_eq_true, Bool.not_eq_true', bne_eq_false_iff_eq] at hBoth
            simp [isOwn, hBoth.2, (Cell.granted_iff.mp hBoth.1).1]
      have hSplit : ∀ amount : Grant → Nat,
          sumOf amount (cell.granted party key) log.grants =
            log.standing amount (· != holder) party key +
              sumOf amount (isOwn holder party key) log.grants := by
        intro amount
        rw [sumOf_split amount _ (fun grant => grant.holder != holder), sumOf_congr hOwnGranted,
          standing, hCell]
        rfl
      have hPaid : sumOf charge (isOwn holder party key) log.grants = log.paid holder party key :=
        tally_congr fun grant hMem => by
          cases hOwn : isOwn holder party key grant with
          | true => rw [hCost grant hMem hOwn]
          | false => rfl
      have hCellSums := hSums cell hCell cell hCell
      rw [hLoad]
      exact ⟨(hCellSums.requests rfl).trans (hSplit _),
        (hCellSums.tokens rfl).trans ((hSplit _).trans (congrArg _ hPaid))⟩

end Log

end Limiter

end DeploymentRouting
