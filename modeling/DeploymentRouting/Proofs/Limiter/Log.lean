import DeploymentRouting.Proofs.Limiter.Cells
/-!
Runs of a limiter. Whoever takes places has a number, and the log of a run tells which
places were granted to it and what became of each of them. The limiter itself knows neither
holders nor histories: the log only watches it.
-/
namespace DeploymentRouting

namespace Admission

def isOn (admission : Admission) (party : Party) (key : String) : Bool :=
  admission.party == party && admission.key == key

def countOn (out : List Admission) (party : Party) (key : String) : Nat :=
  out.countP fun admission => admission.isOn party key

/-- An admission is on the key that it names, for its own party. -/
theorem isOn_iff {admission : Admission} {party : Party} {key : String} :
    admission.isOn party key = true ↔ admission.party = party ∧ admission.key = key := by
  simp [isOn]

theorem isOn_self (admission : Admission) :
    admission.isOn admission.party admission.key = true :=
  isOn_iff.mpr ⟨rfl, rfl⟩

theorem countOn_cons_self (admission : Admission) (out : List Admission) :
    countOn (admission :: out) admission.party admission.key =
      countOn out admission.party admission.key + 1 :=
  List.countP_cons_of_pos admission.isOn_self

theorem countOn_cons_of_ne {admission : Admission} {party : Party} {key : String}
    (hNe : ¬(party = admission.party ∧ key = admission.key)) (out : List Admission) :
    countOn (admission :: out) party key = countOn out party key := by
  refine List.countP_cons_of_neg fun hOn => hNe ?_
  obtain ⟨hParty, hKey⟩ := isOn_iff.mp hOn
  exact ⟨hParty.symm, hKey.symm⟩

/-- The order of admissions does not matter to their number. -/
theorem countOn_perm {out rest : List Admission} (hPerm : out.Perm rest) (party : Party)
    (key : String) : countOn out party key = countOn rest party key :=
  hPerm.countP_eq _

/-- The key of an admission that is out has one at least. -/
theorem countOn_pos {admission : Admission} {out : List Admission} (hMem : admission ∈ out) :
    0 < countOn out admission.party admission.key :=
  List.countP_pos_iff.mpr ⟨admission, hMem, admission.isOn_self⟩

/-- No key has more than there are. -/
theorem countOn_le_length (out : List Admission) (party : Party) (key : String) :
    countOn out party key ≤ out.length :=
  List.countP_le_length

end Admission

namespace Limiter

/-- One atomic step on a limiter. -/
inductive Move where
  | reserve (holder : Nat) (party : Party) (key : String) (limits : Limits) (cost : Nat)
      (now : Instant)
  /-- A holder gives back its oldest place for a party, with the actual cost. Places that
  are to come back in another order have holders of their own. -/
  | settle (holder : Nat) (party : Party) (actual : Nat) (now : Instant)
  /-- A holder gives up its oldest place for a party. -/
  | abandon (holder : Nat) (party : Party) (now : Instant)
  | forget (key : String)

/-- A place that was granted. -/
structure Grant where
  holder : Nat
  admission : Admission
  instant : Instant
  /-- When it was given back and at what cost, unless it is still out. -/
  returned : Option (Instant × Nat) := none

namespace Grant

def isOut (grant : Grant) : Bool := grant.returned.isNone

/-- Whether it is a place for this party that this holder still has. -/
def isOutWith (holder : Nat) (party : Party) (grant : Grant) : Bool :=
  grant.isOut && grant.holder == holder && grant.admission.party == party

/-- Marks the first place for a party that a holder still has as given back. -/
def markReturned (holder : Nat) (party : Party) (now : Instant) (cost : Nat) :
    List Grant → List Grant
  | [] => []
  | grant :: rest =>
      if grant.isOutWith holder party then { grant with returned := some (now, cost) } :: rest
      else grant :: markReturned holder party now cost rest

end Grant

/-- A limiter and all places that it granted, the oldest first. -/
structure Log where
  limiter : Limiter
  grants : List Grant := []

namespace Log

/-- The admissions that are out. -/
def out (log : Log) : List Admission := (log.grants.filter Grant.isOut).map Grant.admission

def outOn (log : Log) (party : Party) (key : String) : Nat :=
  Admission.countOn log.out party key

/-- The admissions for a party that a holder still has. -/
def outOf (log : Log) (holder : Nat) (party : Party) : List Admission :=
  (log.grants.filter (Grant.isOutWith holder party)).map Grant.admission

/-- Takes back the first place for a party that a holder has. A holder without one cannot
give any back. -/
def giveBack (log : Log) (holder : Nat) (party : Party) (now : Instant)
    (cost : Admission → Nat) : Log :=
  match log.outOf holder party with
  | [] => log
  | admission :: _ =>
      { limiter := log.limiter.settle admission (cost admission) now
        grants := Grant.markReturned holder party now (cost admission) log.grants }

/-- One step of a run. A place that is given up counts with its estimate. -/
def perform (log : Log) : Move → Log
  | .reserve holder party key limits cost now =>
      match log.limiter.reserve party key limits cost now with
      | (limiter, .ok admission) =>
          { limiter, grants := log.grants ++ [{ holder, admission, instant := now }] }
      | (limiter, .error _) => { log with limiter }
  | .settle holder party actual now => log.giveBack holder party now fun _ => actual
  | .abandon holder party now => log.giveBack holder party now Admission.estimate
  | .forget key => { log with limiter := (log.limiter.forget key).1 }

def performAll (log : Log) (moves : List Move) : Log := moves.foldl perform log

/-- A run from a new limiter. -/
def run (window : Duration) (moves : List Move) : Log :=
  performAll { limiter := Limiter.new window } moves

@[simp] theorem performAll_nil (log : Log) : log.performAll [] = log := rfl

@[simp] theorem performAll_cons (log : Log) (move : Move) (moves : List Move) :
    log.performAll (move :: moves) = (log.perform move).performAll moves := rfl

/-- Moves are made one after the other. -/
theorem performAll_append (log : Log) (first second : List Move) :
    log.performAll (first ++ second) = (log.performAll first).performAll second :=
  List.foldl_append

/-- What holds at first and is kept by every step holds after every run. -/
theorem performAll_induction {motive : Log → Prop} {log : Log} {moves : List Move}
    (hStart : motive log)
    (hStep : ∀ log, ∀ move ∈ moves, motive log → motive (log.perform move)) :
    motive (log.performAll moves) := by
  induction moves generalizing log with
  | nil => exact hStart
  | cons move moves ih =>
      exact ih (hStep log move List.mem_cons_self hStart)
        fun log next hNext => hStep log next (List.mem_cons_of_mem move hNext)

section Steps

variable {log : Log} {holder h : Nat} {party p : Party} {key : String} {limits : Limits}
  {cost actual : Nat} {now : Instant}

/-- A request for a place either is refused, and only the limiter changes, or is granted the
place on offer, which is written down. -/
theorem perform_reserve_cases (log : Log) (holder : Nat) (party : Party) (key : String)
    (limits : Limits) (cost : Nat) (now : Instant) :
    (log.perform (.reserve holder party key limits cost now)).limiter =
        (log.limiter.reserve party key limits cost now).1 ∧
      ((∃ refusal,
          limits.refusal? (log.limiter.currentCell party key now).counters.load cost =
            some refusal ∧
          (log.perform (.reserve holder party key limits cost now)).grants = log.grants) ∨
        (limits.refusal? (log.limiter.currentCell party key now).counters.load cost = none ∧
          (log.perform (.reserve holder party key limits cost now)).grants =
            log.grants ++
              [{ holder, admission := log.limiter.offer party key cost now, instant := now }])) := by
  have hAnswer := reserve_snd log.limiter party key limits cost now
  simp only [perform]
  cases hDecision : limits.refusal? (log.limiter.currentCell party key now).counters.load cost with
  | some refusal =>
      rw [hDecision] at hAnswer
      split
      next limiter admission hReserve => simp [hReserve] at hAnswer
      next limiter other hReserve => exact ⟨by rw [hReserve], Or.inl ⟨refusal, rfl, rfl⟩⟩
  | none =>
      rw [hDecision] at hAnswer
      split
      next limiter admission hReserve =>
        rw [hReserve] at hAnswer
        cases hAnswer
        exact ⟨by rw [hReserve], Or.inr ⟨rfl, rfl⟩⟩
      next limiter other hReserve => simp [hReserve] at hAnswer

/-- A holder with nothing out gives nothing back. -/
theorem giveBack_of_nil {cost : Admission → Nat} (h : log.outOf holder party = []) :
    log.giveBack holder party now cost = log := by
  simp [giveBack, h]

/-- Otherwise the first place that is out goes back, at the cost that is told for it. -/
theorem giveBack_of_cons {cost : Admission → Nat} {admission : Admission}
    {rest : List Admission} (h : log.outOf holder party = admission :: rest) :
    log.giveBack holder party now cost =
      { limiter := log.limiter.settle admission (cost admission) now
        grants := Grant.markReturned holder party now (cost admission) log.grants } := by
  simp [giveBack, h]

/-- No move changes the length of the windows. -/
@[simp] theorem perform_window (log : Log) (move : Move) :
    (log.perform move).limiter.window = log.limiter.window := by
  have hGiveBack : ∀ holder party now cost,
      (log.giveBack holder party now cost).limiter.window = log.limiter.window := by
    intro holder party now cost
    unfold giveBack
    split <;> simp
  cases move with
  | reserve holder party key limits cost now =>
      rw [(perform_reserve_cases log holder party key limits cost now).1, reserve_window]
  | settle holder party actual now => exact hGiveBack ..
  | abandon holder party now => exact hGiveBack ..
  | forget key => exact forget_window ..

/-- A window has a millisecond at least. -/
theorem run_window (window : Duration) (moves : List Move) :
    (run window moves).limiter.window = max window (Duration.ofMillis 1) :=
  performAll_induction (motive := fun log => log.limiter.window = max window (Duration.ofMillis 1))
    rfl fun log move _ h => (perform_window log move).trans h

end Steps

end Log

namespace Grant

variable {holder : Nat} {party : Party} {now : Instant} {cost : Nat}

@[simp] theorem isOutWith_returned (h : Nat) (p : Party) (grant : Grant)
    (how : Instant × Nat) : isOutWith h p { grant with returned := some how } = false := rfl

/-- A return changes no admission. -/
@[simp] theorem map_admission_markReturned (grants : List Grant) :
    (markReturned holder party now cost grants).map Grant.admission =
      grants.map Grant.admission := by
  induction grants with
  | nil => rfl
  | cons grant grants ih =>
      unfold markReturned
      split
      · rfl
      · simp [ih]

/-- The place that is marked, with those before it and after it, which stay as they are. -/
theorem markReturned_eq_append {grants : List Grant} {admission : Admission}
    {rest : List Admission}
    (h : (grants.filter (isOutWith holder party)).map Grant.admission = admission :: rest) :
    ∃ before grant after, grants = before ++ grant :: after ∧ grant.admission = admission ∧
      grant.returned = none ∧
      markReturned holder party now cost grants =
        before ++ { grant with returned := some (now, cost) } :: after := by
  induction grants with
  | nil => simp at h
  | cons grant grants ih =>
      by_cases hMarked : grant.isOutWith holder party = true
      · simp only [List.filter_cons, hMarked, if_true, List.map_cons, List.cons.injEq] at h
        have hOut : grant.returned = none := by
          simp only [isOutWith, isOut, Bool.and_eq_true, Option.isNone_iff_eq_none] at hMarked
          exact hMarked.1.1
        exact ⟨[], grant, grants, rfl, h.1, hOut, by simp [markReturned, hMarked]⟩
      · simp only [List.filter_cons, hMarked, if_false, Bool.false_eq_true] at h
        obtain ⟨before, marked, after, hGrants, hAdmission, hOut, hMarks⟩ := ih h
        exact ⟨grant :: before, marked, after, by simp [hGrants], hAdmission, hOut,
          by simp [markReturned, hMarked, hMarks]⟩

/-- A grant that comes back is otherwise the one it was. -/
theorem exists_of_mem_returned {before behind : List Grant} {grant other : Grant}
    {how : Option (Instant × Nat)}
    (hMem : other ∈ before ++ { grant with returned := how } :: behind) :
    ∃ old ∈ before ++ grant :: behind,
      old.admission = other.admission ∧ old.instant = other.instant := by
  rcases List.mem_append.mp hMem with hMem | hMem
  · exact ⟨other, List.mem_append_left _ hMem, rfl, rfl⟩
  · rcases List.mem_cons.mp hMem with rfl | hMem
    · exact ⟨grant, List.mem_append_right _ List.mem_cons_self, rfl, rfl⟩
    · exact ⟨other, List.mem_append_right _ (List.mem_cons_of_mem _ hMem), rfl, rfl⟩

/-- The marked place goes out of those that are out, and no other does. -/
theorem filter_isOut_markReturned {grants : List Grant} {admission : Admission}
    {rest : List Admission}
    (h : (grants.filter (isOutWith holder party)).map Grant.admission = admission :: rest) :
    ((grants.filter isOut).map Grant.admission).Perm
      (admission :: ((markReturned holder party now cost grants).filter isOut).map
        Grant.admission) := by
  obtain ⟨before, grant, after, hGrants, hAdmission, hReturned, hMarks⟩ :=
    @markReturned_eq_append holder party now cost _ _ _ h
  have hOut : grant.isOut = true := by simp [isOut, hReturned]
  rw [hMarks, hGrants]
  simp only [List.filter_append, List.filter_cons, hOut, if_true, List.map_append,
    List.map_cons, hAdmission]
  exact List.perm_middle

/-- It takes the first of the places that are out with the holder. -/
theorem filter_isOutWith_markReturned (grants : List Grant) :
    ((markReturned holder party now cost grants).filter (isOutWith holder party)).map
        Grant.admission =
      ((grants.filter (isOutWith holder party)).map Grant.admission).tail := by
  induction grants with
  | nil => rfl
  | cons grant grants ih =>
      by_cases hMarked : grant.isOutWith holder party = true
      · simp [markReturned, hMarked]
      · simpa [markReturned, hMarked, List.filter_cons] using ih

/-- It leaves the places of others out. -/
theorem filter_isOutWith_markReturned_of_ne {h : Nat} {p : Party}
    (hNe : ¬(h = holder ∧ p = party)) (grants : List Grant) :
    (markReturned holder party now cost grants).filter (isOutWith h p) =
      grants.filter (isOutWith h p) := by
  induction grants with
  | nil => rfl
  | cons grant grants ih =>
      by_cases hMarked : grant.isOutWith holder party = true
      · have hOther : grant.isOutWith h p = false := by
          simp only [isOutWith, Bool.and_eq_true, beq_iff_eq] at hMarked
          simp only [isOutWith, Bool.and_eq_false_iff, beq_eq_false_iff_ne]
          grind
        simp [markReturned, hMarked, hOther]
      · simp [markReturned, hMarked, List.filter_cons, ih]

end Grant

namespace Log

variable {log after : Log} {holder h : Nat} {party p : Party} {admission : Admission}
  {rest : List Admission} {grant : Grant}

theorem out_of_grants_eq (hGrants : after.grants = log.grants) : after.out = log.out := by
  simp only [out, hGrants]

theorem outOf_of_grants_eq (hGrants : after.grants = log.grants) :
    after.outOf h p = log.outOf h p := by
  simp only [outOf, hGrants]

/-- A new grant is out behind all others. -/
theorem out_of_grants_append (hGrants : after.grants = log.grants ++ [grant])
    (hOut : grant.isOut = true) : after.out = log.out ++ [grant.admission] := by
  simp [out, hGrants, List.filter_append, hOut]

/-- It is out with its holder and with nobody else. -/
theorem outOf_of_grants_append (hGrants : after.grants = log.grants ++ [grant])
    (hOut : grant.isOut = true) :
    after.outOf h p =
      if h = grant.holder ∧ p = grant.admission.party then log.outOf h p ++ [grant.admission]
      else log.outOf h p := by
  have hWith : grant.isOutWith h p = decide (h = grant.holder ∧ p = grant.admission.party) := by
    simp only [Grant.isOutWith, hOut]
    grind
  simp only [outOf, hGrants, List.filter_append, List.map_append, List.filter_cons, hWith]
  by_cases hHere : h = grant.holder ∧ p = grant.admission.party <;> simp [hHere]

/-- One place that comes back is no longer out. -/
theorem perm_out_giveBack (hOut : log.outOf holder party = admission :: rest)
    (now : Instant) (cost : Admission → Nat) :
    log.out.Perm (admission :: (log.giveBack holder party now cost).out) := by
  rw [giveBack_of_cons hOut]
  exact Grant.filter_isOut_markReturned hOut

/-- After a return the holder has the rest, and everybody else what they had. -/
theorem outOf_giveBack (hOut : log.outOf holder party = admission :: rest)
    (now : Instant) (cost : Admission → Nat) :
    (log.giveBack holder party now cost).outOf h p =
      if h = holder ∧ p = party then rest else log.outOf h p := by
  rw [giveBack_of_cons hOut, outOf]
  split
  next hHere =>
    obtain ⟨rfl, rfl⟩ := hHere
    rw [Grant.filter_isOutWith_markReturned]
    exact congrArg List.tail hOut
  next hThere => rw [Grant.filter_isOutWith_markReturned_of_ne hThere]; rfl

/-- A place that is granted goes to its holder, and a refusal changes nobody's places. -/
theorem outOf_perform_reserve (log : Log) (holder : Nat) (party : Party) (key : String)
    (limits : Limits) (cost : Nat) (now : Instant) (h : Nat) (p : Party) :
    (log.perform (.reserve holder party key limits cost now)).outOf h p =
      if h = holder ∧ p = party then
        log.outOf h p ++ (log.limiter.reserve party key limits cost now).2.toOption.toList
      else log.outOf h p := by
  rw [reserve_snd]
  obtain ⟨_, ⟨refusal, hRefusal, hGrants⟩ | ⟨hOpen, hGrants⟩⟩ :=
    perform_reserve_cases log holder party key limits cost now
  · rw [outOf_of_grants_eq hGrants, hRefusal]
    simp [Except.toOption]
  · rw [outOf_of_grants_append hGrants rfl, hOpen]
    rfl

/-- A holder with one place at most has none after giving it back. -/
theorem outOf_giveBack_toList {place : Option Admission}
    (hOut : log.outOf holder party = place.toList) (now : Instant) (cost : Admission → Nat)
    (h : Nat) (p : Party) :
    (log.giveBack holder party now cost).outOf h p =
      if h = holder ∧ p = party then [] else log.outOf h p := by
  cases place with
  | none =>
      rw [giveBack_of_nil hOut]
      split
      next hHere =>
        obtain ⟨rfl, rfl⟩ := hHere
        exact hOut
      next => rfl
  | some admission => exact outOf_giveBack hOut now cost

/-- A return of a place, if there is one, settles it. -/
theorem limiter_giveBack_toList {place : Option Admission}
    (hOut : log.outOf holder party = place.toList) (now : Instant) (cost : Admission → Nat) :
    (log.giveBack holder party now cost).limiter =
      place.elim log.limiter fun admission => log.limiter.settle admission (cost admission) now := by
  cases place with
  | none => rw [giveBack_of_nil hOut]; rfl
  | some admission => rw [giveBack_of_cons hOut]; rfl

end Log

end Limiter

end DeploymentRouting
