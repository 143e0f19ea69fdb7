import DeploymentRouting.Proofs.Router.Setup
/-!
What a request does for each model of its chain. A visit to a model records how often the loop
of attempts was begun anew and what came of it each time. It is written from what shows of a
request between its steps, the place where it is and the model at hand; the counters that the
request keeps for itself are not read.
-/
namespace DeploymentRouting

universe u v

/-- What one iteration of the loop for a model comes to. -/
inductive Turn where
  | attempt (deployment : String)
  /-- From here on deployments already tried count again. -/
  | secondPass
  | leave
deriving DecidableEq

def Turn.isAttempt : Turn → Bool
  | .attempt _ => true
  | .secondPass | .leave => false

/-- The loop for one model of a chain. -/
structure Visit where
  model : String
  /-- Iterations that have begun. -/
  iterations : Nat := 0
  /-- What they came to, as far as that is decided. -/
  turns : List Turn := []
  /-- The deployments called. -/
  calls : List String := []

namespace Visit

variable {α : Type u} {maxAttempts : Nat} {visit : Visit}

/-- Attempts that were started. -/
def attempts (visit : Visit) : Nat := visit.turns.countP Turn.isAttempt

def begin (visit : Visit) : Visit := { visit with iterations := visit.iterations + 1 }

def decide (visit : Visit) (turn : Turn) : Visit := { visit with turns := visit.turns ++ [turn] }

def call (visit : Visit) (deployment : String) : Visit :=
  { visit with calls := visit.calls ++ [deployment] }

/-- The visit after a step from one place to another. An iteration begins with a look whether
attempts and time are left. -/
def observe (visit : Visit) (before after : Phase α) : Visit :=
  match before, after with
  | .checking, .selecting _ => visit.begin
  | .checking, _ => visit.begin.decide .leave
  | .selecting _, .reserving _ deployment => visit.decide (.attempt deployment.id)
  | .selecting _, .checking => visit.decide .secondPass
  | .selecting _, _ => visit.decide .leave
  | .reserving _ _, .calling call => visit.call call.deployment.id
  | _, _ => visit

/-- A visit is to one model for as long as it goes on. -/
@[simp] theorem observe_model (visit : Visit) (before after : Phase α) :
    (visit.observe before after).model = visit.model := by
  unfold observe
  split <;> rfl

/-- A visit as it should be. Every iteration whose outcome is decided started an attempt, began
the second pass, or was the last one. -/
structure Proper (maxAttempts undecided : Nat) (visit : Visit) : Prop where
  decided : visit.iterations = visit.turns.length + undecided
  inBudget : visit.attempts ≤ maxAttempts
  secondOnce : visit.turns.count .secondPass ≤ 1
  secondTried : ∀ earlier later, visit.turns = earlier ++ .secondPass :: later →
    ∃ deployment, .attempt deployment ∈ earlier
  leaveLast : .leave ∉ visit.turns.dropLast
  callsStarted : visit.calls.length ≤ visit.attempts

theorem attempts_begin (visit : Visit) : visit.begin.attempts = visit.attempts := rfl

theorem attempts_call (visit : Visit) (deployment : String) :
    (visit.call deployment).attempts = visit.attempts := rfl

/-- A turn counts if it is an attempt. -/
theorem attempts_decide (visit : Visit) (turn : Turn) :
    (visit.decide turn).attempts = visit.attempts + if turn.isAttempt then 1 else 0 := by
  simp [attempts, decide, List.countP_append, List.countP_singleton]

/-- A visit begins properly, without a turn. -/
theorem proper_new (maxAttempts : Nat) (model : String) :
    Proper maxAttempts 0 { model } where
  decided := rfl
  inBudget := Nat.zero_le _
  secondOnce := Nat.zero_le _
  secondTried earlier later hTurns := by simp at hTurns
  leaveLast := by simp
  callsStarted := Nat.le_refl 0

/-- An iteration begins with nothing decided. -/
theorem Proper.begin (h : visit.Proper maxAttempts 0) : visit.begin.Proper maxAttempts 1 where
  decided := by
    have := h.decided
    simp only [Visit.begin]
    omega
  inBudget := h.inBudget
  secondOnce := h.secondOnce
  secondTried := h.secondTried
  leaveLast := h.leaveLast
  callsStarted := h.callsStarted

/-- An iteration that did not follow a last one and comes to something that is allowed. -/
theorem Proper.decide {turn : Turn} (h : visit.Proper maxAttempts 1)
    (hStays : .leave ∉ visit.turns) (hAttempts : (visit.decide turn).attempts ≤ maxAttempts)
    (hSecond : turn = .secondPass → .secondPass ∉ visit.turns ∧
      ∃ deployment, .attempt deployment ∈ visit.turns) :
    (visit.decide turn).Proper maxAttempts 0 where
  decided := by simpa [Visit.decide] using h.decided
  inBudget := hAttempts
  secondOnce := by
    simp only [Visit.decide, List.count_append, List.count_singleton]
    split
    next hTurn =>
      exact Nat.le_of_eq (congrArg (· + 1) (List.count_eq_zero.mpr (hSecond (eq_of_beq hTurn)).1))
    next => exact h.secondOnce
  secondTried earlier later hTurns := by
    simp only [Visit.decide] at hTurns
    -- The second pass is the new turn, or it came before and has been looked at then.
    rcases List.eq_nil_or_concat later with rfl | ⟨rest, last, rfl⟩
    · obtain ⟨hEarlier, hTurn⟩ := List.append_inj' hTurns rfl
      rw [← hEarlier]
      exact (hSecond (List.singleton_inj.mp hTurn)).2
    · rw [List.concat_eq_append, ← List.cons_append, ← List.append_assoc] at hTurns
      exact h.secondTried earlier rest (List.append_inj' hTurns rfl).1
  leaveLast := by simpa [Visit.decide] using hStays
  callsStarted := by
    rw [attempts_decide]
    exact Nat.le_add_right_of_le h.callsStarted

/-- A call has its attempt. -/
theorem Proper.call {undecided : Nat} (h : visit.Proper maxAttempts undecided)
    (hRoom : visit.calls.length < visit.attempts) (deployment : String) :
    (visit.call deployment).Proper maxAttempts undecided where
  decided := h.decided
  inBudget := h.inBudget
  secondOnce := h.secondOnce
  secondTried := h.secondTried
  leaveLast := h.leaveLast
  callsStarted := by
    rw [Visit.call, List.length_append]
    exact hRoom

/-- Visits that keep to their budget keep to it together. -/
theorem attempts_flatMap_le {visits : List Visit}
    (h : ∀ visit ∈ visits, visit.attempts ≤ maxAttempts) :
    (visits.flatMap Visit.turns).countP Turn.isAttempt ≤ maxAttempts * visits.length := by
  induction visits with
  | nil => exact Nat.le_refl 0
  | cons visit visits ih =>
      have hFirst := h visit List.mem_cons_self
      have hRest := ih fun other hOther => h other (List.mem_cons_of_mem visit hOther)
      rw [List.flatMap_cons, List.countP_append, List.length_cons, Nat.mul_succ]
      unfold Visit.attempts at hFirst
      omega

/-- Where no visit has more calls than attempts there are no more on the whole. -/
theorem calls_flatMap_le {visits : List Visit}
    (h : ∀ visit ∈ visits, visit.calls.length ≤ visit.attempts) :
    (visits.flatMap Visit.calls).length ≤
      (visits.flatMap Visit.turns).countP Turn.isAttempt := by
  induction visits with
  | nil => exact Nat.le_refl 0
  | cons visit visits ih =>
      have hFirst := h visit List.mem_cons_self
      have hRest := ih fun other hOther => h other (List.mem_cons_of_mem visit hOther)
      rw [List.flatMap_cons, List.flatMap_cons, List.length_append, List.countP_append]
      unfold Visit.attempts at hFirst
      omega

end Visit

/-- All visits of a request, the latest of them first. -/
structure Itinerary where
  current : Visit
  earlier : List Visit := []

namespace Itinerary

variable {α : Type u}

def visits (itinerary : Itinerary) : List Visit := itinerary.current :: itinerary.earlier

/-- Attempts that were started, for whatever model. -/
def attempts (itinerary : Itinerary) : Nat :=
  (itinerary.visits.flatMap Visit.turns).countP Turn.isAttempt

/-- Deployments called, for whatever model. -/
def calls (itinerary : Itinerary) : List String := itinerary.visits.flatMap Visit.calls

/-- The itinerary after a step. Where a model is entered a visit begins. -/
def observe (itinerary : Itinerary) (before after : Dispatch α) : Itinerary :=
  match before.phase, after.phase with
  | .entering, .checking => { current := { model := after.entry }, earlier := itinerary.visits }
  | before, after => { itinerary with current := itinerary.current.observe before after }

/-- The latest visit adds its attempts to those before. -/
theorem attempts_eq_add (itinerary : Itinerary) :
    itinerary.attempts =
      itinerary.current.attempts +
        (itinerary.earlier.flatMap Visit.turns).countP Turn.isAttempt := by
  rw [attempts, visits, List.flatMap_cons, List.countP_append]
  rfl

theorem attempts_withCurrent (itinerary : Itinerary) (current : Visit) :
    ({ itinerary with current } : Itinerary).attempts + itinerary.current.attempts =
      itinerary.attempts + current.attempts := by
  have hBefore := itinerary.attempts_eq_add
  have hAfter := attempts_eq_add { itinerary with current }
  simp only at hAfter
  omega

end Itinerary

namespace Dispatch

variable {α : Type u}

/-- Requests on their way, on routers of one kind. The router may be another one at each step,
since others act on it in between. The number counts the steps and the ends of calls. -/
inductive Course (kind : Router → Prop) (request : Request) :
    Nat → Itinerary → Dispatch α → Prop where
  | begin (router : Router) (hKind : kind router) (now : Instant) :
      Course kind request 0 { current := { model := router.registry.resolve request.model } }
        (begin router request now)
  | step {moves : Nat} {itinerary : Itinerary} {dispatch : Dispatch α}
      (prior : Course kind request moves itinerary dispatch)
      (hActive : dispatch.isSuspended = false)
      (router : Router) (hKind : kind router) (now : Instant) (random : RandomSource) :
      Course kind request (moves + 1)
        (itinerary.observe dispatch (dispatch.step router now random).2)
        (dispatch.step router now random).2
  | answer {moves : Nat} {itinerary : Itinerary} {dispatch : Dispatch α} {call : PendingCall}
      (prior : Course kind request moves itinerary dispatch)
      (hCall : dispatch.phase = .calling call)
      (router : Router) (hKind : kind router) (now : Instant) (ended : CallEnd α) :
      Course kind request (moves + 1) itinerary (dispatch.answer router now ended).2

variable {request : Request} {moves : Nat} {itinerary : Itinerary} {dispatch : Dispatch α}

/-- A run up to the next call or the end makes a course longer, when neither the setup of a
router nor what a bystander does to it tells whether it is of the kind. -/
theorem Course.run {σ : Type v} {kind : Router → Prop}
    (h : Course kind request moves itinerary dispatch)
    (hSetup : ∀ before after : Router, before.SameSetup after → kind before → kind after)
    (now : Instant) (random : RandomSource)
    (bystander : Dispatch α → Dispatch α → Router × σ → Router × σ)
    (hBystander : ∀ before after state, kind state.1 → kind (bystander before after state).1)
    (fuel : Nat) (state : Router × σ) (hKind : kind state.1) :
    ∃ moves itinerary, Course kind request moves itinerary
      (Dispatch.run now random bystander fuel state dispatch).2 := by
  induction fuel generalizing moves itinerary dispatch state with
  | zero => exact ⟨moves, itinerary, h⟩
  | succ fuel ih =>
      obtain ⟨router, others⟩ := state
      simp only [Dispatch.run]
      split
      next => exact ⟨moves, itinerary, h⟩
      next hActive =>
        apply ih (h.step (Bool.eq_false_iff.mpr hActive) router hKind now random)
        apply hBystander
        exact hSetup router _ (dispatch.sameSetup_step router now random) hKind

end Dispatch

end DeploymentRouting
