import DeploymentRouting.Proofs.Dispatch.Accounts
import DeploymentRouting.Proofs.Limiter.Windows
import DeploymentRouting.Proofs.Selection.Chosen
/-!
Choices and places. A deployment is chosen only if it would get a place, and that is found out
by a look which takes none. If nobody else touches the limiter between the choice and the request
for the place, the place is granted, and every attempt of a request is a call.
-/
namespace DeploymentRouting

universe u

def Turn.attempted? : Turn → Option String
  | .attempt deployment => some deployment
  | .secondPass | .leave => none

/-- The deployments that were chosen on a visit, in order. -/
def Visit.attempted (visit : Visit) : List String := visit.turns.filterMap Turn.attempted?

namespace Visit

variable (visit : Visit) (turn : Turn) (deployment : String)

theorem length_attempted : visit.attempted.length = visit.attempts := by
  rw [attempted, attempts, List.length_filterMap_eq_countP]
  congr 1
  funext turn
  cases turn <;> rfl

@[simp] theorem attempted_begin : visit.begin.attempted = visit.attempted := rfl

@[simp] theorem calls_begin : visit.begin.calls = visit.calls := rfl

/-- An attempt adds the deployment that was chosen, and no other turn adds one. -/
@[simp] theorem attempted_decide :
    (visit.decide turn).attempted = visit.attempted ++ turn.attempted?.toList := by
  cases turn <;> simp [attempted, decide, Turn.attempted?]

@[simp] theorem calls_decide : (visit.decide turn).calls = visit.calls := rfl

@[simp] theorem attempted_call : (visit.call deployment).attempted = visit.attempted := rfl

@[simp] theorem calls_call : (visit.call deployment).calls = visit.calls ++ [deployment] := rfl

end Visit

/-- The deployment that has been chosen and has not been called yet. -/
def Phase.chosen {α : Type u} : Phase α → List String
  | .reserving _ deployment => [deployment.id]
  | .halted (some (deployment, _)) => [deployment.id]
  | _ => []

/-- Every attempt has led to a call of the deployment that was chosen for it, but for those that
are not that far yet. -/
structure Itinerary.Granted (chosen : List String) (itinerary : Itinerary) : Prop where
  current : itinerary.current.attempted = itinerary.current.calls ++ chosen
  earlier : ∀ visit ∈ itinerary.earlier, visit.attempted = visit.calls

/-- So there are as many attempts as calls, but for the one that is under way. -/
theorem Itinerary.Granted.attempts_eq {chosen : List String} {itinerary : Itinerary}
    (h : itinerary.Granted chosen) :
    itinerary.attempts = itinerary.calls.length + chosen.length := by
  have hEarlier : ∀ visits : List Visit, (∀ visit ∈ visits, visit.attempted = visit.calls) →
      (visits.flatMap Visit.turns).countP Turn.isAttempt = (visits.flatMap Visit.calls).length := by
    intro visits hVisits
    induction visits with
    | nil => rfl
    | cons visit visits ih =>
        have hFirst := hVisits visit List.mem_cons_self
        rw [List.flatMap_cons, List.flatMap_cons, List.countP_append, List.length_append,
          ih fun other hOther => hVisits other (List.mem_cons_of_mem visit hOther), ← hFirst,
          visit.length_attempted]
        rfl
  rw [itinerary.attempts_eq_add, hEarlier _ h.earlier, calls, visits, List.flatMap_cons,
    List.length_append, ← itinerary.current.length_attempted, h.current, List.length_append]
  omega

namespace Dispatch

variable {α : Type u} {maxAttempts : Nat} {dispatch after : Dispatch α} {itinerary : Itinerary}

/-- A step that is no refusal keeps attempts and calls together. -/
theorem granted_observe {visit : Visit} (hStep : StepsTo maxAttempts dispatch after)
    (hStays : ¬(dispatch.phase = .entering ∧ after.phase = .checking))
    (hGranted : ∀ looked deployment, dispatch.phase = .reserving looked deployment →
      after.phase ≠ .checking)
    (h : visit.attempted = visit.calls ++ dispatch.phase.chosen) :
    (visit.observe dispatch.phase after.phase).attempted =
      (visit.observe dispatch.phase after.phase).calls ++ after.phase.chosen := by
  cases hStep with
  | fail hPhase outcome hReport => simpa [Visit.observe, finish, Phase.chosen, hPhase] using h
  | skip hPhase hAhead => simpa [Visit.observe, Phase.chosen, hPhase] using h
  | enter hPhase hAhead => exact absurd ⟨hPhase, rfl⟩ hStays
  | usedUp hPhase => simpa [Visit.observe, leave, Phase.chosen, Turn.attempted?, hPhase] using h
  | overdue hPhase => simpa [Visit.observe, finish, Phase.chosen, Turn.attempted?, hPhase] using h
  | look hPhase hLeft now => simpa [Visit.observe, Phase.chosen, hPhase] using h
  | attempt hPhase deployment =>
      simpa [Visit.observe, Phase.chosen, Turn.attempted?, hPhase] using h
  | secondPass hPhase hFirst hTried =>
      simpa [Visit.observe, Phase.chosen, Turn.attempted?, hPhase] using h
  | noneLeft hPhase => simpa [Visit.observe, leave, Phase.chosen, Turn.attempted?, hPhase] using h
  | halt hPhase => simpa [Visit.observe, Phase.chosen, Turn.attempted?, hPhase] using h
  | refused hPhase => exact absurd rfl (hGranted _ _ hPhase)
  | call hPhase call hDeployment =>
      simpa [Visit.observe, Phase.chosen, hPhase, hDeployment] using h
  | strand hPhase hTimeout admission => simpa [Visit.observe, Phase.chosen, hPhase] using h

/-- A deployment that would give a place does give it, and is called if a clock can show the end of
the call. Health is not touched. -/
theorem reserve_of_admits {router : Router} {looked : Instant} {deployment : Deployment}
    (dispatch : Dispatch α) (now : Instant)
    (h : router.limiter.admits deployment.id deployment.limits dispatch.request.estimate looked =
      true) :
    ∃ admission, (router.reserve deployment dispatch.request.estimate looked).2 = .ok admission ∧
      dispatch.reserve router now looked deployment =
        ((router.reserve deployment dispatch.request.estimate looked).1,
          if deployment.timeoutFits looked then
            { dispatch with
              entryCalls := dispatch.entryCalls + 1
              phase := .calling
                { deployment, admission, start := now
                  deadline := deployment.callDeadline dispatch.request.deadline looked } }
          else { dispatch with phase := .halted (some (deployment, admission)) }) := by
  obtain ⟨admission, hGranted⟩ := (router.limiter.admits_iff _ _ _ _).mp h
  refine ⟨admission, hGranted, ?_⟩
  have hReserve : router.reserve deployment dispatch.request.estimate looked =
      ((router.reserve deployment dispatch.request.estimate looked).1, .ok admission) :=
    Prod.ext rfl hGranted
  rw [Dispatch.reserve, hReserve]

/-- A request asks for a place right after it has chosen. -/
theorem StepsTo.selecting {looked : Instant} {deployment : Deployment}
    (hStep : StepsTo maxAttempts dispatch after)
    (hReserving : after.phase = .reserving looked deployment) :
    dispatch.phase = .selecting looked := by
  cases hStep with
  | attempt hPhase chosen =>
      cases hReserving
      exact hPhase
  | skip hPhase hAhead => cases hPhase.symm.trans hReserving
  | _ => cases hReserving

/-- A deployment that is to be asked for a place was chosen in the step before. -/
theorem chosen_of_reserving {router : Router} {now looked : Instant} {random : RandomSource}
    {deployment : Deployment}
    (hStep : StepsTo maxAttempts dispatch (dispatch.step router now random).2)
    (hReserving : (dispatch.step router now random).2.phase = .reserving looked deployment) :
    dispatch.phase = .selecting looked ∧
      (router.select dispatch.entry dispatch.exclusions dispatch.request.estimate looked
        random).1 = .chosen deployment := by
  have hPhase := hStep.selecting hReserving
  refine ⟨hPhase, ?_⟩
  simp only [Dispatch.step, hPhase] at hReserving
  cases hSelection : (router.select dispatch.entry dispatch.exclusions dispatch.request.estimate
      looked random).1 with
  | chosen chosen =>
      rw [hSelection] at hReserving
      cases hReserving
      rfl
  | noneEligible =>
      rw [hSelection] at hReserving
      simp only [withSelection] at hReserving
      split at hReserving <;> cases hReserving
  | overflow =>
      rw [hSelection] at hReserving
      cases hReserving

/-- A request whose attempts have all led to calls. The deployment that it has chosen last, if it
has not called it yet, would still give it a place. -/
structure Undisturbed (settings : Settings) (router : Router) (itinerary : Itinerary)
    (dispatch : Dispatch α) : Prop where
  course : ∃ request moves, Course (·.settings = settings) request moves itinerary dispatch
  granted : itinerary.Granted dispatch.phase.chosen
  admits : ∀ looked deployment, dispatch.phase = .reserving looked deployment →
    router.limiter.admits deployment.id deployment.limits dispatch.request.estimate looked = true

variable {settings : Settings} {router : Router}

theorem granted_new (model : String) : Itinerary.Granted [] { current := { model } } :=
  ⟨rfl, nofun⟩

/-- A request begins undisturbed. -/
theorem undisturbed_begin (hSettings : router.settings = settings) (request : Request)
    (now : Instant) (other : Router) :
    Undisturbed settings other { current := { model := router.registry.resolve request.model } }
      (begin router request now : Dispatch α) := by
  have hCourse : Course (·.settings = settings) request 0 _
      (begin router request now : Dispatch α) := Course.begin router hSettings now
  revert hCourse
  simp only [begin]
  split
  all_goals
    intro hCourse
    refine ⟨⟨request, 0, hCourse⟩, granted_new _, fun looked deployment hReserving => ?_⟩
    cases hReserving

namespace Undisturbed

/-- While a request is suspended it does not matter what becomes of the router. -/
theorem elsewhere (h : dispatch.Undisturbed settings router itinerary)
    (hSuspended : dispatch.isSuspended = true) (other : Router) :
    dispatch.Undisturbed settings other itinerary where
  course := h.course
  granted := h.granted
  admits looked deployment hPhase := by
    simp [isSuspended, hPhase] at hSuspended

/-- It stays so with a step that nobody comes before. -/
theorem step (h : dispatch.Undisturbed settings router itinerary)
    (hActive : dispatch.isSuspended = false) (hSettings : router.settings = settings)
    (now : Instant) (random : RandomSource) :
    (dispatch.step router now random).2.Undisturbed settings (dispatch.step router now random).1
      (itinerary.observe dispatch (dispatch.step router now random).2) := by
  have hStep := stepsTo_step hActive router now random
  obtain ⟨request, moves, hCourse⟩ := h.course
  refine ⟨⟨request, moves + 1, hCourse.step hActive router hSettings now random⟩, ?_, ?_⟩
  · by_cases hEnters : dispatch.phase = .entering ∧
        (dispatch.step router now random).2.phase = .checking
    · simp only [Itinerary.observe, hEnters.1, hEnters.2, Phase.chosen]
      have hGranted := h.granted
      rw [hEnters.1] at hGranted
      refine ⟨rfl, fun visit hVisit => ?_⟩
      rcases List.mem_cons.mp hVisit with rfl | hEarlier
      · exact hGranted.current.trans (List.append_nil _)
      · exact hGranted.earlier visit hEarlier
    · rw [observe_of_stays hEnters]
      refine ⟨granted_observe hStep hEnters (fun looked deployment hPhase => ?_) h.granted.current,
        h.granted.earlier⟩
      obtain ⟨admission, _, hReserve⟩ := dispatch.reserve_of_admits now (h.admits _ _ hPhase)
      simp only [Dispatch.step, hPhase, hReserve]
      intro hChecking
      split at hChecking <;> cases hChecking
  · -- The choice has just been made, and it left the limiter and the request alone.
    intro looked deployment hReserving
    obtain ⟨hPhase, hChosen⟩ := chosen_of_reserving hStep hReserving
    have hAdmits := router.admits_of_select_chosen hChosen
    simp only [Dispatch.step, hPhase, hChosen]
    exact hAdmits

/-- The end of a call makes no attempt. -/
theorem answer (h : dispatch.Undisturbed settings router itinerary) {call : PendingCall}
    (hCall : dispatch.phase = .calling call) (hSettings : router.settings = settings)
    (now : Instant) (ended : CallEnd α) (other : Router) :
    (dispatch.answer router now ended).2.Undisturbed settings other itinerary := by
  obtain ⟨request, moves, hCourse⟩ := h.course
  have hGranted := h.granted
  rw [hCall] at hGranted
  have hAnswered := hCourse.answer hCall router hSettings now ended
  have hReturn := returnsTo_answer hCall router now ended
  generalize (dispatch.answer router now ended).2 = after at hAnswered hReturn
  cases hReturn with
  | retry hPhase error =>
      refine ⟨⟨request, moves + 1, hAnswered⟩, hGranted, fun looked deployment hReserving => ?_⟩
      cases hReserving
  | finish hPhase outcome hReport =>
      refine ⟨⟨request, moves + 1, hAnswered⟩, hGranted, fun looked deployment hReserving => ?_⟩
      cases hReserving

/-- A request reports as many attempts as it has made calls, as a 32-bit counter shows them. -/
theorem reported (h : dispatch.Undisturbed settings router itinerary)
    {outcome : Except RoutingError (Delivery α)} {count : Nat}
    (hFinished : dispatch.phase = .finished outcome)
    (hReported : reportedAttempts? outcome = some count) :
    count = Counter.wrap32 itinerary.calls.length ∧
      (settings.maxAttempts * (1 + settings.maxFallbackDepth) ≤ Counter.top32 →
        count = itinerary.calls.length) := by
  obtain ⟨request, moves, hCourse⟩ := h.course
  have hCalls := h.granted.attempts_eq
  rw [hFinished] at hCalls
  have hAttempts : itinerary.attempts = itinerary.calls.length := hCalls
  rw [← hAttempts]
  exact hCourse.reported hFinished hReported

end Undisturbed

end Dispatch

end DeploymentRouting
