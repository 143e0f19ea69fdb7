import DeploymentRouting.Proofs.Dispatch.Budget
import DeploymentRouting.Proofs.Dispatch.Outcome
import DeploymentRouting.Proofs.Dispatch.Visits
/-!
Visits and counters compared. The counters that a request keeps for itself are those of the
visits that show from outside, so its visits stay within the budget of attempts, and what it
reports in the end is what it has done, as far as a 32-bit counter can tell it.
-/
namespace DeploymentRouting

universe u v

namespace Dispatch

variable {α : Type u} {maxAttempts : Nat} {dispatch after : Dispatch α}

/-- What a request keeps of the visit it is on. -/
structure Keeps (visit : Visit) (dispatch : Dispatch α) : Prop where
  attempts : visit.attempts = dispatch.entryAttempts
  first : dispatch.retryPass = false → .secondPass ∉ visit.turns
  tried : dispatch.tried ≠ [] → ∃ deployment, .attempt deployment ∈ visit.turns
  stays : .leave ∉ visit.turns

/-- What holds of a visit at each place the request can be. -/
def OnVisit (maxAttempts : Nat) (visit : Visit) (dispatch : Dispatch α) : Prop :=
  match dispatch.phase with
  | .entering => visit.Proper maxAttempts 0 ∧ dispatch.entryAttempts = 0 ∧ dispatch.tried = [] ∧
      dispatch.totalAttempts = dispatch.attempts
  | .checking | .calling _ => visit.Proper maxAttempts 0 ∧ Keeps visit dispatch
  | .selecting _ => visit.Proper maxAttempts 1 ∧ Keeps visit dispatch
  | .reserving _ _ => visit.Proper maxAttempts 0 ∧ Keeps visit dispatch ∧
      visit.calls.length < visit.attempts
  | .finished _ | .halted _ => visit.Proper maxAttempts 0

variable {visit : Visit}

/-! ## Steps on a visit -/

theorem Keeps.frame {other : Visit} (h : Keeps visit dispatch) (hTurns : other.turns = visit.turns)
    (hAttempts : after.entryAttempts = dispatch.entryAttempts)
    (hPass : after.retryPass = dispatch.retryPass) (hTried : after.tried = dispatch.tried) :
    Keeps other after where
  attempts := by rw [Visit.attempts, hTurns, hAttempts, ← h.attempts, Visit.attempts]
  first := by rw [hTurns, hPass]; exact h.first
  tried := by rw [hTurns, hTried]; exact h.tried
  stays := by rw [hTurns]; exact h.stays

theorem keeps_new (model : String) (hNoAttempt : dispatch.entryAttempts = 0)
    (hNoneTried : dispatch.tried = []) : Keeps { model } dispatch where
  attempts := hNoAttempt.symm
  first _ := by simp
  tried hTried := absurd hNoneTried hTried
  stays := by simp

/-- A visit that ends by an iteration which comes to nothing. -/
theorem proper_leave (hProper : visit.Proper maxAttempts 1) (hStays : .leave ∉ visit.turns) :
    (visit.decide .leave).Proper maxAttempts 0 := by
  refine hProper.decide hStays ?_ nofun
  rw [Visit.attempts_decide]
  exact hProper.inBudget

theorem onVisit_attempt (hProper : visit.Proper maxAttempts 1) (hKeeps : Keeps visit dispatch)
    (hLeft : dispatch.entryAttempts < maxAttempts) (deployment : Deployment) (looked : Instant) :
    OnVisit maxAttempts (visit.decide (.attempt deployment.id))
      ({ dispatch with
        phase := .reserving looked deployment
        entryAttempts := dispatch.entryAttempts + 1
        tried := deployment.id :: dispatch.tried } : Dispatch α) := by
  have hAttempts : (visit.decide (.attempt deployment.id)).attempts = visit.attempts + 1 :=
    visit.attempts_decide _
  refine ⟨hProper.decide hKeeps.stays ?_ nofun, ⟨?_, ?_, ?_, ?_⟩, ?_⟩
  · rw [hAttempts, hKeeps.attempts]
    exact hLeft
  · rw [hAttempts, hKeeps.attempts]
  · intro hFirst
    simpa [Visit.decide] using hKeeps.first hFirst
  · intro _
    exact ⟨deployment.id, by simp [Visit.decide]⟩
  · simpa [Visit.decide] using hKeeps.stays
  · rw [hAttempts]
    exact Nat.lt_succ_of_le hProper.callsStarted

theorem onVisit_secondPass (hProper : visit.Proper maxAttempts 1) (hKeeps : Keeps visit dispatch)
    (hFirst : dispatch.retryPass = false) (hTried : dispatch.tried ≠ []) :
    OnVisit maxAttempts (visit.decide .secondPass)
      ({ dispatch with retryPass := true, phase := .checking } : Dispatch α) := by
  have hAttempts : (visit.decide .secondPass).attempts = visit.attempts :=
    visit.attempts_decide _
  refine ⟨hProper.decide hKeeps.stays ?_ fun _ => ⟨hKeeps.first hFirst, hKeeps.tried hTried⟩,
    ⟨?_, nofun, ?_, ?_⟩⟩
  · rw [hAttempts]
    exact hProper.inBudget
  · rw [hAttempts]
    exact hKeeps.attempts
  · intro hTried
    obtain ⟨deployment, hMem⟩ := hKeeps.tried hTried
    exact ⟨deployment, List.mem_append_left _ hMem⟩
  · simpa [Visit.decide] using hKeeps.stays

/-- A counter that has been read into another one shows the same there. -/
theorem totalAttempts_leave : dispatch.leave.totalAttempts = dispatch.leave.attempts :=
  Counter.wrap32_wrap32_add _ 0

/-- A step that enters no model keeps the visit and what the request knows of it. -/
theorem OnVisit.stepsTo (h : OnVisit maxAttempts visit dispatch)
    (hBudget : dispatch.WithinBudget maxAttempts) (hStep : StepsTo maxAttempts dispatch after)
    (hStays : ¬(dispatch.phase = .entering ∧ after.phase = .checking)) :
    OnVisit maxAttempts (visit.observe dispatch.phase after.phase) after := by
  cases hStep with
  | fail hPhase outcome hReport =>
      simp only [OnVisit, hPhase] at h
      simpa [OnVisit, Visit.observe, finish, hPhase] using h.1
  | skip hPhase hAhead =>
      simp only [OnVisit, hPhase] at h
      simp only [OnVisit, Visit.observe, hPhase]
      exact h
  | enter hPhase hAhead => exact absurd ⟨hPhase, rfl⟩ hStays
  | usedUp hPhase =>
      simp only [OnVisit, hPhase] at h
      simp only [Visit.observe, leave, hPhase]
      exact ⟨proper_leave h.1.begin h.2.stays, rfl, rfl, totalAttempts_leave⟩
  | overdue hPhase =>
      simp only [OnVisit, hPhase] at h
      simp only [Visit.observe, finish, hPhase]
      exact proper_leave h.1.begin h.2.stays
  | look hPhase hLeft now =>
      simp only [OnVisit, hPhase] at h
      simp only [Visit.observe, hPhase]
      exact ⟨h.1.begin, h.2.frame rfl rfl rfl rfl⟩
  | attempt hPhase deployment =>
      simp only [OnVisit, hPhase] at h
      simp only [Visit.observe, hPhase]
      exact onVisit_attempt h.1 h.2 (hBudget.left _ hPhase) deployment _
  | secondPass hPhase hFirst hTried =>
      simp only [OnVisit, hPhase] at h
      simp only [Visit.observe, hPhase]
      exact onVisit_secondPass h.1 h.2 hFirst hTried
  | noneLeft hPhase =>
      simp only [OnVisit, hPhase] at h
      simp only [Visit.observe, leave, hPhase]
      exact ⟨proper_leave h.1 h.2.stays, rfl, rfl, totalAttempts_leave⟩
  | halt hPhase =>
      simp only [OnVisit, hPhase] at h
      simp only [Visit.observe, hPhase]
      exact proper_leave h.1 h.2.stays
  | refused hPhase =>
      simp only [OnVisit, hPhase] at h
      simp only [Visit.observe, hPhase]
      exact ⟨h.1, h.2.1.frame rfl rfl rfl rfl⟩
  | call hPhase call hDeployment =>
      simp only [OnVisit, hPhase] at h
      simp only [Visit.observe, hPhase]
      exact ⟨h.1.call h.2.2 _, h.2.1.frame rfl rfl rfl rfl⟩
  | strand hPhase hTimeout admission =>
      simp only [OnVisit, hPhase] at h
      simp only [Visit.observe, hPhase]
      exact h.1

theorem OnVisit.returnsTo (h : OnVisit maxAttempts visit dispatch)
    (hReturn : ReturnsTo dispatch after) : OnVisit maxAttempts visit after := by
  cases hReturn with
  | retry hPhase error =>
      simp only [OnVisit, hPhase] at h
      exact ⟨h.1, h.2.frame rfl rfl rfl rfl⟩
  | finish hPhase outcome hReport =>
      simp only [OnVisit, hPhase] at h
      exact h.1

/-! ## Steps of a request -/

/-- What a request has done for all models, and what its chain has left. -/
structure Accounted (maxAttempts : Nat) (chain : List String) (itinerary : Itinerary)
    (dispatch : Dispatch α) : Prop where
  budget : dispatch.WithinBudget maxAttempts
  earlier : ∀ visit ∈ itinerary.earlier, visit.Proper maxAttempts 0
  current : OnVisit maxAttempts itinerary.current dispatch
  total : dispatch.totalAttempts = Counter.wrap32 itinerary.attempts
  inChain : ((itinerary.visits.map Visit.model).reverse ++ dispatch.ahead).Sublist chain
  report : ∀ outcome count, dispatch.phase = .finished outcome →
    reportedAttempts? outcome = some count → count = dispatch.totalAttempts

variable {itinerary : Itinerary} {chain : List String}

theorem observe_of_stays (hStays : ¬(dispatch.phase = .entering ∧ after.phase = .checking))
    (itinerary : Itinerary) :
    itinerary.observe dispatch after =
      { itinerary with
        current := itinerary.current.observe dispatch.phase after.phase } := by
  unfold Itinerary.observe
  split
  next hEntering hChecking => exact absurd ⟨hEntering, hChecking⟩ hStays
  next => rfl

theorem accounted_begin (router : Router) (request : Request) (now : Instant) :
    Accounted router.settings.maxAttempts
      (router.fallbacks.chain (router.registry.resolve request.model)
        router.settings.maxFallbackDepth)
      { current := { model := router.registry.resolve request.model } }
      (begin router request now : Dispatch α) := by
  have hNew := Visit.proper_new router.settings.maxAttempts
    (router.registry.resolve request.model)
  have hBudget := withinBudget_begin (α := α) router.settings.maxAttempts router request now
  have hEarlier : ∀ visit ∈ ([] : List Visit), visit.Proper router.settings.maxAttempts 0 := by
    intro visit hVisit
    cases hVisit
  revert hBudget
  simp only [begin]
  split
  next =>
    intro hBudget
    exact {
      budget := hBudget
      earlier := hEarlier
      current := hNew
      total := rfl
      inChain := by
        rw [Fallbacks.chain_eq_cons]
        exact (List.nil_sublist _).cons_cons _
      report := by
        intro outcome count hFinished hCount
        cases hFinished
        cases hCount }
  next =>
    intro hBudget
    exact {
      budget := hBudget
      earlier := hEarlier
      current := ⟨hNew, keeps_new _ rfl rfl⟩
      total := rfl
      inChain := by
        rw [Fallbacks.chain_eq_cons]
        exact List.Sublist.refl _
      report := by
        intro outcome count hFinished
        cases hFinished }

/-- What a counter shows is what it shows of that and no more. -/
theorem wrap32_totalAttempts (dispatch : Dispatch α) :
    dispatch.totalAttempts = Counter.wrap32 (dispatch.totalAttempts + 0) :=
  (Counter.wrap32_wrap32_add _ 0).symm

/-- What a step adds to the attempts that show it adds to those that the request counts. -/
theorem attempts_observe (visit : Visit) (hStep : StepsTo maxAttempts dispatch after)
    (hStays : ¬(dispatch.phase = .entering ∧ after.phase = .checking)) :
    ∃ more, (visit.observe dispatch.phase after.phase).attempts = visit.attempts + more ∧
      after.totalAttempts = Counter.wrap32 (dispatch.totalAttempts + more) := by
  -- All steps but an attempt add none, and the counter that is read when a model is left
  -- goes on showing what it showed.
  cases hStep with
  | attempt hPhase deployment =>
      refine ⟨1, ?_, (Counter.wrap32_wrap32_add _ 1).symm⟩
      simp only [Visit.observe, hPhase, Visit.attempts_decide, Turn.isAttempt, if_true]
  | enter hPhase hAhead => exact absurd ⟨hPhase, rfl⟩ hStays
  | fail hPhase outcome hReport =>
      exact ⟨0, by simp [Visit.observe, finish, hPhase], dispatch.wrap32_totalAttempts⟩
  | skip hPhase hAhead =>
      exact ⟨0, by simp [Visit.observe, hPhase], dispatch.wrap32_totalAttempts⟩
  | usedUp hPhase =>
      refine ⟨0, ?_, rfl⟩
      simp only [Visit.observe, hPhase, leave, Visit.attempts_decide, Turn.isAttempt,
        Visit.attempts_begin]
      rfl
  | overdue hPhase =>
      refine ⟨0, ?_, dispatch.wrap32_totalAttempts⟩
      simp only [Visit.observe, hPhase, finish, Visit.attempts_decide, Turn.isAttempt,
        Visit.attempts_begin]
      rfl
  | look hPhase hLeft now =>
      refine ⟨0, ?_, dispatch.wrap32_totalAttempts⟩
      simp only [Visit.observe, hPhase, Visit.attempts_begin, Nat.add_zero]
  | secondPass hPhase hFirst hTried =>
      refine ⟨0, ?_, dispatch.wrap32_totalAttempts⟩
      simp only [Visit.observe, hPhase, Visit.attempts_decide, Turn.isAttempt]
      rfl
  | noneLeft hPhase =>
      refine ⟨0, ?_, rfl⟩
      simp only [Visit.observe, hPhase, leave, Visit.attempts_decide, Turn.isAttempt]
      rfl
  | halt hPhase =>
      refine ⟨0, ?_, dispatch.wrap32_totalAttempts⟩
      simp only [Visit.observe, hPhase, Visit.attempts_decide, Turn.isAttempt]
      rfl
  | refused hPhase =>
      exact ⟨0, by simp only [Visit.observe, hPhase, Nat.add_zero], dispatch.wrap32_totalAttempts⟩
  | call hPhase call hDeployment =>
      refine ⟨0, ?_, dispatch.wrap32_totalAttempts⟩
      simp only [Visit.observe, hPhase, Visit.attempts_call, Nat.add_zero]
  | strand hPhase hTimeout admission =>
      exact ⟨0, by simp only [Visit.observe, hPhase, Nat.add_zero], dispatch.wrap32_totalAttempts⟩

theorem ahead_sublist (hStep : StepsTo maxAttempts dispatch after) :
    after.ahead.Sublist dispatch.ahead := by
  cases hStep with
  | skip hPhase hAhead =>
      rw [hAhead]
      exact List.sublist_cons_self _ _
  | enter hPhase hAhead =>
      rw [hAhead]
      exact List.sublist_cons_self _ _
  | _ => exact List.Sublist.refl _

theorem report_stepsTo (hVisit : OnVisit maxAttempts visit dispatch)
    (hStep : StepsTo maxAttempts dispatch after) (outcome : Except RoutingError (Delivery α))
    (count : Nat) (hFinished : after.phase = .finished outcome)
    (hReported : reportedAttempts? outcome = some count) : count = after.totalAttempts := by
  cases hStep with
  | fail hPhase given hReport =>
      cases hFinished
      simp only [OnVisit, hPhase] at hVisit
      exact (hReport count hReported).trans hVisit.2.2.2.symm
  | overdue hPhase =>
      cases hFinished
      exact (Option.some.inj hReported).symm
  | skip hPhase hAhead => cases hPhase.symm.trans hFinished
  | _ => cases hFinished

theorem enters (hStep : StepsTo maxAttempts dispatch after)
    (hEntering : dispatch.phase = .entering) (hChecking : after.phase = .checking) :
    ∃ model ahead, dispatch.ahead = model :: ahead ∧
      after = { dispatch with ahead, entry := model, usedFallback := true, phase := .checking } := by
  cases hStep with
  | enter hPhase hAhead => exact ⟨_, _, hAhead, rfl⟩
  | skip hPhase hAhead => cases hPhase.symm.trans hChecking
  | fail hPhase outcome hReport => cases hChecking
  | usedUp hPhase | overdue hPhase | look hPhase | attempt hPhase | secondPass hPhase
  | noneLeft hPhase | halt hPhase | refused hPhase | call hPhase | strand hPhase =>
      cases hPhase.symm.trans hEntering

/-- A model that is entered is a new one, and its visit starts from nothing. -/
theorem Accounted.enter {model : String} {ahead : List String}
    (h : Accounted maxAttempts chain itinerary dispatch) (hPhase : dispatch.phase = .entering)
    (hAhead : dispatch.ahead = model :: ahead) :
    Accounted maxAttempts chain { current := { model }, earlier := itinerary.visits }
      ({ dispatch with
        ahead, entry := model, usedFallback := true, phase := .checking } : Dispatch α) := by
  have hCurrent := h.current
  simp only [OnVisit, hPhase] at hCurrent
  obtain ⟨hProper, hNoAttempt, hNoneTried, _⟩ := hCurrent
  constructor
  case budget => exact h.budget.stepsTo (.enter hPhase hAhead)
  case earlier =>
    intro visit hVisit
    rcases List.mem_cons.mp hVisit with rfl | hEarlier
    · exact hProper
    · exact h.earlier visit hEarlier
  case current =>
    exact ⟨Visit.proper_new maxAttempts model, keeps_new model hNoAttempt hNoneTried⟩
  case total =>
    rw [Itinerary.attempts_eq_add]
    exact h.total.trans (congrArg Counter.wrap32 (Nat.zero_add _).symm)
  case inChain =>
    have hChain := h.inChain
    rw [hAhead, List.append_cons] at hChain
    simpa only [Itinerary.visits, List.map_cons, List.reverse_cons] using hChain
  case report =>
    intro outcome count hFinished
    cases hFinished

/-- Whatever a step does, it keeps the accounts. -/
theorem Accounted.stepsTo (h : Accounted maxAttempts chain itinerary dispatch)
    (hStep : StepsTo maxAttempts dispatch after) :
    Accounted maxAttempts chain (itinerary.observe dispatch after) after := by
  -- Only the step that enters a model begins a visit, every other one stays on the visit at hand.
  by_cases hEnters : dispatch.phase = .entering ∧ after.phase = .checking
  · obtain ⟨model, ahead, hAhead, rfl⟩ := enters hStep hEnters.1 hEnters.2
    simp only [Itinerary.observe, hEnters.1]
    exact h.enter hEnters.1 hAhead
  · rw [observe_of_stays hEnters]
    have hAhead := ahead_sublist hStep
    constructor
    case budget => exact h.budget.stepsTo hStep
    case earlier => exact h.earlier
    case current => exact h.current.stepsTo h.budget hStep hEnters
    case total =>
      obtain ⟨more, hVisit, hCounted⟩ := attempts_observe itinerary.current hStep hEnters
      have hAll := itinerary.attempts_withCurrent
        (itinerary.current.observe dispatch.phase after.phase)
      have hStarted : ({ itinerary with
          current := itinerary.current.observe dispatch.phase after.phase } : Itinerary).attempts =
            itinerary.attempts + more := by
        omega
      rw [hStarted, hCounted, h.total, Counter.wrap32_wrap32_add]
    case inChain =>
      simp only [Itinerary.visits, List.map_cons, Visit.observe_model]
      exact ((List.Sublist.refl _).append hAhead).trans h.inChain
    case report => exact report_stepsTo h.current hStep

theorem Accounted.returnsTo (h : Accounted maxAttempts chain itinerary dispatch)
    (hReturn : ReturnsTo dispatch after) : Accounted maxAttempts chain itinerary after where
  budget := h.budget.returnsTo hReturn
  earlier := h.earlier
  current := h.current.returnsTo hReturn
  total := by
    rw [← h.total]
    cases hReturn <;> rfl
  inChain := by
    have hChain := h.inChain
    cases hReturn <;> exact hChain
  report := by
    cases hReturn with
    | retry hPhase error =>
        intro outcome count hFinished
        cases hFinished
    | finish hPhase given hReport =>
        intro outcome count hFinished hReported
        cases hFinished
        exact hReport count hReported

/-! ## Courses -/

/-- Iterations that have begun and not yet come to anything. -/
def undecided (dispatch : Dispatch α) : Nat :=
  match dispatch.phase with
  | .selecting _ => 1
  | _ => 0

theorem OnVisit.proper (h : OnVisit maxAttempts visit dispatch) :
    visit.Proper maxAttempts dispatch.undecided := by
  cases hPhase : dispatch.phase with
  | finished outcome | halted stranded =>
      simp only [OnVisit, hPhase] at h
      simpa only [undecided, hPhase] using h
  | entering | checking | selecting looked | reserving looked deployment | calling call =>
      simp only [OnVisit, hPhase] at h
      simpa only [undecided, hPhase] using h.1

theorem Accounted.attempts_le (h : Accounted maxAttempts chain itinerary dispatch) :
    itinerary.attempts ≤ maxAttempts * chain.length := by
  have hVisit : ∀ visit ∈ itinerary.visits, visit.attempts ≤ maxAttempts :=
    List.forall_mem_cons.mpr
      ⟨h.current.proper.inBudget, fun visit hEarlier => (h.earlier visit hEarlier).inBudget⟩
  have hVisits : itinerary.visits.length ≤ chain.length := by
    have hLength := h.inChain.length_le
    simp only [List.length_append, List.length_reverse, List.length_map] at hLength
    omega
  calc itinerary.attempts
      ≤ maxAttempts * itinerary.visits.length := Visit.attempts_flatMap_le hVisit
    _ ≤ maxAttempts * chain.length := Nat.mul_le_mul_left maxAttempts hVisits

theorem Accounted.length_calls_le (h : Accounted maxAttempts chain itinerary dispatch) :
    itinerary.calls.length ≤ itinerary.attempts :=
  Visit.calls_flatMap_le (List.forall_mem_cons.mpr
    ⟨h.current.proper.callsStarted, fun visit hEarlier => (h.earlier visit hEarlier).callsStarted⟩)

variable {request : Request} {moves : Nat} {settings : Settings}

/-- On routers of the same settings a request keeps its accounts, and every move is paid for. -/
theorem Course.accounted (h : Course (·.settings = settings) request moves itinerary dispatch) :
    ∃ router : Router, router.settings = settings ∧
      Accounted settings.maxAttempts
        (router.fallbacks.chain (router.registry.resolve request.model) settings.maxFallbackDepth)
        itinerary dispatch ∧
      moves + dispatch.price settings.maxAttempts 4 ≤
        (settings.maxFallbackDepth + 1) * (4 * settings.maxAttempts + 5) := by
  induction h with
  | begin router hSettings now =>
      subst hSettings
      refine ⟨router, rfl, accounted_begin router request now, ?_⟩
      rw [Nat.zero_add]
      exact price_begin_le 4 router request now
  | step prior hActive router hSettings now random ih =>
      obtain ⟨first, hFirst, hAccounted, hPaid⟩ := ih
      have hStep := stepsTo_step hActive router now random
      rw [hSettings] at hStep
      have hLess := price_stepsTo_lt hAccounted.budget (show 3 ≤ 4 by omega) hStep
      refine ⟨first, hFirst, hAccounted.stepsTo hStep, ?_⟩
      omega
  | answer prior hCall router hSettings now ended ih =>
      obtain ⟨first, hFirst, hAccounted, hPaid⟩ := ih
      have hReturn := returnsTo_answer hCall router now ended
      have hLess := price_returnsTo_lt settings.maxAttempts (Nat.le_refl 4) hReturn
      refine ⟨first, hFirst, hAccounted.returnsTo hReturn, ?_⟩
      omega

/-- The attempts of a request stay within the whole budget of its chain. -/
theorem Course.attempts_le (h : Course (·.settings = settings) request moves itinerary dispatch) :
    itinerary.attempts ≤ settings.maxAttempts * (1 + settings.maxFallbackDepth) := by
  obtain ⟨router, _, hAccounted, _⟩ := h.accounted
  rw [Nat.add_comm 1]
  exact Nat.le_trans hAccounted.attempts_le (Nat.mul_le_mul_left _
    (router.fallbacks.length_chain_le (router.registry.resolve request.model) _))

/-- What a request reports is the number of its attempts as a 32-bit counter shows it, and so just
that number where the whole budget fits the counter. -/
theorem Course.reported (h : Course (·.settings = settings) request moves itinerary dispatch)
    {outcome : Except RoutingError (Delivery α)} {count : Nat}
    (hFinished : dispatch.phase = .finished outcome)
    (hReported : reportedAttempts? outcome = some count) :
    count = Counter.wrap32 itinerary.attempts ∧
      (settings.maxAttempts * (1 + settings.maxFallbackDepth) ≤ Counter.top32 →
        count = itinerary.attempts) := by
  obtain ⟨_, _, hAccounted, _⟩ := h.accounted
  have hCount : count = Counter.wrap32 itinerary.attempts :=
    (hAccounted.report outcome count hFinished hReported).trans hAccounted.total
  refine ⟨hCount, fun hFits => ?_⟩
  rw [hCount, Counter.wrap32_eq_self (Nat.le_trans h.attempts_le hFits)]

/-- On any routers of the same settings, whatever others do to them between the steps and
however the calls end, a request visits models of its chain in order and each at most once. A
visit takes no more attempts than the settings allow. Each of its iterations starts an attempt,
begins the second pass, which happens once at most and after an attempt, or is the last one.
So the calls and all moves of the request are bounded, and its steps lead to a call or to the end.
The attempts that its outcome reports are those that were started, as a 32-bit counter shows them,
and so just those wherever the whole budget of the chain fits the counter. -/
theorem Course.within_budget
    (h : Course (·.settings = settings) request moves itinerary dispatch) :
    (∀ visit ∈ itinerary.earlier, visit.Proper settings.maxAttempts 0) ∧
      itinerary.current.Proper settings.maxAttempts dispatch.undecided ∧
      (itinerary.visits.map Visit.model).Nodup ∧
      (∃ router : Router, router.settings = settings ∧
        (itinerary.visits.map Visit.model).reverse.Sublist
          (router.fallbacks.chain (router.registry.resolve request.model)
            settings.maxFallbackDepth)) ∧
      itinerary.calls.length ≤ settings.maxAttempts * (1 + settings.maxFallbackDepth) ∧
      moves ≤ (1 + settings.maxFallbackDepth) * (4 * settings.maxAttempts + 5) ∧
      (∀ {σ : Type v} (now : Instant) (random : RandomSource)
        (bystander : Dispatch α → Dispatch α → Router × σ → Router × σ) (state : Router × σ),
        (∀ before after state, (bystander before after state).1.settings = state.1.settings) →
        state.1.settings = settings →
        (Dispatch.run now random bystander (dispatch.stepBound settings.maxAttempts) state
          dispatch).2.isSuspended = true) ∧
      ∀ outcome count, dispatch.phase = .finished outcome →
        reportedAttempts? outcome = some count →
          count = Counter.wrap32 itinerary.attempts ∧
          (settings.maxAttempts * (1 + settings.maxFallbackDepth) ≤ Counter.top32 →
            count = itinerary.attempts) := by
  obtain ⟨router, hSettings, hAccounted, hPaid⟩ := h.accounted
  have hChain : (itinerary.visits.map Visit.model).reverse.Sublist
      (router.fallbacks.chain (router.registry.resolve request.model)
        settings.maxFallbackDepth) :=
    (List.sublist_append_left _ _).trans hAccounted.inChain
  refine ⟨hAccounted.earlier, hAccounted.current.proper, ?_, ⟨router, hSettings, hChain⟩,
    Nat.le_trans hAccounted.length_calls_le h.attempts_le, ?_, ?_,
    fun outcome count => h.reported⟩
  · exact (List.reverse_perm _).nodup_iff.mp
      ((router.fallbacks.nodup_chain _ _).sublist hChain)
  · rw [Nat.add_comm 1]
    omega
  · rintro σ now random bystander state hBystander rfl
    exact isSuspended_run_of_price_le now random hBystander hAccounted.budget
      (price_le_stepBound _ dispatch)

/-- Both deployments are busy, and in the second pass the first one serves the request. -/
theorem Course.within_budget_pair :
    ∃ (moves : Nat) (itinerary : Itinerary) (dispatch : Dispatch Response)
      (delivery : Delivery Response),
      Course (·.settings = pairRouter.settings) Route.pairRequest moves itinerary dispatch ∧
        dispatch.phase = .finished (.ok delivery) ∧
        itinerary.current.turns =
          [.attempt "d1", .attempt "d2", .secondPass, .attempt "d1"] ∧
        itinerary.current.Proper 3 0 ∧
        itinerary.calls = ["d1", "d2", "d1"] ∧ itinerary.calls.length ≤ 3 * (1 + 2) ∧
        moves = 14 ∧ moves ≤ (1 + 2) * (4 * 3 + 5) ∧
        delivery.attempts = itinerary.attempts := by
  have hBegin : Course (·.settings = pairRouter.settings) Route.pairRequest 0
      { current := { model := pairRouter.registry.resolve Route.pairRequest.model } }
      (Dispatch.begin pairRouter Route.pairRequest 0 : Dispatch Response) :=
    Course.begin pairRouter (Eq.refl pairRouter.settings) 0
  have hChecked := hBegin.step rfl pairRouter rfl 1 {}
  have hChosen := hChecked.step rfl pairRouter rfl 2 {}
  have hCalled := hChosen.step rfl pairRouter rfl 3 {}
  have hBusy := hCalled.answer rfl pairRouter rfl 10 (.failure (.server 503 "busy"))
  have hCheckedNext := hBusy.step rfl pairRouter rfl 11 {}
  have hChosenNext := hCheckedNext.step rfl pairRouter rfl 12 {}
  have hCalledNext := hChosenNext.step rfl pairRouter rfl 13 {}
  have hBusyNext := hCalledNext.answer rfl pairRouter rfl 20 (.failure (.server 503 "busy"))
  have hCheckedThird := hBusyNext.step rfl pairRouter rfl 21 {}
  have hSecondPass := hCheckedThird.step rfl pairRouter rfl 22 {}
  have hCheckedAgain := hSecondPass.step rfl pairRouter rfl 23 {}
  have hChosenAgain := hCheckedAgain.step rfl pairRouter rfl 24 {}
  have hCalledAgain := hChosenAgain.step rfl pairRouter rfl 25 {}
  have hServed := hCalledAgain.answer rfl pairRouter rfl 30 (.success { payload := .null })
  obtain ⟨_, hProper, _, _, hCalls, hMoves, _, hReported⟩ := hServed.within_budget.{0, 0}
  exact ⟨_, _, _, _, hServed, rfl, rfl, hProper, rfl, hCalls, rfl, hMoves,
    (hReported _ _ rfl rfl).2 (by decide)⟩

end Dispatch

end DeploymentRouting
