import DeploymentRouting.Proofs.Fallbacks.Chain
import DeploymentRouting.Proofs.Router.Setup
/-!
Why a request comes to an end. Its attempts alone do not bound its steps, since the second pass
begins without one. What goes down with every step is the price of all that the request may
still do: the attempts left for the model at hand, a second pass if there was none yet, and the
whole budget of every model ahead.
-/
namespace DeploymentRouting

universe u v

namespace Dispatch

variable {α : Type u} {maxAttempts toll : Nat} {dispatch after : Dispatch α}

/-- The attempts that an outcome reports, if it reports any. -/
def reportedAttempts? : Except RoutingError (Delivery α) → Option Nat
  | .ok delivery => some (delivery.routed delivery.value).attempts
  | .error (.retriesExhausted _ attempts _) => some attempts
  | .error (.deadlineExceeded _ attempts) => some attempts
  | .error _ => none

/-- What one step can make of a request, on whatever router it is made. -/
inductive StepsTo (maxAttempts : Nat) : Dispatch α → Dispatch α → Prop where
  | fail {dispatch : Dispatch α} (hPhase : dispatch.phase = .entering)
      (outcome : Except RoutingError (Delivery α))
      (hReport : ∀ count, reportedAttempts? outcome = some count → count = dispatch.attempts)
      (hBegun : ∀ model, outcome ≠ .error (.noDeployments model)) :
      StepsTo maxAttempts dispatch (dispatch.finish outcome)
  | skip {dispatch : Dispatch α} {model : String} {ahead : List String}
      (hPhase : dispatch.phase = .entering) (hAhead : dispatch.ahead = model :: ahead) :
      StepsTo maxAttempts dispatch { dispatch with ahead }
  | enter {dispatch : Dispatch α} {model : String} {ahead : List String}
      (hPhase : dispatch.phase = .entering) (hAhead : dispatch.ahead = model :: ahead) :
      StepsTo maxAttempts dispatch
        { dispatch with ahead, entry := model, usedFallback := true, phase := .checking }
  | usedUp {dispatch : Dispatch α} (hPhase : dispatch.phase = .checking) :
      StepsTo maxAttempts dispatch dispatch.leave
  | overdue {dispatch : Dispatch α} (hPhase : dispatch.phase = .checking) :
      StepsTo maxAttempts dispatch
        (dispatch.finish
          (.error (.deadlineExceeded dispatch.request.model dispatch.totalAttempts)))
  | look {dispatch : Dispatch α} (hPhase : dispatch.phase = .checking)
      (hLeft : dispatch.entryAttempts < maxAttempts) (now : Instant) :
      StepsTo maxAttempts dispatch { dispatch with phase := .selecting now }
  | attempt {dispatch : Dispatch α} {looked : Instant}
      (hPhase : dispatch.phase = .selecting looked) (deployment : Deployment) :
      StepsTo maxAttempts dispatch
        { dispatch with
          phase := .reserving looked deployment
          entryAttempts := dispatch.entryAttempts + 1
          tried := deployment.id :: dispatch.tried }
  | secondPass {dispatch : Dispatch α} {looked : Instant}
      (hPhase : dispatch.phase = .selecting looked) (hFirst : dispatch.retryPass = false)
      (hTried : dispatch.tried ≠ []) :
      StepsTo maxAttempts dispatch { dispatch with retryPass := true, phase := .checking }
  | noneLeft {dispatch : Dispatch α} {looked : Instant}
      (hPhase : dispatch.phase = .selecting looked) :
      StepsTo maxAttempts dispatch dispatch.leave
  | halt {dispatch : Dispatch α} {looked : Instant}
      (hPhase : dispatch.phase = .selecting looked) :
      StepsTo maxAttempts dispatch { dispatch with phase := .halted none }
  | refused {dispatch : Dispatch α} {looked : Instant} {deployment : Deployment}
      (hPhase : dispatch.phase = .reserving looked deployment) :
      StepsTo maxAttempts dispatch { dispatch with phase := .checking }
  | call {dispatch : Dispatch α} {looked : Instant} {deployment : Deployment}
      (hPhase : dispatch.phase = .reserving looked deployment) (call : PendingCall)
      (hDeployment : call.deployment = deployment) :
      StepsTo maxAttempts dispatch
        { dispatch with entryCalls := dispatch.entryCalls + 1, phase := .calling call }
  | strand {dispatch : Dispatch α} {looked : Instant} {deployment : Deployment}
      (hPhase : dispatch.phase = .reserving looked deployment)
      (hTimeout : deployment.timeoutFits looked = false) (admission : Admission) :
      StepsTo maxAttempts dispatch
        { dispatch with phase := .halted (some (deployment, admission)) }

/-- What the end of a call can make of a request. -/
inductive ReturnsTo : Dispatch α → Dispatch α → Prop where
  | retry {dispatch : Dispatch α} {call : PendingCall} (hPhase : dispatch.phase = .calling call)
      (error : BackendError) :
      ReturnsTo dispatch { dispatch with lastError := some error, phase := .checking }
  | finish {dispatch : Dispatch α} {call : PendingCall} (hPhase : dispatch.phase = .calling call)
      (outcome : Except RoutingError (Delivery α))
      (hReport : ∀ count, reportedAttempts? outcome = some count →
        count = dispatch.totalAttempts)
      (hBegun : ∀ model, outcome ≠ .error (.noDeployments model)) :
      ReturnsTo dispatch (dispatch.finish outcome)

theorem stepsTo_enter (hPhase : dispatch.phase = .entering) (router : Router) :
    StepsTo maxAttempts dispatch (dispatch.enter router) := by
  unfold Dispatch.enter
  split
  next =>
    refine .fail hPhase _ (fun count hCount => ?_) fun model hBegun => ?_
    · split at hCount
      · exact (Option.some.inj hCount).symm
      · cases hCount
    · split at hBegun <;> cases hBegun
  next model ahead hAhead =>
    split
    · exact .skip hPhase hAhead
    · exact .enter hPhase hAhead

theorem stepsTo_check (hPhase : dispatch.phase = .checking) (now : Instant) :
    StepsTo maxAttempts dispatch (dispatch.check maxAttempts now) := by
  unfold Dispatch.check
  split
  · exact .usedUp hPhase
  next hLeft =>
    split
    · exact .overdue hPhase
    · exact .look hPhase (Nat.lt_of_not_le hLeft) now

theorem stepsTo_withSelection {looked : Instant} (hPhase : dispatch.phase = .selecting looked)
    (selection : Selection) :
    StepsTo maxAttempts dispatch (dispatch.withSelection looked selection) := by
  cases selection with
  | chosen deployment => exact .attempt hPhase deployment
  | noneEligible =>
      simp only [Dispatch.withSelection]
      split
      next hAgain =>
        simp only [Bool.and_eq_true, Bool.not_eq_true', List.isEmpty_eq_false_iff] at hAgain
        exact .secondPass hPhase hAgain.1 hAgain.2
      next => exact .noneLeft hPhase
  | overflow => exact .halt hPhase

theorem stepsTo_reserve {looked : Instant} {deployment : Deployment}
    (hPhase : dispatch.phase = .reserving looked deployment) (router : Router) (now : Instant) :
    StepsTo maxAttempts dispatch (dispatch.reserve router now looked deployment).2 := by
  obtain ⟨_, _, _, hReserve⟩ | ⟨_, admission, _, _, hReserve⟩ |
    ⟨_, admission, _, hTimeout, hReserve⟩ := dispatch.reserve_cases router now looked deployment
  all_goals rw [hReserve]
  · exact .refused hPhase
  · exact .call hPhase _ rfl
  · exact .strand hPhase hTimeout admission

/-- Every step is one of those. -/
theorem stepsTo_step (hActive : dispatch.isSuspended = false) (router : Router) (now : Instant)
    (random : RandomSource) :
    StepsTo router.settings.maxAttempts dispatch (dispatch.step router now random).2 := by
  unfold Dispatch.step
  cases hPhase : dispatch.phase with
  | entering => exact stepsTo_enter hPhase router
  | checking => exact stepsTo_check hPhase now
  | selecting looked => exact stepsTo_withSelection hPhase _
  | reserving looked deployment => exact stepsTo_reserve hPhase router now
  | calling call => simp [isSuspended, hPhase] at hActive
  | finished outcome => simp [isSuspended, hPhase] at hActive
  | halted chosen => simp [isSuspended, hPhase] at hActive

theorem returnsTo_fail {call : PendingCall} (hPhase : dispatch.phase = .calling call)
    (error : BackendError) (router : Router) (now : Instant) :
    ReturnsTo dispatch (dispatch.fail router now call error).2 := by
  unfold Dispatch.fail
  split
  · exact .retry hPhase error
  · exact .finish hPhase _ (fun count hCount => by cases hCount) fun model => by simp

/-- Every end of a call is one of those. -/
theorem returnsTo_answer {call : PendingCall} (hPhase : dispatch.phase = .calling call)
    (router : Router) (now : Instant) (ended : CallEnd α) :
    ReturnsTo dispatch (dispatch.answer router now ended).2 := by
  simp only [Dispatch.answer, hPhase]
  cases ended with
  | success value =>
      exact .finish hPhase _ (fun count hCount => (Option.some.inj hCount).symm)
        fun model => by simp
  | failure error => exact returnsTo_fail hPhase error router now
  | cutOff =>
      simp only [Dispatch.cutOff]
      split
      · exact .finish hPhase _ (fun count hCount => (Option.some.inj hCount).symm)
          fun model => by simp
      · exact returnsTo_fail hPhase _ router now

/-- The attempts for the model at hand are within the budget, and a choice is made only while
one is left. -/
structure WithinBudget (maxAttempts : Nat) (dispatch : Dispatch α) : Prop where
  attempts : dispatch.entryAttempts ≤ maxAttempts
  left : ∀ looked, dispatch.phase = .selecting looked → dispatch.entryAttempts < maxAttempts

theorem WithinBudget.of_phase (hAttempts : dispatch.entryAttempts ≤ maxAttempts)
    (hPhase : ∀ looked, dispatch.phase ≠ .selecting looked) : dispatch.WithinBudget maxAttempts :=
  ⟨hAttempts, fun looked h => absurd h (hPhase looked)⟩

theorem withinBudget_begin (maxAttempts : Nat) (router : Router) (request : Request)
    (now : Instant) : (begin router request now : Dispatch α).WithinBudget maxAttempts := by
  simp only [begin]
  split
  · exact .of_phase (Nat.zero_le _) (by simp)
  · exact .of_phase (Nat.zero_le _) (by simp)

theorem WithinBudget.stepsTo (h : dispatch.WithinBudget maxAttempts)
    (hStep : StepsTo maxAttempts dispatch after) : after.WithinBudget maxAttempts := by
  cases hStep with
  | fail hPhase outcome hReport => exact .of_phase h.attempts (by simp [finish])
  | skip hPhase hAhead => exact .of_phase h.attempts (by simp [hPhase])
  | enter hPhase hAhead => exact .of_phase h.attempts (by simp)
  | usedUp hPhase => exact .of_phase (Nat.zero_le _) (by simp [leave])
  | overdue hPhase => exact .of_phase h.attempts (by simp [finish])
  | look hPhase hLeft now => exact ⟨h.attempts, fun _ _ => hLeft⟩
  | attempt hPhase deployment => exact .of_phase (h.left _ hPhase) (by simp)
  | secondPass hPhase hFirst hTried => exact .of_phase h.attempts (by simp)
  | noneLeft hPhase => exact .of_phase (Nat.zero_le _) (by simp [leave])
  | halt hPhase => exact .of_phase h.attempts (by simp)
  | refused hPhase => exact .of_phase h.attempts (by simp)
  | call hPhase call hDeployment => exact .of_phase h.attempts (by simp)
  | strand hPhase hTimeout admission => exact .of_phase h.attempts (by simp)

theorem WithinBudget.returnsTo (h : dispatch.WithinBudget maxAttempts)
    (hReturn : ReturnsTo dispatch after) : after.WithinBudget maxAttempts := by
  cases hReturn with
  | retry hPhase error => exact .of_phase h.attempts (by simp)
  | finish hPhase outcome hReport => exact .of_phase h.attempts (by simp [finish])

/-- The price of the loop for the model at hand when each attempt costs a toll. -/
def loopPrice (maxAttempts toll : Nat) (dispatch : Dispatch α) : Nat :=
  toll * (maxAttempts - dispatch.entryAttempts) + if dispatch.retryPass then 0 else 2

/-- The price of the models ahead. Besides its attempts and its second pass a model takes one
step to enter it and two to leave it. -/
def aheadPrice (maxAttempts toll : Nat) (dispatch : Dispatch α) : Nat :=
  dispatch.ahead.length * (toll * maxAttempts + 5)

/-- The price of all that a request may still do. -/
def price (maxAttempts toll : Nat) (dispatch : Dispatch α) : Nat :=
  match dispatch.phase with
  | .entering => dispatch.aheadPrice maxAttempts toll + 1
  | .checking =>
      dispatch.aheadPrice maxAttempts toll + dispatch.loopPrice maxAttempts toll + 3
  | .selecting _ =>
      dispatch.aheadPrice maxAttempts toll + dispatch.loopPrice maxAttempts toll + 2
  | .reserving _ _ =>
      dispatch.aheadPrice maxAttempts toll + dispatch.loopPrice maxAttempts toll + toll + 1
  | .calling _ =>
      dispatch.aheadPrice maxAttempts toll + dispatch.loopPrice maxAttempts toll + toll
  | .finished _ | .halted _ => 0

/-- At the beginning a request has its whole chain to pay for. -/
theorem price_begin_le (toll : Nat) (router : Router) (request : Request) (now : Instant) :
    (begin router request now : Dispatch α).price router.settings.maxAttempts toll ≤
      (router.settings.maxFallbackDepth + 1) * (toll * router.settings.maxAttempts + 5) := by
  simp only [begin]
  split
  · exact Nat.zero_le _
  · have hChain := router.fallbacks.length_chain_le
      (router.registry.resolve request.model) router.settings.maxFallbackDepth
    have hAhead := Nat.mul_le_mul_right (toll * router.settings.maxAttempts + 5)
      (Nat.sub_le_of_le_add hChain)
    simp only [price, aheadPrice, loopPrice, List.length_tail, Nat.sub_zero]
    rw [Nat.add_one_mul router.settings.maxFallbackDepth]
    simp only [Bool.false_eq_true, if_false]
    omega

/-- An attempt that begins pays its toll. -/
theorem loopPrice_attempt (toll : Nat) (hLeft : dispatch.entryAttempts < maxAttempts) :
    toll * (maxAttempts - (dispatch.entryAttempts + 1)) + toll =
      toll * (maxAttempts - dispatch.entryAttempts) := by
  rw [← Nat.mul_succ]
  congr 1
  omega

/-- Every step lowers the price, if an attempt costs at least its three steps. -/
theorem price_stepsTo_lt (h : dispatch.WithinBudget maxAttempts) (hToll : 3 ≤ toll)
    (hStep : StepsTo maxAttempts dispatch after) :
    after.price maxAttempts toll < dispatch.price maxAttempts toll := by
  cases hStep with
  | fail hPhase outcome hReport => simp [price, hPhase, finish]
  | skip hPhase hAhead =>
      simp only [price, hPhase, aheadPrice, hAhead, List.length_cons, Nat.succ_mul]
      omega
  | enter hPhase hAhead =>
      have hLoop : toll * (maxAttempts - dispatch.entryAttempts) ≤ toll * maxAttempts :=
        Nat.mul_le_mul_left toll (Nat.sub_le _ _)
      simp only [price, hPhase, aheadPrice, loopPrice, hAhead, List.length_cons, Nat.succ_mul]
      split <;> omega
  | usedUp hPhase =>
      simp only [price, hPhase, leave, aheadPrice]
      omega
  | overdue hPhase => simp [price, hPhase, finish]
  | look hPhase hLeft now =>
      simp only [price, hPhase, aheadPrice, loopPrice]
      omega
  | attempt hPhase deployment =>
      have hPaid := loopPrice_attempt toll (h.left _ hPhase)
      simp only [price, hPhase, aheadPrice, loopPrice]
      omega
  | secondPass hPhase hFirst hTried =>
      -- No attempt is paid for here. What pays is that there is no second pass after this one.
      simp only [price, hPhase, aheadPrice, loopPrice, hFirst, Bool.false_eq_true, if_true,
        if_false]
      omega
  | noneLeft hPhase =>
      simp only [price, hPhase, leave, aheadPrice]
      omega
  | halt hPhase => simp [price, hPhase]
  | refused hPhase =>
      simp only [price, hPhase, aheadPrice, loopPrice]
      omega
  | call hPhase call hDeployment =>
      simp only [price, hPhase, aheadPrice, loopPrice]
      omega
  | strand hPhase hTimeout admission => simp [price, hPhase]

/-- So does the end of a call, if that is paid for too. -/
theorem price_returnsTo_lt (maxAttempts : Nat) (hToll : 4 ≤ toll)
    (hReturn : ReturnsTo dispatch after) :
    after.price maxAttempts toll < dispatch.price maxAttempts toll := by
  cases hReturn with
  | retry hPhase error =>
      simp only [price, hPhase, aheadPrice, loopPrice]
      omega
  | finish hPhase outcome hReport =>
      simp only [price, hPhase, finish]
      omega

theorem isSuspended_of_price_eq_zero (h : dispatch.price maxAttempts toll = 0) :
    dispatch.isSuspended = true := by
  unfold isSuspended
  cases hPhase : dispatch.phase <;> simp_all [price]

/-- A run that is given as many steps as the request has to pay for stops only at a call or at
the end, whatever a bystander does to the router, as long as its settings stay. -/
theorem isSuspended_run_of_price_le {σ : Type v} (now : Instant) (random : RandomSource)
    {bystander : Dispatch α → Dispatch α → Router × σ → Router × σ}
    (hBystander : ∀ before after state,
      (bystander before after state).1.settings = state.1.settings)
    {fuel : Nat} {state : Router × σ}
    (hBudget : dispatch.WithinBudget state.1.settings.maxAttempts)
    (hFuel : dispatch.price state.1.settings.maxAttempts 3 ≤ fuel) :
    (run now random bystander fuel state dispatch).2.isSuspended = true := by
  induction fuel generalizing dispatch state with
  | zero => exact isSuspended_of_price_eq_zero (Nat.le_zero.mp hFuel)
  | succ fuel ih =>
      obtain ⟨router, others⟩ := state
      simp only [run]
      split
      next hSuspended => exact hSuspended
      next hActive =>
        have hStep := stepsTo_step (Bool.eq_false_iff.mpr hActive) router now random
        have hLess := price_stepsTo_lt hBudget (Nat.le_refl 3) hStep
        have hSettings := (hBystander dispatch (dispatch.step router now random).2
          ((dispatch.step router now random).1, others)).trans
          (dispatch.sameSetup_step router now random).settings
        apply ih
        · rw [hSettings]
          exact hBudget.stepsTo hStep
        · rw [hSettings]
          exact Nat.le_of_lt_succ (Nat.lt_of_lt_of_le hLess hFuel)

/-- The steps that a run is given are as many as it has to pay for. -/
theorem price_le_stepBound (maxAttempts : Nat) (dispatch : Dispatch α) :
    dispatch.price maxAttempts 3 ≤ dispatch.stepBound maxAttempts := by
  have hLoop : dispatch.loopPrice maxAttempts 3 ≤ 3 * maxAttempts + 2 := by
    unfold loopPrice
    split <;> omega
  have hAhead : dispatch.aheadPrice maxAttempts 3 + (3 * maxAttempts + 6) ≤
      dispatch.stepBound maxAttempts := by
    unfold aheadPrice stepBound
    rw [Nat.add_one_mul dispatch.ahead.length]
    exact Nat.add_le_add_right (Nat.mul_le_mul_left _ (Nat.le_succ _)) _
  unfold price
  split <;> omega

end Dispatch

end DeploymentRouting
