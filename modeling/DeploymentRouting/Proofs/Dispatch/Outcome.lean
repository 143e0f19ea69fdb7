import DeploymentRouting.Proofs.Dispatch.Trace
/-!
The outcome of a request is determined by its calls. As long as a request goes on, all its
calls have failed in a way that allows another attempt, and what it carries from model to
model, the number of its calls and the last error, is what can be read off the trace. So the
first call that ends in any other way is the last one, and it decides. The number is kept by a
32-bit counter, which shows no calls again after `2 ^ 32` of them.
-/
namespace DeploymentRouting

universe u

variable {α : Type u} {request : Request} {calls : List (EndedCall α)} {last : Instant}

/-- How the last call of a request accounts for its outcome. -/
def Explains (request : Request) (calls : List (EndedCall α)) (last : Instant) :
    Except RoutingError (Delivery α) → Prop
  | .ok delivery => ∃ call, calls.getLast? = some call ∧
      call.verdict request = .served delivery.value ∧
      call.call.deployment = delivery.deployment
  | .error (.backendRefused deployment error) => ∃ call, calls.getLast? = some call ∧
      call.call.deployment.id = deployment ∧ call.verdict request = .failed error ∧
      error.retriable = false
  | .error (.retriesExhausted _ _ lastError) => (∀ call ∈ calls, call.FailedRetriably request) ∧
      ∃ call error, calls.getLast? = some call ∧ call.verdict request = .failed error ∧
        lastError = some error
  | .error (.deadlineExceeded _ _) => request.deadline ≤ last ∧
      ∀ call, calls.getLast? = some call →
        call.FailedRetriably request ∨ call.verdict request = .overdue
  | .error (.noDeployments _) => calls = []
  | .error (.allUnavailable _) => (∀ call ∈ calls, call.FailedRetriably request) ∧
      Counter.top32 + 1 ∣ calls.length
  | .error (.callerRefused _ _) => calls = []
  | .error (.setup _) => False

namespace Explains

variable {outcome : Except RoutingError (Delivery α)} {call : EndedCall α}

/-- A last call that neither allows another attempt nor was cut off by the deadline of the
request decides its outcome. -/
theorem decided (h : Explains request calls last outcome) (hLast : calls.getLast? = some call)
    (hFinal : ¬call.FailedRetriably request) (hInTime : call.verdict request ≠ .overdue) :
    (∃ delivery, outcome = .ok delivery ∧ call.verdict request = .served delivery.value) ∨
      ∃ error, outcome = .error (.backendRefused call.call.deployment.id error) ∧
        call.verdict request = .failed error := by
  have hCalls : calls ≠ [] := by
    rintro rfl
    cases hLast
  cases outcome with
  | ok delivery =>
      obtain ⟨other, hOther, hServed, _⟩ := h
      cases hLast.symm.trans hOther
      exact Or.inl ⟨delivery, rfl, hServed⟩
  | error error =>
      cases error with
      | setup fault => exact False.elim h
      | noDeployments model => exact absurd h hCalls
      | allUnavailable model => exact absurd (h.1 call (List.mem_of_getLast? hLast)) hFinal
      | callerRefused caller refusal => exact absurd h hCalls
      | retriesExhausted model attempts lastError =>
          exact absurd (h.1 call (List.mem_of_getLast? hLast)) hFinal
      | backendRefused deployment error =>
          obtain ⟨other, hOther, rfl, hFailed, _⟩ := h
          cases hLast.symm.trans hOther
          exact Or.inr ⟨error, rfl, hFailed⟩
      | deadlineExceeded model attempts =>
          rcases h.2 call hLast with hFailed | hOverdue
          · exact absurd hFailed hFinal
          · exact absurd hOverdue hInTime

theorem exists_ok (h : Explains request calls last outcome) (hLast : calls.getLast? = some call)
    {value : α} (hServed : call.verdict request = .served value) :
    ∃ delivery, outcome = .ok delivery := by
  rcases h.decided hLast (by simp [EndedCall.FailedRetriably, hServed]) (by simp [hServed]) with
    ⟨delivery, hOk, _⟩ | ⟨error, _, hFailed⟩
  · exact ⟨delivery, hOk⟩
  · rw [hServed] at hFailed
    cases hFailed

theorem eq_backendRefused (h : Explains request calls last outcome)
    (hLast : calls.getLast? = some call) {error : BackendError}
    (hFailed : call.verdict request = .failed error) (hFinal : error.retriable = false) :
    outcome = .error (.backendRefused call.call.deployment.id error) := by
  rcases h.decided hLast (by simp [EndedCall.FailedRetriably, hFailed, hFinal])
    (by simp [hFailed]) with ⟨delivery, _, hServed⟩ | ⟨other, hRefused, hOther⟩
  · rw [hFailed] at hServed
    cases hServed
  · rw [hFailed] at hOther
    cases hOther
    exact hRefused

end Explains

namespace Dispatch

/-- What a request carries along while it goes on. Of the calls that it has counted, up to full
rounds of the counter, `out` are still out. -/
structure Carries (request : Request) (calls : List (EndedCall α)) (out : Nat)
    (dispatch : Dispatch α) : Prop where
  request_eq : dispatch.request = request
  failed : ∀ call ∈ calls, call.FailedRetriably request
  counted : Counter.wrap32 (dispatch.calls + dispatch.entryCalls) =
    Counter.wrap32 (calls.length + out)
  lastError : dispatch.lastError = calls.getLast?.bind (EndedCall.error? request)

/-- What holds of a request at each place it can be. -/
def Consistent (request : Request) (calls : List (EndedCall α)) (last : Instant)
    (dispatch : Dispatch α) : Prop :=
  match dispatch.phase with
  | .entering => Carries request calls 0 dispatch ∧ dispatch.entryCalls = 0 ∧
      dispatch.calls = Counter.wrap32 calls.length
  | .checking | .selecting _ | .reserving _ _ => Carries request calls 0 dispatch
  | .calling _ => Carries request calls 1 dispatch
  | .halted _ => ∀ call ∈ calls, call.FailedRetriably request
  | .finished outcome =>
      (∀ call ∈ calls.dropLast, call.FailedRetriably request) ∧
        Explains request calls last outcome

variable {dispatch : Dispatch α}

/-- The last error of a request all of whose calls failed is that of its last call. -/
theorem Carries.exists_last {out : Nat} (h : Carries request calls out dispatch)
    (hCalls : calls ≠ []) :
    ∃ call error, calls.getLast? = some call ∧ call.verdict request = .failed error ∧
      dispatch.lastError = some error := by
  have hLast := List.getLast?_eq_some_getLast hCalls
  obtain ⟨error, hVerdict, _⟩ := h.failed _ (List.getLast_mem hCalls)
  refine ⟨_, error, hLast, hVerdict, ?_⟩
  rw [h.lastError, hLast]
  exact EndedCall.error?_of_verdict hVerdict

theorem Carries.overdue {out : Nat} (h : Carries request calls out dispatch) {now : Instant}
    (hExpired : dispatch.request.isExpired now = true) (model : String) (attempts : Nat) :
    (∀ call ∈ calls.dropLast, call.FailedRetriably request) ∧
      Explains request calls now (.error (.deadlineExceeded model attempts)) := by
  rw [h.request_eq] at hExpired
  exact ⟨fun call hMem => h.failed call (List.dropLast_subset _ hMem),
    of_decide_eq_true hExpired,
    fun call hLast => Or.inl (h.failed call (List.mem_of_getLast? hLast))⟩

theorem consistent_begin (router : Router) (request : Request) (now : Instant) :
    Consistent request [] now (begin router request now : Dispatch α) := by
  simp only [begin]
  split
  · exact ⟨by simp, rfl⟩
  · exact ⟨rfl, by simp, rfl, rfl⟩

theorem Carries.leave (h : Carries request calls 0 dispatch) :
    Consistent request calls last dispatch.leave :=
  ⟨⟨h.request_eq, h.failed, (Counter.wrap32_wrap32_add _ 0).trans h.counted, h.lastError⟩, rfl,
    h.counted⟩

/-- After the last model the request has failed: with its last error if it has counted any call,
and as unavailable if it has counted none. -/
theorem Carries.enter (h : Carries request calls 0 dispatch) (hNone : dispatch.entryCalls = 0)
    (hCounted : dispatch.calls = Counter.wrap32 calls.length)
    (hPhase : dispatch.phase = .entering) (router : Router) :
    Consistent request calls last (dispatch.enter router) := by
  unfold Dispatch.enter
  split
  next =>
    refine ⟨fun call hMem => h.failed call (List.dropLast_subset _ hMem), ?_⟩
    -- The counter of the calls decides, and it shows the length of the trace up to full rounds.
    rw [hCounted]
    split
    next hSome =>
      have hCalls : calls ≠ [] := by
        rintro rfl
        exact Nat.lt_irrefl 0 hSome
      exact ⟨h.failed, h.exists_last hCalls⟩
    next hZero =>
      exact ⟨h.failed, Counter.wrap32_eq_zero_iff.mp (Nat.eq_zero_of_not_pos hZero)⟩
  next model ahead _ =>
    split
    · simp only [Consistent, hPhase]
      exact ⟨⟨h.request_eq, h.failed, h.counted, h.lastError⟩, hNone, hCounted⟩
    · exact ⟨h.request_eq, h.failed, h.counted, h.lastError⟩

theorem Carries.check (h : Carries request calls 0 dispatch) (maxAttempts : Nat)
    (now : Instant) : Consistent request calls now (dispatch.check maxAttempts now) := by
  unfold Dispatch.check
  split
  · exact h.leave
  · split
    next hExpired => exact h.overdue hExpired _ _
    next => exact ⟨h.request_eq, h.failed, h.counted, h.lastError⟩

theorem Carries.withSelection (h : Carries request calls 0 dispatch) (now : Instant)
    (selection : Selection) :
    Consistent request calls last (dispatch.withSelection now selection) := by
  cases selection with
  | chosen deployment => exact ⟨h.request_eq, h.failed, h.counted, h.lastError⟩
  | noneEligible =>
      simp only [Dispatch.withSelection]
      split
      · exact ⟨h.request_eq, h.failed, h.counted, h.lastError⟩
      · exact h.leave
  | overflow => exact h.failed

theorem Carries.reserve (h : Carries request calls 0 dispatch) (router : Router)
    (now looked : Instant) (deployment : Deployment) :
    Consistent request calls last (dispatch.reserve router now looked deployment).2 := by
  obtain ⟨_, _, _, hReserve⟩ | ⟨_, _, _, _, hReserve⟩ | ⟨_, _, _, _, hReserve⟩ :=
    dispatch.reserve_cases router now looked deployment
  all_goals rw [hReserve]
  · exact ⟨h.request_eq, h.failed, h.counted, h.lastError⟩
  · exact ⟨h.request_eq, h.failed, Counter.wrap32_add_congr h.counted 1, h.lastError⟩
  · exact h.failed

/-- A step between two calls keeps what the request carries. -/
theorem Consistent.step (h : Consistent request calls last dispatch)
    (hActive : dispatch.isSuspended = false) (router : Router) (now : Instant)
    (random : RandomSource) :
    Consistent request calls now (dispatch.step router now random).2 := by
  unfold Dispatch.step
  cases hPhase : dispatch.phase with
  | entering =>
      simp only [Consistent, hPhase] at h
      exact h.1.enter h.2.1 h.2.2 hPhase router
  | checking =>
      simp only [Consistent, hPhase] at h
      exact h.check router.settings.maxAttempts now
  | selecting looked =>
      simp only [Consistent, hPhase] at h
      exact h.withSelection looked _
  | reserving looked deployment =>
      simp only [Consistent, hPhase] at h
      exact h.reserve router now looked deployment
  | calling call => simp [isSuspended, hPhase] at hActive
  | finished outcome => simp [isSuspended, hPhase] at hActive
  | halted chosen => simp [isSuspended, hPhase] at hActive

theorem Carries.dropLast_failed {out : Nat} (h : Carries request calls out dispatch)
    (call : EndedCall α) :
    ∀ earlier ∈ (calls ++ [call]).dropLast, earlier.FailedRetriably request := by
  rw [List.dropLast_concat]
  exact h.failed

/-- A call that fails lets the request go on, if the error says so, or else decides it. -/
theorem Carries.fail (h : Carries request calls 1 dispatch) {call : EndedCall α}
    {error : BackendError} (hVerdict : call.verdict request = .failed error) (router : Router)
    (now : Instant) :
    Consistent request (calls ++ [call]) now (dispatch.fail router now call.call error).2 := by
  have hLast : (calls ++ [call]).getLast? = some call := List.getLast?_concat
  unfold Dispatch.fail
  split
  next hRetriable =>
    refine ⟨h.request_eq, fun other hMem => ?_, ?_, ?_⟩
    · rcases List.mem_append.mp hMem with hMem | hMem
      · exact h.failed other hMem
      · cases List.mem_singleton.mp hMem
        exact ⟨error, hVerdict, hRetriable⟩
    · simpa using h.counted
    · rw [hLast]
      exact (EndedCall.error?_of_verdict hVerdict).symm
  next hFinal =>
    exact ⟨h.dropLast_failed call, call, hLast, rfl, hVerdict, Bool.eq_false_iff.mpr hFinal⟩

/-- The end of a call keeps what the request carries, or decides the request. -/
theorem Consistent.answer (h : Consistent request calls last dispatch) {call : PendingCall}
    (hCall : dispatch.phase = .calling call) (router : Router) (now : Instant)
    (ended : CallEnd α) :
    Consistent request (calls ++ [⟨call, ended, now⟩]) now
      (dispatch.answer router now ended).2 := by
  simp only [Consistent, hCall] at h
  have hLast : ∀ ended : EndedCall α, (calls ++ [ended]).getLast? = some ended := fun _ =>
    List.getLast?_concat
  simp only [Dispatch.answer, hCall]
  cases ended with
  | success value =>
      exact ⟨h.dropLast_failed _, _, hLast _, rfl, rfl⟩
  | failure error =>
      exact @Carries.fail _ _ _ _ h ⟨call, .failure error, now⟩ error rfl router now
  | cutOff =>
      simp only [Dispatch.cutOff, h.request_eq]
      split
      next hExpired =>
        refine ⟨h.dropLast_failed _, of_decide_eq_true hExpired, fun other hOther => ?_⟩
        rw [hLast, Option.some.injEq] at hOther
        subst hOther
        exact Or.inr (by simp [EndedCall.verdict, hExpired])
      next hInTime =>
        refine @Carries.fail _ _ _ _ h ⟨call, .cutOff, now⟩ _ ?_ router now
        simp [EndedCall.verdict, hInTime]

/-- Wherever a request is, no call but its last one ended in another way than a failure that
allows another attempt. -/
theorem Consistent.earlier_failed (h : Consistent request calls last dispatch) :
    ∀ call ∈ calls.dropLast, call.FailedRetriably request := by
  have hSub : ∀ call ∈ calls.dropLast, call ∈ calls := fun _ hMem =>
    List.dropLast_subset _ hMem
  unfold Consistent at h
  split at h
  · exact fun call hMem => h.1.failed call (hSub call hMem)
  · exact fun call hMem => h.failed call (hSub call hMem)
  · exact fun call hMem => h.failed call (hSub call hMem)
  · exact fun call hMem => h.failed call (hSub call hMem)
  · exact fun call hMem => h.failed call (hSub call hMem)
  · exact fun call hMem => h call (hSub call hMem)
  · exact h.1

end Dispatch

namespace Route

/-- Before a request has begun only its caller can be refused. -/
theorem begin_cases (router : Router) (request : Request) (now : Instant) :
    (∃ caller refusal, (begin (α := α) router request now).2 =
        .error (.callerRefused caller refusal)) ∨
      ∃ after callerAdmission, (begin (α := α) router request now).2 =
        .ok { callerAdmission, dispatch := Dispatch.begin after request now } := by
  simp only [begin, Router.reserveCaller]
  split
  next hRefused =>
    split at hRefused
    · cases hRefused
    · split at hRefused
      · cases hRefused
      · split at hRefused
        · cases hRefused
        · cases hRefused
          exact Or.inl ⟨_, _, rfl⟩
  next => exact Or.inr ⟨_, _, rfl⟩

/-- Every trace is consistent, and one that ended before it began has no call. -/
theorem Trace.consistent {stage : Except RoutingError (Route α)}
    (h : Trace request calls last stage) :
    (∀ route, stage = .ok route → route.dispatch.Consistent request calls last) ∧
      ∀ error, stage = .error error →
        calls = [] ∧ ∃ caller refusal, error = .callerRefused caller refusal := by
  induction h with
  | begin router now =>
      rcases begin_cases (α := α) router request now with
        ⟨caller, refusal, hBegin⟩ | ⟨after, admission, hBegin⟩
      · rw [hBegin]
        refine ⟨fun route hRoute => (by cases hRoute), fun error hError => ?_⟩
        cases hError
        exact ⟨rfl, caller, refusal, rfl⟩
      · rw [hBegin]
        refine ⟨fun route hRoute => ?_, fun error hError => by cases hError⟩
        cases hRoute
        exact Dispatch.consistent_begin after request now
  | step prior hActive router now random ih =>
      refine ⟨fun route hRoute => ?_, fun error hError => by cases hError⟩
      cases hRoute
      exact (ih.1 _ rfl).step hActive router now random
  | answer prior hCall router now ended ih =>
      refine ⟨fun route hRoute => ?_, fun error hError => by cases hError⟩
      cases hRoute
      exact (ih.1 _ rfl).answer hCall router now ended

theorem Trace.explains {stage : Except RoutingError (Route α)}
    (h : Trace request calls last stage) {outcome : Except RoutingError (Delivery α)}
    (hOutcome : outcome? stage = some outcome) : Explains request calls last outcome := by
  cases stage with
  | error error =>
      obtain ⟨hCalls, caller, refusal, rfl⟩ := h.consistent.2 error rfl
      cases hOutcome
      exact hCalls
  | ok route =>
      have hConsistent := h.consistent.1 route rfl
      simp only [outcome?] at hOutcome
      split at hOutcome
      next hPhase =>
        cases hOutcome
        simp only [Dispatch.Consistent, hPhase] at hConsistent
        exact hConsistent.2
      next => cases hOutcome

/-- The calls of a request determine its outcome. All but the last of them failed in a way
that allows another attempt, for whatever model they were made, and so did all calls before
one that is still out. A request is served exactly if its last call is, and it is refused for
good exactly if its last call is. It is exhausted only after calls that all failed, and then it
tells the error of the last one. It is without deployments or over the limits of its caller only
if it never made a call, and out of time only at its deadline or later. It is unavailable if it
never made a call, or else after a multiple of `2 ^ 32` calls that all failed: its counter of them
then shows none. -/
theorem Trace.outcome_determined {stage : Except RoutingError (Route α)}
    (h : Trace request calls last stage) :
    (∀ call ∈ calls.dropLast, call.FailedRetriably request) ∧
      (∀ route call, stage = .ok route → route.dispatch.phase = .calling call →
        ∀ earlier ∈ calls, earlier.FailedRetriably request) ∧
      ∀ outcome, outcome? stage = some outcome →
        (∀ delivery, outcome = .ok delivery → ∃ call, calls.getLast? = some call ∧
          call.verdict request = .served delivery.value ∧
          call.call.deployment = delivery.deployment) ∧
        (∀ call value, calls.getLast? = some call → call.verdict request = .served value →
          ∃ delivery, outcome = .ok delivery) ∧
        (∀ deployment error, outcome = .error (.backendRefused deployment error) ↔
          ∃ call, calls.getLast? = some call ∧ call.call.deployment.id = deployment ∧
            call.verdict request = .failed error ∧ error.retriable = false) ∧
        (∀ model attempts lastError,
          outcome = .error (.retriesExhausted model attempts lastError) →
            (∀ call ∈ calls, call.FailedRetriably request) ∧
            ∃ call error, calls.getLast? = some call ∧ call.verdict request = .failed error ∧
              lastError = some error) ∧
        (∀ model, outcome = .error (.allUnavailable model) →
            (∀ call ∈ calls, call.FailedRetriably request) ∧ Counter.top32 + 1 ∣ calls.length ∧
            (calls.length ≤ Counter.top32 → calls = [])) ∧
        (∀ model, outcome = .error (.noDeployments model) → calls = []) ∧
        (∀ caller refusal, outcome = .error (.callerRefused caller refusal) → calls = []) ∧
        ∀ model attempts, outcome = .error (.deadlineExceeded model attempts) →
          request.deadline ≤ last := by
  refine ⟨?_, fun route call hRoute hCall => ?_, fun outcome hOutcome => ?_⟩
  · cases stage with
    | error error => simp [(h.consistent.2 error rfl).1]
    | ok route => exact (h.consistent.1 route rfl).earlier_failed
  · have hConsistent := h.consistent.1 route hRoute
    simp only [Dispatch.Consistent, hCall] at hConsistent
    exact hConsistent.failed
  · have hExplains := h.explains hOutcome
    refine ⟨?_, fun call value hLast hServed => ?_, fun deployment error => ⟨?_, ?_⟩, ?_, ?_, ?_,
      ?_, ?_⟩
    · rintro delivery rfl
      exact hExplains
    · exact hExplains.exists_ok hLast hServed
    · rintro rfl
      exact hExplains
    · rintro ⟨call, hLast, rfl, hFailed, hFinal⟩
      exact hExplains.eq_backendRefused hLast hFailed hFinal
    · rintro model attempts lastError rfl
      exact hExplains
    · rintro model rfl
      refine ⟨hExplains.1, hExplains.2, fun hFew => List.eq_nil_of_length_eq_zero ?_⟩
      exact Nat.eq_zero_of_dvd_of_lt hExplains.2 (Nat.lt_succ_of_le hFew)
    · rintro model rfl
      exact hExplains
    · rintro caller refusal rfl
      exact hExplains
    · rintro model attempts rfl
      exact hExplains.1

def pairRequest : Request := { model := "m", payload := .null, deadline := 100 }

/-- The first deployment is busy, and the second one serves the request. -/
theorem Trace.outcome_determined_pair :
    ∃ (calls : List (EndedCall Response)) (last : Instant)
      (stage : Except RoutingError (Route Response)) (delivery : Delivery Response),
      Trace pairRequest calls last stage ∧ outcome? stage = some (.ok delivery) ∧
        delivery.deployment.id = "d2" ∧ calls.length = 2 ∧
        (∀ call ∈ calls.dropLast, call.FailedRetriably pairRequest) ∧
        ∃ call, calls.getLast? = some call ∧
          call.verdict pairRequest = .served delivery.value ∧
          call.call.deployment = delivery.deployment := by
  have hBegin : Trace (α := Response) pairRequest [] 0
      (.ok ⟨none, Dispatch.begin pairRouter pairRequest 0⟩) := Trace.begin pairRouter 0
  have hChecked := hBegin.step rfl pairRouter 1 {}
  have hChosen := hChecked.step rfl pairRouter 2 {}
  have hCalled := hChosen.step rfl pairRouter 3 {}
  have hBusy := hCalled.answer rfl pairRouter 10 (.failure (.server 503 "busy"))
  have hCheckedAgain := hBusy.step rfl pairRouter 11 {}
  have hChosenAgain := hCheckedAgain.step rfl pairRouter 12 {}
  have hCalledAgain := hChosenAgain.step rfl pairRouter 13 {}
  have hServed := hCalledAgain.answer rfl pairRouter 20 (.success { payload := .null })
  obtain ⟨hEarlier, _, hOutcome⟩ := hServed.outcome_determined
  exact ⟨_, _, _, _, hServed, rfl, rfl, rfl, hEarlier, (hOutcome _ rfl).1 _ rfl⟩

end Route

end DeploymentRouting
