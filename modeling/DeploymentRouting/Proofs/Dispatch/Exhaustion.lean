import DeploymentRouting.Proofs.Dispatch.Granted
import DeploymentRouting.Proofs.Dispatch.Journal
/-!
Requests that use up all their attempts. A request that is alone on a router, where no deployment
ever rests or refuses a place, and all of whose calls fail in a way that allows another attempt,
makes every attempt that it may make for each model of its chain. So the bound on the attempts of
a request is met. Where it is beyond what a 32-bit counter can hold, the request loses count: what
it reports then is not what it has done.
-/
namespace DeploymentRouting

universe u

namespace HealthRecord

/-- A failure that is free starts no rest. -/
theorem cooldownUntil_add_free {policy : CooldownPolicy}
    (hFree : Counter.top32 ≤ policy.allowedFailures) {record : HealthRecord}
    (hRested : record.cooldownUntil = none) (window : Duration) (outcome : Outcome)
    (now : Instant) : (record.add policy window outcome now).1.cooldownUntil = none := by
  have hNone : ∀ failures, policy.backoff (Counter.add32 failures 1) = none := fun failures =>
    if_pos (Nat.le_trans (Nat.min_le_right _ _) hFree)
  cases outcome <;> simp [add, addFailure, hNone, hRested]

end HealthRecord

/-! ## Routers without rest -/

namespace Router

/-- A router whose deployments are always ready. All their failures are free, and they have neither
limits nor timeouts of their own. Names stand for themselves, and a choice needs no weights. -/
structure Tireless (router : Router) : Prop where
  rested : ∀ id, (router.health.record id).cooldownUntil = none
  free : Counter.top32 ≤ router.health.policy.allowedFailures
  rotates : router.settings.strategy = .roundRobin
  plain : ∀ name, router.registry.resolve name = name
  unlimited : ∀ id deployment, router.registry.get? id = some deployment →
    deployment.limits.isUnlimited = true ∧ deployment.timeout = none

/-- A candidate is registered. -/
theorem exists_get?_of_candidate {router : Router} {name : String} {tier : List Deployment}
    {deployment : Deployment} (hTier : tier ∈ router.registry.candidates name)
    (hMem : deployment ∈ tier) : ∃ id, router.registry.get? id = some deployment := by
  have hCandidate := List.mem_flatten_of_mem hTier hMem
  rw [Registry.candidates_eq, Registry.mem_flatten_tiers] at hCandidate
  obtain ⟨id, _, hFound⟩ := List.mem_filterMap.mp hCandidate
  exact ⟨id, (Option.filter_eq_some_iff.mp hFound).1⟩

/-- A model with a deployment is one that is entered. -/
theorem isEmpty_candidates_of_mem {router : Router} {name : String} {deployment : Deployment}
    (h : deployment ∈ (router.registry.candidates name).flatten) :
    (router.registry.candidates name).isEmpty = false := by
  rw [List.isEmpty_eq_false_iff]
  intro hNone
  rw [hNone] at h
  cases h

namespace Tireless

variable {router after : Router}

/-- It stays so as long as its setup does and nothing rests. -/
theorem of_sameSetup (h : router.Tireless) (hSetup : router.SameSetup after)
    (hPolicy : after.health.policy = router.health.policy)
    (hRested : ∀ id, (after.health.record id).cooldownUntil = none) : after.Tireless where
  rested := hRested
  free := by
    rw [hPolicy]
    exact h.free
  rotates := by
    rw [hSetup.settings]
    exact h.rotates
  plain := by
    rw [hSetup.registry]
    exact h.plain
  unlimited := by
    rw [hSetup.registry]
    exact h.unlimited

/-- What leaves the health alone leaves it without rest. -/
theorem of_health (h : router.Tireless) (hSetup : router.SameSetup after)
    (hHealth : after.health = router.health) : after.Tireless :=
  h.of_sameSetup hSetup (by rw [hHealth]) (by rw [hHealth]; exact h.rested)

/-- So does an outcome, since all failures are free. -/
theorem addOutcome (h : router.Tireless) (id : String) (outcome : Outcome) (now : Instant) :
    (router.addOutcome id outcome now).1.Tireless := by
  refine h.of_sameSetup ⟨rfl, rfl, rfl, rfl⟩ rfl fun other => ?_
  have hRecord := HealthTracker.record_addOutcome router.health id other outcome now
  change ((router.health.addOutcome id outcome now).1.record other).cooldownUntil = none
  rw [hRecord]
  split
  · exact HealthRecord.cooldownUntil_add_free h.free (h.rested _) _ outcome now
  · exact h.rested other

/-- All its candidates can serve at any time, but for those that are left out. -/
theorem canServe (h : router.Tireless) {name : String} {tier : List Deployment}
    {deployment : Deployment} (hTier : tier ∈ router.registry.candidates name)
    (hMem : deployment ∈ tier) {excluded : List String} (hKept : deployment.id ∉ excluded)
    (cost : Nat) (now : Instant) : router.CanServe excluded cost now deployment where
  kept := hKept
  eligible := by
    rw [isEligible, HealthTracker.isEligible_eq, h.rested]
    rfl
  admitted := by
    obtain ⟨id, hRecord⟩ := exists_get?_of_candidate hTier hMem
    rw [Limiter.admits, (h.unlimited id deployment hRecord).1]
    rfl

/-- A rotation chooses whenever there is something to choose. -/
theorem select_cases (h : router.Tireless) (name : String) (excluded : List String) (cost : Nat)
    (now : Instant) (random : RandomSource) :
    (router.select name excluded cost now random).1 = .noneEligible ∨
      ∃ chosen, (router.select name excluded cost now random).1 = .chosen chosen := by
  refine (router.select_decides name excluded cost now random).2.2.1 (fun score hScore => ?_)
    fun hCompares => ?_
  · rw [h.rotates] at hScore
    cases hScore
  · rw [h.rotates] at hCompares
    cases hCompares

/-- Whatever is chosen can be called at any time. -/
theorem timeoutFits (h : router.Tireless) {name : String} {excluded : List String} {cost : Nat}
    {now : Instant} {random : RandomSource} {chosen : Deployment}
    (hChosen : (router.select name excluded cost now random).1 = .chosen chosen)
    (looked : Instant) : chosen.timeoutFits looked = true := by
  obtain ⟨tier, hTier, hMem⟩ := select_chosen hChosen
  obtain ⟨id, hRecord⟩ := exists_get?_of_candidate hTier hMem
  rw [Deployment.timeoutFits, (h.unlimited id chosen hRecord).2]
  rfl

end Tireless

end Router

/-! ## Requests that are alone -/

namespace Dispatch

variable {α : Type u}

/-- A request with nobody else on its router, which is told with the visits of the request, with its
calls that have come to their end, and with the router as the request has left it. -/
inductive Alone (first : Router) (request : Request) :
    Itinerary → List (EndedCall α) → Router → Dispatch α → Prop where
  | begin (now : Instant) :
      Alone first request { current := { model := first.registry.resolve request.model } } [] first
        (begin first request now)
  | step {itinerary : Itinerary} {calls : List (EndedCall α)} {router : Router}
      {dispatch : Dispatch α} (prior : Alone first request itinerary calls router dispatch)
      (hActive : dispatch.isSuspended = false) (now : Instant) (random : RandomSource) :
      Alone first request (itinerary.observe dispatch (dispatch.step router now random).2) calls
        (dispatch.step router now random).1 (dispatch.step router now random).2
  | answer {itinerary : Itinerary} {calls : List (EndedCall α)} {router : Router}
      {dispatch : Dispatch α} {call : PendingCall}
      (prior : Alone first request itinerary calls router dispatch)
      (hCall : dispatch.phase = .calling call) (now : Instant) (ended : CallEnd α) :
      Alone first request itinerary (calls ++ [⟨call, ended, now⟩])
        (dispatch.answer router now ended).1 (dispatch.answer router now ended).2

variable {first router : Router} {request : Request} {itinerary : Itinerary}
  {calls : List (EndedCall α)} {dispatch after : Dispatch α} {maxAttempts : Nat}

/-- Calls that are out. -/
def out (dispatch : Dispatch α) : Nat :=
  match dispatch.phase with
  | .calling _ => 1
  | _ => 0

/-- A step adds to the calls of an itinerary the one that it sends out. -/
theorem length_calls_observe (itinerary : Itinerary) (hStep : StepsTo maxAttempts dispatch after) :
    (itinerary.observe dispatch after).calls.length = itinerary.calls.length + after.out := by
  cases hStep with
  | enter hPhase hAhead =>
      simp [Itinerary.observe, Itinerary.calls, Itinerary.visits, out, hPhase]
  | skip hPhase hAhead =>
      simp [Itinerary.observe, Visit.observe, Itinerary.calls, Itinerary.visits, out, hPhase]
  | call hPhase call hDeployment =>
      simp [Itinerary.observe, Visit.observe, Visit.call, Itinerary.calls, Itinerary.visits, out,
        hPhase]
      omega
  | fail hPhase | usedUp hPhase | overdue hPhase | look hPhase | attempt hPhase
  | secondPass hPhase | noneLeft hPhase | halt hPhase | refused hPhase | strand hPhase =>
      simp [Itinerary.observe, Visit.observe, Visit.begin, Visit.decide, Itinerary.calls,
        Itinerary.visits, out, finish, leave, hPhase]

/-- While a request makes steps no call of it is out. -/
theorem out_of_active (hActive : dispatch.isSuspended = false) : dispatch.out = 0 := by
  unfold isSuspended at hActive
  unfold out
  cases hPhase : dispatch.phase <;> simp_all

/-- The end of a call brings it back. -/
theorem out_of_returnsTo (hReturn : ReturnsTo dispatch after) :
    dispatch.out = 1 ∧ after.out = 0 := by
  cases hReturn with
  | retry hPhase error => exact ⟨by rw [out, hPhase], rfl⟩
  | finish hPhase outcome hReport hBegun => exact ⟨by rw [out, hPhase], rfl⟩

namespace Alone

/-- Nothing that has been set up is changed by the request. -/
theorem setup (h : Alone first request itinerary calls router dispatch) :
    first.SameSetup router := by
  induction h with
  | begin now => exact .refl first
  | step prior hActive now random ih => exact ih.trans (Dispatch.sameSetup_step ..)
  | answer prior hCall now ended ih => exact ih.trans (Dispatch.sameSetup_answer ..)

/-- Nobody comes between the choices of a request that is alone and its places. -/
theorem undisturbed (h : Alone first request itinerary calls router dispatch) :
    dispatch.Undisturbed first.settings router itinerary := by
  induction h with
  | begin now => exact undisturbed_begin rfl request now first
  | step prior hActive now random ih => exact ih.step hActive prior.setup.settings now random
  | answer prior hCall now ended ih => exact ih.answer hCall prior.setup.settings now ended _

/-- Calls are counted when they go out. -/
theorem length_calls (h : Alone first request itinerary calls router dispatch) :
    itinerary.calls.length = calls.length + dispatch.out := by
  induction h with
  | begin now =>
      unfold Dispatch.begin
      dsimp only
      split <;> rfl
  | @step itinerary calls router dispatch prior hActive now random ih =>
      have hStep := stepsTo_step hActive router now random
      rw [length_calls_observe _ hStep, ih, out_of_active hActive, Nat.add_zero]
  | @answer itinerary calls router dispatch call prior hCall now ended ih =>
      obtain ⟨hOut, hBack⟩ := out_of_returnsTo (returnsTo_answer hCall router now ended)
      rw [ih, List.length_append, hOut, hBack]
      rfl

/-- A deployment that is chosen is the next one to be attempted. -/
theorem attempts {looked : Instant} {chosen : Deployment}
    (h : Alone first request itinerary calls router dispatch)
    (hPhase : dispatch.phase = .selecting looked)
    (hChosen : (router.select dispatch.entry dispatch.exclusions dispatch.request.estimate looked
      {}).1 = .chosen chosen) :
    ∃ itinerary, Alone first request itinerary calls
      (router.select dispatch.entry dispatch.exclusions dispatch.request.estimate looked {}).2
      { dispatch with
        phase := .reserving looked chosen
        entryAttempts := dispatch.entryAttempts + 1
        tried := chosen.id :: dispatch.tried } := by
  have hActive : dispatch.isSuspended = false := by rw [isSuspended, hPhase]
  have hNext := h.step hActive looked {}
  simp only [Dispatch.step, hPhase, hChosen] at hNext
  exact ⟨_, hNext⟩

/-- A choice that finds nothing begins the second pass, if more was left out than it had to be. -/
theorem misses {looked : Instant} (h : Alone first request itinerary calls router dispatch)
    (hPhase : dispatch.phase = .selecting looked)
    (hNone : (router.select dispatch.entry dispatch.exclusions dispatch.request.estimate looked
      {}).1 = .noneEligible) (hExclusions : dispatch.exclusions ≠ dispatch.request.excluded) :
    ∃ itinerary, Alone first request itinerary calls
      (router.select dispatch.entry dispatch.exclusions dispatch.request.estimate looked {}).2
      { dispatch with retryPass := true, phase := .checking } := by
  have hActive : dispatch.isSuspended = false := by rw [isSuspended, hPhase]
  have hFirst : (!dispatch.retryPass && !dispatch.tried.isEmpty) = true := by
    refine Bool.of_not_eq_false fun hLast => hExclusions ?_
    exact exclusions_of_noneLeft hLast
  have hNext := h.step hActive looked {}
  simp only [Dispatch.step, hPhase, hNone, withSelection, hFirst, if_true] at hNext
  exact ⟨_, hNext⟩

/-- A deployment that gives its place is called, if the end of the call can be shown. -/
theorem sends {looked : Instant} {chosen : Deployment}
    (h : Alone first request itinerary calls router dispatch)
    (hPhase : dispatch.phase = .reserving looked chosen)
    (hAdmits : router.limiter.admits chosen.id chosen.limits dispatch.request.estimate looked =
      true) (hFits : chosen.timeoutFits looked = true) :
    ∃ itinerary call, Alone first request itinerary calls
      (router.reserve chosen dispatch.request.estimate looked).1
      { dispatch with entryCalls := dispatch.entryCalls + 1, phase := .calling call } := by
  have hActive : dispatch.isSuspended = false := by rw [isSuspended, hPhase]
  obtain ⟨admission, _, hReserve⟩ := dispatch.reserve_of_admits looked hAdmits
  have hNext := h.step hActive looked {}
  simp only [Dispatch.step, hPhase, hReserve, hFits, if_true] at hNext
  exact ⟨_, _, hNext⟩

/-- A call that fails lets the request go on, if its error says so. -/
theorem fails {call : PendingCall} {error : BackendError}
    (h : Alone first request itinerary calls router dispatch)
    (hPhase : dispatch.phase = .calling call) (hRetriable : error.retriable = true)
    (now : Instant) :
    Alone first request itinerary (calls ++ [⟨call, .failure error, now⟩])
      ((router.settle call.admission 0 now).addOutcome call.deployment.id error.outcome now).1
      { dispatch with lastError := some error, phase := .checking } := by
  have hNext := h.answer hPhase now (.failure error)
  simp only [Dispatch.answer, hPhase, Dispatch.fail, hRetriable, if_true] at hNext
  exact hNext

/-- What the request carries along fits the calls that it has made. -/
theorem consistent (h : Alone first request itinerary calls router dispatch) :
    ∃ last, dispatch.Consistent request calls last := by
  induction h with
  | begin now => exact ⟨now, consistent_begin first request now⟩
  | step prior hActive now random ih =>
      obtain ⟨last, hConsistent⟩ := ih
      exact ⟨now, hConsistent.step hActive _ now random⟩
  | answer prior hCall now ended ih =>
      obtain ⟨last, hConsistent⟩ := ih
      exact ⟨now, hConsistent.answer hCall _ now ended⟩

/-- The attempts of a request that is alone are among those that others may come between. -/
theorem course (h : Alone first request itinerary calls router dispatch) :
    ∃ moves, Course (·.settings = first.settings) request moves itinerary dispatch := by
  induction h with
  | begin now => exact ⟨0, .begin first (Eq.refl first.settings) now⟩
  | step prior hActive now random ih =>
      obtain ⟨moves, hCourse⟩ := ih
      exact ⟨moves + 1, hCourse.step hActive _ prior.setup.settings now random⟩
  | answer prior hCall now ended ih =>
      obtain ⟨moves, hCourse⟩ := ih
      exact ⟨moves + 1, hCourse.answer hCall _ prior.setup.settings now ended⟩

/-- A request without a caller is one that its router may serve at once. -/
theorem trace (h : Alone first request itinerary calls router dispatch)
    (hCaller : request.caller = none) :
    ∃ last, Route.Trace request calls last (.ok { callerAdmission := none, dispatch }) := by
  induction h with
  | begin now =>
      have hBegin : Route.Trace request [] now (Route.begin first request now).2 :=
        Route.Trace.begin (α := α) first now
      simp only [Route.begin, Router.reserveCaller, hCaller] at hBegin
      exact ⟨now, hBegin⟩
  | step prior hActive now random ih =>
      obtain ⟨last, hTrace⟩ := ih
      exact ⟨now, hTrace.step hActive _ now random⟩
  | answer prior hCall now ended ih =>
      obtain ⟨last, hTrace⟩ := ih
      exact ⟨now, hTrace.answer hCall _ now ended⟩

end Alone

/-! ## One more attempt -/

/-- A request that is alone, between two attempts for a model, of which it has made some. -/
structure Between (first : Router) (request : Request) (entry : String) (ahead : List String)
    (made : Nat) (calls : List (EndedCall α)) (router : Router) (dispatch : Dispatch α) :
    Prop where
  alone : ∃ itinerary, Alone first request itinerary calls router dispatch
  tireless : router.Tireless
  phase : dispatch.phase = .checking
  request_eq : dispatch.request = request
  entry_eq : dispatch.entry = entry
  ahead_eq : dispatch.ahead = ahead
  made_eq : dispatch.entryAttempts = made

variable {entry : String} {ahead : List String} {made : Nat}

/-- A choice that leaves nothing out finds a deployment for a model that has any. -/
theorem Between.exists_chosen (h : Between first request entry ahead made calls router dispatch)
    {deployment : Deployment}
    (hServes : deployment ∈ (first.registry.candidates entry).flatten)
    (hAll : dispatch.exclusions = []) :
    ∃ chosen, (router.select dispatch.entry dispatch.exclusions dispatch.request.estimate 0
      {}).1 = .chosen chosen := by
  obtain ⟨itinerary, hAlone⟩ := h.alone
  obtain ⟨tier, hTier, hMem⟩ := List.mem_flatten.mp hServes
  rw [← hAlone.setup.registry, ← h.entry_eq, ← h.tireless.plain dispatch.entry] at hTier
  refine (h.tireless.select_cases ..).resolve_left fun hNone => ?_
  exact Router.noneServes_iff.mp hNone tier hTier deployment hMem
    (h.tireless.canServe hTier hMem (by rw [hAll]; exact List.not_mem_nil) _ _)

/-- An attempt is due while some are left. -/
theorem check_of_left {now : Instant} (hLeft : dispatch.entryAttempts < maxAttempts)
    (hTime : dispatch.request.isExpired now = false) :
    dispatch.check maxAttempts now = { dispatch with phase := .selecting now } := by
  simp only [check, Nat.not_le.mpr hLeft, if_false, hTime, Bool.false_eq_true]

/-- While attempts and time are left the request goes on to a choice. -/
theorem Between.looks (h : Between first request entry ahead made calls router dispatch)
    (hLeft : made < first.settings.maxAttempts) (hTime : 0 < request.deadline) :
    ∃ itinerary, Alone first request itinerary calls router
      { dispatch with phase := .selecting 0 } := by
  obtain ⟨itinerary, hAlone⟩ := h.alone
  have hActive : dispatch.isSuspended = false := by rw [isSuspended, h.phase]
  have hLess : dispatch.entryAttempts < router.settings.maxAttempts := by
    rw [h.made_eq, hAlone.setup.settings]
    exact hLeft
  have hAhead : dispatch.request.isExpired 0 = false := by
    rw [h.request_eq]
    exact decide_eq_false (Nat.not_le.mpr hTime)
  have hStep : dispatch.step router 0 {} = (router, { dispatch with phase := .selecting 0 }) := by
    simp only [Dispatch.step, h.phase, check_of_left hLess hAhead]
  have hNext := hAlone.step hActive 0 {}
  rw [hStep] at hNext
  exact ⟨_, hNext⟩

/-- A deployment that is chosen is called, and when the call has failed the request has made one
more attempt. -/
theorem Between.fails (h : Between first request entry ahead made calls router dispatch)
    (hLeft : made < first.settings.maxAttempts) (hTime : 0 < request.deadline)
    {error : BackendError} (hRetriable : error.retriable = true) {chosen : Deployment}
    (hChosen : (router.select dispatch.entry dispatch.exclusions dispatch.request.estimate 0
      {}).1 = .chosen chosen) :
    ∃ (call : EndedCall α) (router : Router) (dispatch : Dispatch α),
      Between first request entry ahead (made + 1) (calls ++ [call]) router dispatch := by
  obtain ⟨_, hLooks⟩ := h.looks hLeft hTime
  obtain ⟨_, hAttempts⟩ := hLooks.attempts rfl hChosen
  obtain ⟨_, call, hSends⟩ := hAttempts.sends rfl (router.admits_of_select_chosen hChosen)
    (h.tireless.timeoutFits hChosen 0)
  have hSelected := h.tireless.of_health (router.sameSetup_select dispatch.entry
    dispatch.exclusions dispatch.request.estimate 0 {}) rfl
  have hReserved := hSelected.of_health (Router.sameSetup_reserve _ chosen
    dispatch.request.estimate 0) rfl
  have hSettled := hReserved.of_health (Router.sameSetup_settle _ call.admission 0 0) rfl
  exact ⟨_, _, _, {
    alone := ⟨_, hSends.fails rfl hRetriable 0⟩
    tireless := hSettled.addOutcome call.deployment.id error.outcome 0
    phase := rfl
    request_eq := h.request_eq
    entry_eq := h.entry_eq
    ahead_eq := h.ahead_eq
    made_eq := congrArg (· + 1) h.made_eq }⟩

/-- Where no deployment is left but those that were tried, the second pass begins. -/
theorem Between.secondPass (h : Between first request entry ahead made calls router dispatch)
    (hLeft : made < first.settings.maxAttempts) (hTime : 0 < request.deadline)
    (hExclusions : dispatch.exclusions ≠ request.excluded)
    (hNone : (router.select dispatch.entry dispatch.exclusions dispatch.request.estimate 0
      {}).1 = .noneEligible) :
    ∃ (router : Router) (dispatch : Dispatch α),
      Between first request entry ahead made calls router dispatch ∧
        dispatch.exclusions = request.excluded := by
  obtain ⟨_, hLooks⟩ := h.looks hLeft hTime
  have hMore : dispatch.exclusions ≠ dispatch.request.excluded := by
    rw [h.request_eq]
    exact hExclusions
  obtain ⟨_, hMissed⟩ := hLooks.misses rfl hNone hMore
  exact ⟨_, _, {
    alone := ⟨_, hMissed⟩
    tireless := h.tireless.of_health (router.sameSetup_select dispatch.entry
      dispatch.exclusions dispatch.request.estimate 0 {}) rfl
    phase := rfl
    request_eq := h.request_eq
    entry_eq := h.entry_eq
    ahead_eq := h.ahead_eq
    made_eq := h.made_eq }, congrArg Request.excluded h.request_eq⟩

/-- While attempts are left one more is made, if the model has a deployment. -/
theorem Between.attempt (h : Between first request entry ahead made calls router dispatch)
    (hLeft : made < first.settings.maxAttempts) (hTime : 0 < request.deadline)
    (hExcluded : request.excluded = []) {error : BackendError} (hRetriable : error.retriable = true)
    {deployment : Deployment} (hServes : deployment ∈ (first.registry.candidates entry).flatten) :
    ∃ (call : EndedCall α) (router : Router) (dispatch : Dispatch α),
      Between first request entry ahead (made + 1) (calls ++ [call]) router dispatch := by
  have hOpen : ∀ {router : Router} {dispatch : Dispatch α},
      Between first request entry ahead made calls router dispatch →
      dispatch.exclusions = request.excluded →
      ∃ (call : EndedCall α) (router : Router) (dispatch : Dispatch α),
        Between first request entry ahead (made + 1) (calls ++ [call]) router dispatch := by
    intro router dispatch hBetween hExclusions
    obtain ⟨chosen, hChosen⟩ :=
      hBetween.exists_chosen hServes (hExclusions.trans hExcluded)
    exact hBetween.fails hLeft hTime hRetriable hChosen
  -- A second pass is begun once at most, so that the first look that finds nothing is the only one.
  by_cases hExclusions : dispatch.exclusions = request.excluded
  · exact hOpen h hExclusions
  · rcases h.tireless.select_cases dispatch.entry dispatch.exclusions dispatch.request.estimate 0
      {} with hNone | ⟨chosen, hChosen⟩
    · obtain ⟨_, _, hSecond, hAll⟩ := h.secondPass hLeft hTime hExclusions hNone
      exact hOpen hSecond hAll
    · exact h.fails hLeft hTime hRetriable hChosen

/-- All attempts that are left for a model are made. -/
theorem Between.attempts (h : Between first request entry ahead made calls router dispatch)
    (hTime : 0 < request.deadline) (hExcluded : request.excluded = []) {error : BackendError}
    (hRetriable : error.retriable = true) {deployment : Deployment}
    (hServes : deployment ∈ (first.registry.candidates entry).flatten) (more : Nat)
    (hLeft : made + more ≤ first.settings.maxAttempts) :
    ∃ (later : List (EndedCall α)) (router : Router) (dispatch : Dispatch α),
      later.length = more ∧
        Between first request entry ahead (made + more) (calls ++ later) router dispatch := by
  induction more with
  | zero => exact ⟨[], router, dispatch, rfl, (List.append_nil calls).symm ▸ h⟩
  | succ more ih =>
      obtain ⟨later, router, dispatch, hLength, hBetween⟩ := ih (Nat.le_of_succ_le hLeft)
      obtain ⟨call, router, dispatch, hNext⟩ :=
        hBetween.attempt hLeft hTime hExcluded hRetriable hServes
      refine ⟨later ++ [call], router, dispatch, ?_, ?_⟩
      · rw [List.length_append, hLength]
        rfl
      · rw [← List.append_assoc]
        exact hNext

/-! ## From model to model -/

/-- After the last attempt for a model the request leaves it. -/
theorem Between.leaves (h : Between first request entry ahead made calls router dispatch)
    (hUsedUp : first.settings.maxAttempts ≤ made) :
    ∃ itinerary, Alone first request itinerary calls router dispatch.leave := by
  obtain ⟨_, hAlone⟩ := h.alone
  have hActive : dispatch.isSuspended = false := by rw [isSuspended, h.phase]
  have hNoneLeft : router.settings.maxAttempts ≤ dispatch.entryAttempts := by
    rw [h.made_eq, hAlone.setup.settings]
    exact hUsedUp
  have hNext := hAlone.step hActive 0 {}
  simp only [Dispatch.step, h.phase, check, hNoneLeft, if_true] at hNext
  exact ⟨_, hNext⟩

/-- It goes on with the next model that has a deployment, for which it has made no attempt. -/
theorem Between.enters {model : String}
    (h : Between first request entry (model :: ahead) made calls router dispatch)
    (hUsedUp : first.settings.maxAttempts ≤ made) {deployment : Deployment}
    (hServes : deployment ∈ (first.registry.candidates model).flatten) :
    ∃ dispatch : Dispatch α, Between first request model ahead 0 calls router dispatch := by
  obtain ⟨_, hLeft⟩ := h.leaves hUsedUp
  have hSome : (router.registry.candidates model).isEmpty = false := by
    rw [hLeft.setup.registry]
    exact Router.isEmpty_candidates_of_mem hServes
  have hNext := hLeft.step rfl 0 {}
  simp only [Dispatch.step, Dispatch.leave, Dispatch.enter, h.ahead_eq, hSome,
    Bool.false_eq_true, if_false] at hNext
  exact ⟨_, {
    alone := ⟨_, hNext⟩
    tireless := h.tireless
    phase := rfl
    request_eq := h.request_eq
    entry_eq := rfl
    ahead_eq := rfl
    made_eq := rfl }⟩

/-- So in the end all attempts have been made for all models ahead. -/
theorem Between.exhausts (h : Between first request entry ahead 0 calls router dispatch)
    (hTime : 0 < request.deadline) (hExcluded : request.excluded = []) {error : BackendError}
    (hRetriable : error.retriable = true)
    (hServes : ∀ model ∈ entry :: ahead,
      ∃ deployment, deployment ∈ (first.registry.candidates model).flatten) :
    ∃ (entry : String) (later : List (EndedCall α)) (router : Router) (dispatch : Dispatch α),
      later.length = first.settings.maxAttempts * (ahead.length + 1) ∧
        Between first request entry [] first.settings.maxAttempts (calls ++ later) router
          dispatch := by
  induction ahead generalizing entry calls router dispatch with
  | nil =>
      obtain ⟨deployment, hDeployment⟩ := hServes entry List.mem_cons_self
      obtain ⟨later, router, dispatch, hLength, hBetween⟩ := h.attempts hTime hExcluded hRetriable
        hDeployment first.settings.maxAttempts (Nat.le_of_eq (Nat.zero_add _))
      rw [Nat.zero_add] at hBetween
      exact ⟨entry, later, router, dispatch, by rw [hLength]; exact (Nat.mul_one _).symm, hBetween⟩
  | cons model ahead ih =>
      obtain ⟨deployment, hDeployment⟩ := hServes entry List.mem_cons_self
      obtain ⟨here, router, dispatch, hHere, hBetween⟩ := h.attempts hTime hExcluded hRetriable
        hDeployment first.settings.maxAttempts (Nat.le_of_eq (Nat.zero_add _))
      obtain ⟨next, hNext⟩ := hServes model (List.mem_cons_of_mem entry List.mem_cons_self)
      obtain ⟨dispatch, hEntered⟩ := hBetween.enters (Nat.le_of_eq (Nat.zero_add _).symm) hNext
      obtain ⟨last, later, router, dispatch, hLater, hDone⟩ :=
        ih hEntered fun other hOther => hServes other (List.mem_cons_of_mem entry hOther)
      refine ⟨last, here ++ later, router, dispatch, ?_, ?_⟩
      · rw [List.length_append, hHere, hLater, List.length_cons, Nat.mul_add_one]
        exact Nat.add_comm _ _
      · rw [← List.append_assoc]
        exact hDone

/-- A request that has nothing left to try ends, and its counters say how. -/
theorem Between.ends (h : Between first request entry [] made calls router dispatch)
    (hUsedUp : first.settings.maxAttempts ≤ made) :
    ∃ (itinerary : Itinerary) (dispatch : Dispatch α) (lastError : Option BackendError),
      Alone first request itinerary calls router dispatch ∧
        itinerary.attempts = calls.length ∧
        dispatch.phase = .finished (.error (
          if 0 < Counter.wrap32 calls.length then
            .retriesExhausted request.model (Counter.wrap32 calls.length) lastError
          else .allUnavailable request.model)) := by
  obtain ⟨_, hLeft⟩ := h.leaves hUsedUp
  -- The calls that the request counts are those that have ended, for none is out.
  obtain ⟨_, hConsistent⟩ := hLeft.consistent
  have hCalls : dispatch.leave.calls = Counter.wrap32 calls.length := hConsistent.2.2
  have hNext := hLeft.step rfl 0 {}
  have hStep : dispatch.leave.step router 0 {} = (router, dispatch.leave.finish (.error (
      if 0 < Counter.wrap32 calls.length then
        .retriesExhausted request.model dispatch.leave.attempts dispatch.lastError
      else .allUnavailable request.model))) := by
    rw [← hCalls, ← h.request_eq]
    simp only [Dispatch.step, Dispatch.leave, Dispatch.enter, h.ahead_eq]
  rw [hStep] at hNext
  have hMade := hNext.length_calls
  refine ⟨_, _, dispatch.lastError, hNext, hNext.undisturbed.granted.attempts_eq.trans hMade, ?_⟩
  by_cases hCounted : 0 < Counter.wrap32 calls.length
  · obtain ⟨hReported, _⟩ := hNext.undisturbed.reported rfl (by rw [if_pos hCounted]; rfl)
    have hAttempts : dispatch.leave.attempts = Counter.wrap32 calls.length := by
      rw [hReported, hMade]
      rfl
    simp only [finish, hCounted, if_true, hAttempts]
  · simp only [finish, hCounted, if_false]

/-- A request with time that is alone on a router without rest, with a deployment for each model of
its chain, makes all the attempts that it may make if all its calls fail in a way that allows
another one. Each attempt is a call. The outcome depends on what a 32-bit counter shows of their
number. -/
theorem Alone.exhausts (hTireless : first.Tireless) (hTime : 0 < request.deadline)
    (hExcluded : request.excluded = []) {error : BackendError} (hRetriable : error.retriable = true)
    (hServes : ∀ model ∈ first.fallbacks.chain request.model first.settings.maxFallbackDepth,
      ∃ deployment, deployment ∈ (first.registry.candidates model).flatten) :
    ∃ (itinerary : Itinerary) (calls : List (EndedCall α)) (router : Router)
      (dispatch : Dispatch α) (lastError : Option BackendError),
      Alone first request itinerary calls router dispatch ∧
        calls.length = first.settings.maxAttempts *
          (first.fallbacks.chain request.model first.settings.maxFallbackDepth).length ∧
        itinerary.attempts = calls.length ∧
        dispatch.phase = .finished (.error (
          if 0 < Counter.wrap32 calls.length then
            .retriesExhausted request.model (Counter.wrap32 calls.length) lastError
          else .allUnavailable request.model)) := by
  have hChain := first.fallbacks.chain_eq_cons request.model first.settings.maxFallbackDepth
  obtain ⟨deployment, hDeployment⟩ :=
    hServes request.model (by rw [hChain]; exact List.mem_cons_self)
  have hSome := Router.isEmpty_candidates_of_mem hDeployment
  have hBetween : Between (α := α) first request request.model
      (first.fallbacks.chain request.model first.settings.maxFallbackDepth).tail 0 [] first
      { request, start := 0, entry := request.model, phase := .checking
        ahead :=
          (first.fallbacks.chain request.model first.settings.maxFallbackDepth).tail } := {
    alone := by
      have hBegin : Alone first request
          { current := { model := first.registry.resolve request.model } } [] first
          (Dispatch.begin first request 0 : Dispatch α) := Alone.begin 0
      simp only [Dispatch.begin, hTireless.plain, hSome, Bool.false_eq_true, if_false] at hBegin
      exact ⟨_, hBegin⟩
    tireless := hTireless
    phase := rfl
    request_eq := rfl
    entry_eq := rfl
    ahead_eq := rfl
    made_eq := rfl }
  obtain ⟨_, calls, router, dispatch, hLength, hLast⟩ :=
    hBetween.exhausts hTime hExcluded hRetriable (hChain ▸ hServes)
  obtain ⟨itinerary, dispatch, lastError, hAlone, hAttempts, hPhase⟩ := hLast.ends (Nat.le_refl _)
  rw [List.nil_append] at hAlone hAttempts hPhase
  exact ⟨itinerary, calls, router, dispatch, lastError, hAlone, by rw [hChain]; exact hLength,
    hAttempts, hPhase⟩

/-- A router with one deployment for each of two models, where failures start no rest. The second
model is the fallback of the first. -/
def twoModelRouter (maxAttempts : Nat) : Router :=
  { Router.new { strategy := .roundRobin, maxAttempts, allowedFails := Counter.top32 } with
    registry :=
      { records :=
          Table.ofList
            [("d1", pairDeployment "d1"),
              ("d2", { pairDeployment "d2" with modelNames := ["n"] })]
        index := Table.ofList [("m", ["d1"]), ("n", ["d2"])] }
    fallbacks := Fallbacks.set {} "m" ["n"] }

/-- Neither of its deployments ever rests. -/
theorem tireless_twoModelRouter (maxAttempts : Nat) : (twoModelRouter maxAttempts).Tireless where
  rested id := rfl
  free := Nat.le_refl _
  rotates := rfl
  plain name := rfl
  unlimited id deployment hRecord := by
    have hFound : ((Table.ofList [("d1", pairDeployment "d1"),
        ("d2", { pairDeployment "d2" with modelNames := ["n"] })]).get? id) = some deployment :=
      hRecord
    simp only [Table.ofList, List.foldl, Table.get?_insert, Table.get?_empty] at hFound
    split at hFound
    · cases hFound
      exact ⟨rfl, rfl⟩
    · split at hFound
      · cases hFound
        exact ⟨rfl, rfl⟩
      · cases hFound

/-- On that router a request for the first model makes all the attempts for both of them. -/
theorem exhausts_twoModelRouter (maxAttempts : Nat) :
    ∃ (itinerary : Itinerary) (calls : List (EndedCall Response)) (router : Router)
      (dispatch : Dispatch Response) (lastError : Option BackendError),
      Alone (twoModelRouter maxAttempts) Route.pairRequest itinerary calls router dispatch ∧
        calls.length = maxAttempts * 2 ∧ itinerary.attempts = calls.length ∧
        dispatch.phase = .finished (.error (
          if 0 < Counter.wrap32 calls.length then
            .retriesExhausted "m" (Counter.wrap32 calls.length) lastError
          else .allUnavailable "m")) := by
  have hBusy : (BackendError.server 503 "busy").retriable = true := rfl
  refine Alone.exhausts (tireless_twoModelRouter maxAttempts) (by decide) rfl hBusy
    fun model hModel => ?_
  have hEither : model ∈ ["m", "n"] := hModel
  rcases List.mem_cons.mp hEither with rfl | hSecond
  · exact ⟨_, List.mem_of_getElem? (i := 0) rfl⟩
  · cases List.mem_singleton.mp hSecond
    exact ⟨_, List.mem_of_getElem? (i := 0) rfl⟩

end Dispatch

/-- After as many calls as a 32-bit counter has values the counter shows none. All calls have failed
in a way that allows another attempt, and the request is told that there was nobody to call. -/
theorem Route.Trace.unavailable_after_calls :
    (Dispatch.twoModelRouter 2147483648).settings.fault? = none ∧
      ∃ (calls : List (EndedCall Response)) (last : Instant)
        (stage : Except RoutingError (Route Response)),
        Trace pairRequest calls last stage ∧ calls.length = 4294967296 ∧
        outcome? stage = some (.error (.allUnavailable "m")) := by
  obtain ⟨_, calls, _, dispatch, _, hAlone, hLength, _, hPhase⟩ :=
    Dispatch.exhausts_twoModelRouter 2147483648
  obtain ⟨last, hTrace⟩ := hAlone.trace rfl
  rw [hLength] at hPhase
  exact ⟨rfl, calls, last, _, hTrace, hLength, by rw [outcome?, hPhase]; rfl⟩

namespace Dispatch

/-- A request that has begun two attempts more than that reports two. -/
theorem Course.loses_count :
    (twoModelRouter 2147483649).settings.fault? = none ∧
      ∃ (moves : Nat) (itinerary : Itinerary) (dispatch : Dispatch Response)
        (lastError : Option BackendError),
        Course (·.settings = (twoModelRouter 2147483649).settings) Route.pairRequest moves itinerary
          dispatch ∧
        dispatch.phase = .finished (.error (.retriesExhausted "m" 2 lastError)) ∧
        itinerary.attempts = 4294967298 := by
  obtain ⟨itinerary, _, _, dispatch, lastError, hAlone, hLength, hAttempts, hPhase⟩ :=
    exhausts_twoModelRouter 2147483649
  obtain ⟨moves, hCourse⟩ := hAlone.course
  rw [hLength] at hPhase hAttempts
  exact ⟨rfl, moves, itinerary, dispatch, lastError, hCourse, hPhase, hAttempts⟩

end Dispatch

end DeploymentRouting
