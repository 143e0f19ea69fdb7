import DeploymentRouting.Proofs.Dispatch.Accounts
/-!
Requests in time. The clock goes on while a request makes its steps and while it waits for its
calls, and a timer ends every call that is not ready at its deadline. What the steps themselves
take is counted apart, and by no more than that does a request outlast its deadline: no call
begins after it, none lasts longer, and whatever attempts and models are left, a call that is cut
off there is the last one. Where steps take no time all of this is exact. Only a request that ends
the whole program has no end in time, as one does whose deployment has a timeout beyond the last
instant of the clock.
-/
namespace DeploymentRouting

universe u

namespace Deployment

variable (deployment : Deployment) (latest now : Instant)

/-- A call is given no more time than its request has. -/
theorem callDeadline_le : deployment.callDeadline latest now ≤ latest := by
  unfold callDeadline
  split
  · exact Nat.min_le_left _ _
  · exact Nat.le_refl _

/-- It is given an end that is still to come. -/
theorem le_callDeadline (hNow : now ≤ latest) : now ≤ deployment.callDeadline latest now := by
  unfold callDeadline
  split
  · exact Nat.le_min.mpr ⟨hNow, Nat.le_add_right _ _⟩
  · exact hNow

/-- A timeout does not fit if it would end after the last instant. -/
theorem timeoutFits_eq_false_iff :
    deployment.timeoutFits now = false ↔
      ∃ timeout, deployment.timeout = some timeout ∧ Instant.last < now + timeout := by
  unfold timeoutFits
  cases deployment.timeout <;> simp

/-- One that does not fit at an instant does not fit later. -/
theorem timeoutFits_later {later : Instant} (hClock : now ≤ later)
    (hTimeout : deployment.timeoutFits now = false) : deployment.timeoutFits later = false := by
  obtain ⟨timeout, hSome, hOver⟩ := (timeoutFits_eq_false_iff deployment now).mp hTimeout
  exact (timeoutFits_eq_false_iff deployment later).mpr
    ⟨timeout, hSome, Nat.lt_of_lt_of_le hOver (Nat.add_le_add_right hClock timeout)⟩

/-- Nor is it given more than the timeout of its deployment. -/
theorem callDeadline_le_timeout {timeout : Duration}
    (hTimeout : deployment.timeout = some timeout) :
    deployment.callDeadline latest now ≤ now + timeout := by
  simp only [callDeadline, hTimeout]
  exact Nat.min_le_right _ _

end Deployment

/-- What goes by since an instant is added to what was worked. -/
theorem le_add_worked {instant now limit : Instant} {worked : Duration}
    (hInstant : instant ≤ limit + worked) (hClock : instant ≤ now) :
    now ≤ limit + (worked + (now - instant)) := by
  calc now = instant + (now - instant) := (Nat.add_sub_of_le hClock).symm
    _ ≤ limit + worked + (now - instant) := Nat.add_le_add_right hInstant _
    _ = limit + (worked + (now - instant)) := Nat.add_assoc _ _ _

namespace PendingCall

/-- Whether a call can come to this end at an instant. The timer looks at the call first, so one
that is ready at its deadline returns, and so does one that is ready at once. Any other is cut off
at its deadline, or at once if that has passed. -/
def EndsAt {α : Type u} (call : PendingCall) (instant : Instant) : CallEnd α → Prop
  | .success _ | .failure _ => instant ≤ max call.start call.deadline
  | .cutOff => instant = max call.start call.deadline

/-- A call that keeps to the deadline of its request, but for the time that steps have taken, and
to the timeout of its deployment. -/
structure InTime (latest : Instant) (worked : Duration) (call : PendingCall) : Prop where
  start : call.start < latest + worked
  start_le : call.start ≤ call.deadline + worked
  deadline : call.deadline ≤ latest
  timeout : ∀ timeout, call.deployment.timeout = some timeout →
    call.deadline ≤ call.start + timeout

variable {latest : Instant} {worked : Duration} {call : PendingCall}

/-- More time for the steps does no harm. -/
theorem InTime.later {more : Duration} (h : call.InTime latest worked) (hMore : worked ≤ more) :
    call.InTime latest more where
  start := Nat.lt_of_lt_of_le h.start (Nat.add_le_add_left hMore _)
  start_le := Nat.le_trans h.start_le (Nat.add_le_add_left hMore _)
  deadline := h.deadline
  timeout := h.timeout

/-- However a call ends, it ends in time. -/
theorem EndsAt.le {α : Type u} {instant : Instant} {ended : CallEnd α}
    (h : call.EndsAt instant ended) (hInTime : call.InTime latest worked) :
    instant ≤ call.deadline + worked := by
  have hMax : max call.start call.deadline ≤ call.deadline + worked :=
    Nat.max_le.mpr ⟨hInTime.start_le, Nat.le_add_right _ _⟩
  cases ended with
  | success value => exact Nat.le_trans h hMax
  | failure error => exact Nat.le_trans h hMax
  | cutOff => exact h ▸ hMax

end PendingCall

namespace Dispatch

variable {α : Type u} {dispatch after : Dispatch α} {maxAttempts : Nat}

/-- A step leaves the request itself as it is. -/
theorem request_stepsTo (hStep : StepsTo maxAttempts dispatch after) :
    after.request = dispatch.request := by
  cases hStep <;> rfl

theorem request_returnsTo (hReturn : ReturnsTo dispatch after) :
    after.request = dispatch.request := by
  cases hReturn <;> rfl

/-- A request that is suspended waits for a call, or is done, or the program has ended. -/
theorem suspended_cases (hSuspended : dispatch.isSuspended = true) :
    (∃ call, dispatch.phase = .calling call) ∨ (∃ outcome, dispatch.phase = .finished outcome) ∨
      ∃ stranded, dispatch.phase = .halted stranded := by
  unfold isSuspended at hSuspended
  cases hPhase : dispatch.phase <;> simp_all

/-- What the clock shows at each place that a request can be at. The last look at the clock was
before the deadline, and what has passed since then is the time that steps have taken. A call is
not made only if its timeout does not fit. -/
def OnClock (latest : Instant) (worked : Duration) (last : Instant) (dispatch : Dispatch α) :
    Prop :=
  match dispatch.phase with
  | .selecting looked | .reserving looked _ =>
      looked < latest ∧ looked ≤ last ∧ last ≤ looked + worked
  | .calling call => call.InTime latest worked ∧ last = call.start
  | .halted (some (deployment, _)) => deployment.timeoutFits last = false
  | .entering | .checking | .finished _ | .halted none => True

variable {latest looked last now : Instant} {worked : Duration}

/-- A request begins on the clock. -/
theorem onClock_begin (router : Router) (request : Request) (now : Instant) :
    (begin router request now : Dispatch α).OnClock latest worked last := by
  simp only [begin]
  split <;> trivial

/-- It enters a model whatever time it is. -/
theorem onClock_enter (router : Router) (hPhase : dispatch.phase = .entering) :
    (dispatch.enter router).OnClock latest worked last := by
  unfold Dispatch.enter
  split
  · trivial
  · split
    · simp only [OnClock, hPhase]
    · trivial

/-- A look at the clock lets a request go on only before its deadline. -/
theorem onClock_check (maxAttempts : Nat) (now : Instant) (worked : Duration) :
    (dispatch.check maxAttempts now).OnClock dispatch.request.deadline worked now := by
  unfold Dispatch.check
  split
  · trivial
  · split
    next => trivial
    next hAhead =>
      have hBefore : now < dispatch.request.deadline := by
        simpa [Request.isExpired] using hAhead
      exact ⟨hBefore, Nat.le_refl _, Nat.le_add_right _ _⟩

/-- A choice takes over the instant of the look before it. -/
theorem onClock_withSelection (selection : Selection) (hBefore : looked < latest)
    (hClock : looked ≤ last) (hWorked : last ≤ looked + worked) :
    (dispatch.withSelection looked selection).OnClock latest worked last := by
  cases selection with
  | chosen deployment => exact ⟨hBefore, hClock, hWorked⟩
  | noneEligible =>
      simp only [Dispatch.withSelection]
      split <;> trivial
  | overflow => trivial

/-- The deadline of a call goes by the last look at the clock, and its start by the present. -/
theorem inTime_call (deployment : Deployment) (admission : Admission) (hBefore : looked < latest)
    (hClock : looked ≤ now) (hWorked : now ≤ looked + worked) :
    PendingCall.InTime latest worked
      { deployment, admission, start := now
        deadline := deployment.callDeadline latest looked } where
  start := Nat.lt_of_le_of_lt hWorked (Nat.add_lt_add_right hBefore worked)
  start_le := Nat.le_trans hWorked
    (Nat.add_le_add_right (deployment.le_callDeadline latest looked (Nat.le_of_lt hBefore)) worked)
  deadline := deployment.callDeadline_le latest looked
  timeout timeout hTimeout :=
    Nat.le_trans (deployment.callDeadline_le_timeout latest looked hTimeout)
      (Nat.add_le_add_right hClock timeout)

/-- A call that is sent begins when its request has time left. -/
theorem onClock_reserve (router : Router) (deployment : Deployment)
    (hBefore : looked < dispatch.request.deadline) (hClock : looked ≤ now)
    (hWorked : now ≤ looked + worked) :
    (dispatch.reserve router now looked deployment).2.OnClock dispatch.request.deadline worked
      now := by
  obtain ⟨_, _, _, hReserve⟩ | ⟨_, admission, _, _, hReserve⟩ | ⟨_, _, _, hTimeout, hReserve⟩ :=
    dispatch.reserve_cases router now looked deployment
  all_goals rw [hReserve]
  · trivial
  · exact ⟨inTime_call deployment admission hBefore hClock hWorked, rfl⟩
  · exact deployment.timeoutFits_later looked hClock hTimeout

/-- Whatever time a step takes counts as worked. -/
theorem OnClock.step (h : dispatch.OnClock dispatch.request.deadline worked last)
    (hActive : dispatch.isSuspended = false) (hClock : last ≤ now) (router : Router)
    (random : RandomSource) :
    (dispatch.step router now random).2.OnClock dispatch.request.deadline
      (worked + (now - last)) now := by
  unfold Dispatch.step
  cases hPhase : dispatch.phase with
  | entering => exact onClock_enter router hPhase
  | checking => exact onClock_check router.settings.maxAttempts now _
  | selecting looked =>
      simp only [OnClock, hPhase] at h
      exact onClock_withSelection _ h.1 (Nat.le_trans h.2.1 hClock) (le_add_worked h.2.2 hClock)
  | reserving looked deployment =>
      simp only [OnClock, hPhase] at h
      exact onClock_reserve router deployment h.1 (Nat.le_trans h.2.1 hClock)
        (le_add_worked h.2.2 hClock)
  | calling call => simp [isSuspended, hPhase] at hActive
  | finished outcome => simp [isSuspended, hPhase] at hActive
  | halted stranded => simp [isSuspended, hPhase] at hActive

/-- When a call has come back no other one is out. -/
theorem onClock_returnsTo (hReturn : ReturnsTo dispatch after) :
    after.OnClock latest worked last := by
  cases hReturn <;> trivial

/-- A call that is cut off when the time of its request is over ends the request. -/
theorem answer_cutOff_expired {call : PendingCall} (hCall : dispatch.phase = .calling call)
    (hExpired : dispatch.request.deadline ≤ now) (router : Router) :
    (dispatch.answer router now .cutOff).2.phase =
      .finished (.error
        (.deadlineExceeded dispatch.request.model dispatch.totalAttempts)) := by
  have hOver : dispatch.request.isExpired now = true := decide_eq_true hExpired
  simp only [answer, hCall, cutOff, hOver, if_true, finish]

end Dispatch

namespace Route

variable {α : Type u}

/-- A request on the clock, from the instant that it begins. It is told with its moves so far,
the time that steps have taken, the calls that have come to their end, the instant of the last
move and where it is. A router may be another one at each move, as others act on it in between,
but its settings stay. Any time that goes by between two moves is worked, but for that spent
waiting for a call, and a call comes to its end when its timer lets it. -/
inductive Timed (settings : Settings) (request : Request) (begun : Instant) :
    Nat → Duration → List (EndedCall α) → Instant → Except RoutingError (Route α) → Prop where
  | begin (router : Router) (hSettings : router.settings = settings) :
      Timed settings request begun 0 0 [] begun (Route.begin router request begun).2
  | step {moves : Nat} {worked : Duration} {calls : List (EndedCall α)} {last : Instant}
      {route : Route α} (prior : Timed settings request begun moves worked calls last (.ok route))
      (hActive : route.dispatch.isSuspended = false)
      (router : Router) (hSettings : router.settings = settings)
      (now : Instant) (hClock : last ≤ now) (random : RandomSource) :
      Timed settings request begun (moves + 1) (worked + (now - last)) calls now
        (.ok { route with dispatch := (route.dispatch.step router now random).2 })
  | answer {moves : Nat} {worked : Duration} {calls : List (EndedCall α)} {last : Instant}
      {route : Route α} {call : PendingCall}
      (prior : Timed settings request begun moves worked calls last (.ok route))
      (hCall : route.dispatch.phase = .calling call)
      (router : Router) (hSettings : router.settings = settings)
      (instant : Instant) (ended : CallEnd α) (hEnds : call.EndsAt instant ended)
      (hWaited : last ≤ instant) (now : Instant) (hClock : instant ≤ now) :
      Timed settings request begun (moves + 1) (worked + (now - instant))
        (calls ++ [⟨call, ended, now⟩]) now
        (.ok { route with dispatch := (route.dispatch.answer router now ended).2 })

/-- A request that keeps its time. -/
structure Punctual (request : Request) (begun : Instant) (worked : Duration)
    (calls : List (EndedCall α)) (last : Instant) (stage : Except RoutingError (Route α)) :
    Prop where
  /-- Every call that has come to its end was in time, and so was its end. -/
  ended : ∀ call ∈ calls, call.call.InTime request.deadline worked ∧
    call.instant ≤ call.call.deadline + worked
  /-- The request that begins before its deadline goes on no longer. -/
  bounded : begun < request.deadline → last ≤ request.deadline + worked
  /-- After a call that was cut off with the request out of time there is none. -/
  overdue : ∀ earlier call later, calls = earlier ++ call :: later → call.ended = .cutOff →
    request.deadline ≤ call.instant → later = [] ∧
      ∃ attempts, outcome? stage = some (.error (.deadlineExceeded request.model attempts))
  place : ∀ route, stage = .ok route → route.dispatch.request = request ∧
    route.dispatch.OnClock request.deadline worked last

variable {settings : Settings} {request : Request} {begun last : Instant} {moves : Nat}
  {worked : Duration} {calls : List (EndedCall α)} {stage : Except RoutingError (Route α)}

/-- A request that its caller has a place for begins on a router of the same settings. -/
theorem begin_ok {router : Router} {now : Instant} {route : Route α}
    (hBegin : (begin router request now).2 = .ok route) :
    ∃ after : Router, after.settings = router.settings ∧
      route.dispatch = Dispatch.begin after request now := by
  have hSetup := router.sameSetup_reserveCaller request now
  unfold begin at hBegin
  split at hBegin
  next => cases hBegin
  next hReserve =>
    rw [hReserve] at hSetup
    cases hBegin
    exact ⟨_, hSetup.settings, rfl⟩

/-- The moves of a request on the clock are those of a course. One whose caller is refused makes
none. -/
theorem Timed.course (h : Timed settings request begun moves worked calls last stage) :
    (∀ route, stage = .ok route → ∃ itinerary,
        Dispatch.Course (·.settings = settings) request moves itinerary route.dispatch) ∧
      ∀ error, stage = .error error → moves = 0 := by
  induction h with
  | begin router hSettings =>
      refine ⟨fun route hRoute => ?_, fun error hError => rfl⟩
      obtain ⟨after, hAfter, hDispatch⟩ := begin_ok hRoute
      rw [hDispatch]
      exact ⟨_, .begin after (hAfter.trans hSettings) begun⟩
  | step prior hActive router hSettings now hClock random ih =>
      obtain ⟨itinerary, hCourse⟩ := ih.1 _ rfl
      refine ⟨fun route hRoute => ?_, fun error hError => by cases hError⟩
      cases hRoute
      exact ⟨_, hCourse.step hActive router hSettings now random⟩
  | answer prior hCall router hSettings instant ended hEnds hWaited now hClock ih =>
      obtain ⟨itinerary, hCourse⟩ := ih.1 _ rfl
      refine ⟨fun route hRoute => ?_, fun error hError => by cases hError⟩
      cases hRoute
      exact ⟨_, hCourse.answer hCall router hSettings now ended⟩

/-- A request that begins is punctual. -/
theorem punctual_begin (router : Router) :
    Punctual request begun 0 [] begun (begin (α := α) router request begun).2 where
  ended call hCall := absurd hCall List.not_mem_nil
  bounded hBegun := Nat.le_of_lt hBegun
  overdue earlier call later hCalls :=
    absurd hCalls.symm (List.append_ne_nil_of_right_ne_nil earlier (List.cons_ne_nil call later))
  place route hRoute := by
    obtain ⟨after, _, hDispatch⟩ := begin_ok hRoute
    rw [hDispatch]
    refine ⟨?_, Dispatch.onClock_begin after request begun⟩
    simp only [Dispatch.begin]
    split <;> rfl

/-- What was worked in the meantime leaves the calls in time. -/
theorem Punctual.ended_later (h : Punctual request begun worked calls last stage)
    {more : Duration} (hMore : worked ≤ more) (call : EndedCall α) (hCall : call ∈ calls) :
    call.call.InTime request.deadline more ∧ call.instant ≤ call.call.deadline + more :=
  ⟨(h.ended call hCall).1.later hMore,
    Nat.le_trans (h.ended call hCall).2 (Nat.add_le_add_left hMore _)⟩

/-- A request that goes on has had no call cut off with its time over. -/
theorem Punctual.not_overdue (h : Punctual request begun worked calls last stage)
    (hNone : outcome? stage = none) {call : EndedCall α} (hCall : call ∈ calls)
    (hCutOff : call.ended = .cutOff) : call.instant < request.deadline := by
  obtain ⟨earlier, later, hCalls⟩ := List.append_of_mem hCall
  refine Nat.lt_of_not_le fun hOver => ?_
  obtain ⟨_, attempts, hOutcome⟩ := h.overdue earlier call later hCalls hCutOff hOver
  cases hNone.symm.trans hOutcome

theorem outcome?_of_active {route : Route α} (hActive : route.dispatch.isSuspended = false) :
    outcome? (.ok route) = none := by
  unfold Dispatch.isSuspended at hActive
  unfold outcome?
  cases hPhase : route.dispatch.phase <;> simp_all

theorem outcome?_of_calling {route : Route α} {call : PendingCall}
    (hCall : route.dispatch.phase = .calling call) : outcome? (.ok route) = none := by
  simp only [outcome?, hCall]

/-- It stays punctual with a step at any later instant. -/
theorem Punctual.step {route : Route α} {now : Instant}
    (h : Punctual request begun worked calls last (.ok route))
    (hActive : route.dispatch.isSuspended = false) (hClock : last ≤ now) (router : Router)
    (random : RandomSource) :
    Punctual request begun (worked + (now - last)) calls now
      (.ok { route with dispatch := (route.dispatch.step router now random).2 }) where
  ended := h.ended_later (Nat.le_add_right _ _)
  bounded hBegun := le_add_worked (h.bounded hBegun) hClock
  overdue earlier call later hCalls hCutOff hOver :=
    absurd (h.not_overdue (outcome?_of_active hActive) (hCalls ▸ List.mem_append_cons_self) hCutOff)
      (Nat.not_lt.mpr hOver)
  place next hNext := by
    cases hNext
    obtain ⟨hRequest, hOnClock⟩ := h.place route rfl
    rw [← hRequest] at hOnClock ⊢
    exact ⟨Dispatch.request_stepsTo (Dispatch.stepsTo_step hActive router now random),
      hOnClock.step hActive hClock router random⟩

/-- It stays punctual when its call comes to an end in time. -/
theorem Punctual.answer {route : Route α} {call : PendingCall} {instant now : Instant}
    {ended : CallEnd α} (h : Punctual request begun worked calls last (.ok route))
    (hCall : route.dispatch.phase = .calling call) (hEnds : call.EndsAt instant ended)
    (hClock : instant ≤ now) (router : Router) :
    Punctual request begun (worked + (now - instant)) (calls ++ [⟨call, ended, now⟩]) now
      (.ok { route with dispatch := (route.dispatch.answer router now ended).2 }) := by
  obtain ⟨hRequest, hOnClock⟩ := h.place route rfl
  simp only [Dispatch.OnClock, hCall] at hOnClock
  obtain ⟨hInTime, hStart⟩ := hOnClock
  have hNow : now ≤ call.deadline + (worked + (now - instant)) :=
    le_add_worked (hEnds.le hInTime) hClock
  constructor
  case ended =>
    intro other hOther
    rcases List.mem_append.mp hOther with hEarlier | hLast
    · exact h.ended_later (Nat.le_add_right _ _) other hEarlier
    · rw [List.mem_singleton] at hLast
      subst hLast
      exact ⟨hInTime.later (Nat.le_add_right _ _), hNow⟩
  case bounded => exact fun _ => Nat.le_trans hNow (Nat.add_le_add_right hInTime.deadline _)
  case overdue =>
    -- None of the calls before was cut off so late, since the request has gone on.
    intro earlier other later hCalls hCutOff hOver
    rcases List.eq_nil_or_concat later with rfl | ⟨between, final, rfl⟩
    · obtain ⟨_, hOther⟩ := List.append_inj' hCalls rfl
      cases hOther
      cases hCutOff
      refine ⟨rfl, route.dispatch.totalAttempts, ?_⟩
      rw [← hRequest] at hOver ⊢
      simp only [outcome?, Dispatch.answer_cutOff_expired hCall hOver router]
    · rw [List.concat_eq_append, ← List.cons_append, ← List.append_assoc] at hCalls
      obtain ⟨hBefore, _⟩ := List.append_inj' hCalls rfl
      exact absurd (h.not_overdue (outcome?_of_calling hCall)
        (hBefore ▸ List.mem_append_cons_self) hCutOff) (Nat.not_lt.mpr hOver)
  case place =>
    intro next hNext
    cases hNext
    have hReturn := Dispatch.returnsTo_answer hCall router now ended
    exact ⟨(Dispatch.request_returnsTo hReturn).trans hRequest, Dispatch.onClock_returnsTo hReturn⟩

/-- So a request that is timed is punctual all along. -/
theorem Timed.punctual (h : Timed settings request begun moves worked calls last stage) :
    Punctual request begun worked calls last stage := by
  induction h with
  | begin router hSettings => exact punctual_begin router
  | step prior hActive router hSettings now hClock random ih =>
      exact ih.step hActive hClock router random
  | answer prior hCall router hSettings instant ended hEnds hWaited now hClock ih =>
      exact ih.answer hCall hEnds hClock router

/-- A request without an outcome has a next move, and that needs no work: a step can be made at
once, and the call that it waits for is cut off in the end. -/
theorem Timed.goes_on (h : Timed settings request begun moves worked calls last stage)
    (hNone : outcome? stage = none) :
    (∃ route stranded, stage = .ok route ∧ route.dispatch.phase = .halted stranded ∧
        ∀ deployment admission, stranded = some (deployment, admission) →
          deployment.timeoutFits last = false) ∨
      ∃ (calls : List (EndedCall α)) (last : Instant) (stage : Except RoutingError (Route α)),
        Timed settings request begun (moves + 1) worked calls last stage := by
  have hRouter : (Router.new settings).settings = settings := rfl
  cases stage with
  | error error => cases hNone
  | ok route =>
      cases hSuspended : route.dispatch.isSuspended with
      | false =>
          have hNext := h.step hSuspended (Router.new settings) hRouter last (Nat.le_refl _) {}
          rw [Nat.sub_self] at hNext
          exact .inr ⟨_, _, _, hNext⟩
      | true =>
          rcases Dispatch.suspended_cases hSuspended with
            ⟨call, hCall⟩ | ⟨outcome, hFinished⟩ | ⟨stranded, hHalted⟩
          · have hStart := (h.punctual.place route rfl).2
            simp only [Dispatch.OnClock, hCall] at hStart
            have hNext := h.answer hCall (Router.new settings) hRouter
              (max call.start call.deadline) .cutOff rfl (hStart.2 ▸ Nat.le_max_left _ _) _
              (Nat.le_refl _)
            rw [Nat.sub_self] at hNext
            exact .inr ⟨_, _, _, hNext⟩
          · simp [outcome?, hFinished] at hNone
          · refine .inl ⟨route, stranded, rfl, hHalted, ?_⟩
            rintro deployment admission rfl
            have hOnClock := (h.punctual.place route rfl).2
            simpa only [Dispatch.OnClock, hHalted] using hOnClock

/-- It makes no more moves than it may. -/
theorem Timed.moves_le (h : Timed settings request begun moves worked calls last stage) :
    moves ≤ (1 + settings.maxFallbackDepth) * (4 * settings.maxAttempts + 5) := by
  cases stage with
  | error error =>
      rw [h.course.2 error rfl]
      exact Nat.zero_le _
  | ok route =>
      obtain ⟨itinerary, hCourse⟩ := h.course.1 route rfl
      obtain ⟨_, _, _, hPaid⟩ := hCourse.accounted
      rw [Nat.add_comm 1]
      exact Nat.le_trans (Nat.le_add_right _ _) hPaid

/-- A request keeps its deadline but for the time that its steps have taken, whether it is for a
response or for a stream, whatever others do to the router and however its calls end. -/
theorem Timed.late_by_worked
    (h : Timed settings request begun moves worked calls last stage) :
    (∀ call ∈ calls, call.call.InTime request.deadline worked ∧
        call.instant ≤ call.call.deadline + worked) ∧
      (∀ route call, stage = .ok route → route.dispatch.phase = .calling call →
        call.InTime request.deadline worked ∧ last = call.start) ∧
      (begun < request.deadline → last ≤ request.deadline + worked) := by
  have hPunctual := h.punctual
  refine ⟨hPunctual.ended, fun route call hRoute hCall => ?_, hPunctual.bounded⟩
  have hOnClock := (hPunctual.place route hRoute).2
  simpa only [Dispatch.OnClock, hCall] using hOnClock

/-- A request whose steps take no time keeps its deadline, whether it is for a response or for a
stream, whatever others do to the router and however its calls end. All its calls, for whatever
model they are made, begin before the deadline, are given an end that is not after it nor after the
timeout of their deployment, and have come to that end by then. The request that begins before its
deadline is done by then: it makes no more moves than it is allowed, and as long as it has no
outcome there is a next one, unless the whole program has ended. That takes a choice that overflows
or a deployment whose timeout would end after the last instant. A call that is cut off with the
time of the request over is the last one, and the outcome is that the deadline was exceeded. -/
theorem Timed.keeps_deadline
    (h : Timed settings request begun moves 0 calls last stage) :
    (∀ call ∈ calls, call.call.start < request.deadline ∧ call.call.deadline ≤ request.deadline ∧
        (∀ timeout, call.call.deployment.timeout = some timeout →
          call.call.deadline ≤ call.call.start + timeout) ∧
        call.instant ≤ call.call.deadline) ∧
      (∀ route call, stage = .ok route → route.dispatch.phase = .calling call →
        last = call.start ∧ call.start < request.deadline ∧ call.deadline ≤ request.deadline ∧
          ∀ timeout, call.deployment.timeout = some timeout →
            call.deadline ≤ call.start + timeout) ∧
      (begun < request.deadline → last ≤ request.deadline) ∧
      (∀ earlier call later, calls = earlier ++ call :: later → call.ended = .cutOff →
        request.deadline ≤ call.instant → later = [] ∧
          ∃ attempts, outcome? stage = some (.error (.deadlineExceeded request.model attempts))) ∧
      moves ≤ (1 + settings.maxFallbackDepth) * (4 * settings.maxAttempts + 5) ∧
      (outcome? stage = none →
        (∃ route stranded, stage = .ok route ∧ route.dispatch.phase = .halted stranded ∧
          ∀ deployment admission, stranded = some (deployment, admission) →
            ∃ timeout, deployment.timeout = some timeout ∧ Instant.last < last + timeout) ∨
          ∃ (calls : List (EndedCall α)) (last : Instant) (stage : Except RoutingError (Route α)),
            Timed settings request begun (moves + 1) 0 calls last stage) := by
  obtain ⟨hEnded, hCalling, hBounded⟩ := h.late_by_worked
  refine ⟨fun call hCall => ?_, fun route call hRoute hPhase => ?_, hBounded,
    h.punctual.overdue, h.moves_le, fun hNone => (h.goes_on hNone).imp_left ?_⟩
  · obtain ⟨hInTime, hEnd⟩ := hEnded call hCall
    exact ⟨hInTime.start, hInTime.deadline, hInTime.timeout, hEnd⟩
  · obtain ⟨hInTime, hStart⟩ := hCalling route call hRoute hPhase
    exact ⟨hStart, hInTime.start, hInTime.deadline, hInTime.timeout⟩
  · rintro ⟨route, stranded, hRoute, hHalted, hTimeout⟩
    exact ⟨route, stranded, hRoute, hHalted, fun deployment admission hStranded =>
      (deployment.timeoutFits_eq_false_iff last).mp (hTimeout deployment admission hStranded)⟩

/-- A router whose first deployment is given less time than a request has. -/
def slowRouter : Router :=
  { pairRouter with
    registry :=
      { pairRouter.registry with
        records :=
          Table.ofList
            [("d1", { pairDeployment "d1" with timeout := some 30 }),
              ("d2", pairDeployment "d2")] } }

/-- Both deployments are too slow. The first one is cut off at its timeout, and the second one at
the deadline of the request, which is out of time with an attempt left. -/
theorem Timed.keeps_deadline_slow :
    ∃ (calls : List (EndedCall Response)) (stage : Except RoutingError (Route Response)),
      Timed slowRouter.settings pairRequest 0 8 0 calls 100 stage ∧
        calls.map (fun call =>
          (call.call.deployment.id, call.call.start, call.call.deadline, call.instant)) =
            [("d1", 0, 30, 30), ("d2", 30, 100, 100)] ∧
        outcome? stage = some (.error (.deadlineExceeded "m" 2)) ∧
        (∀ call ∈ calls, call.call.start < 100 ∧ call.call.deadline ≤ 100 ∧
          (∀ timeout, call.call.deployment.timeout = some timeout →
            call.call.deadline ≤ call.call.start + timeout) ∧
          call.instant ≤ call.call.deadline) ∧
        100 ≤ pairRequest.deadline ∧ slowRouter.settings.maxAttempts = 3 := by
  have hBegin : Timed (α := Response) slowRouter.settings pairRequest 0 0 0 [] 0
      (.ok ⟨none, Dispatch.begin slowRouter pairRequest 0⟩) := Timed.begin slowRouter rfl
  have hChecked := hBegin.step rfl slowRouter rfl 0 (Nat.le_refl _) {}
  have hChosen := hChecked.step rfl slowRouter rfl 0 (Nat.le_refl _) {}
  have hCalled := hChosen.step rfl slowRouter rfl 0 (Nat.le_refl _) {}
  have hCutOff := hCalled.answer rfl slowRouter rfl 30 .cutOff rfl (by decide) 30 (Nat.le_refl _)
  have hCheckedNext := hCutOff.step rfl slowRouter rfl 30 (Nat.le_refl _) {}
  have hChosenNext := hCheckedNext.step rfl slowRouter rfl 30 (Nat.le_refl _) {}
  have hCalledNext := hChosenNext.step rfl slowRouter rfl 30 (Nat.le_refl _) {}
  have hOver := hCalledNext.answer rfl slowRouter rfl 100 .cutOff rfl (by decide) 100
    (Nat.le_refl _)
  obtain ⟨hEnded, _, hBounded, _, _, _⟩ := hOver.keeps_deadline
  exact ⟨_, _, hOver, rfl, rfl, hEnded, hBounded (by decide), rfl⟩

/-- A router with a deployment whose timeout is 2^63 seconds. -/
def endlessRouter : Router :=
  { Router.new { strategy := .roundRobin } with
    registry :=
      { records :=
          Table.ofList
            [("d1", { pairDeployment "d1" with
              timeout := some (Duration.ofSeconds 9223372036854775808) })]
        index := Table.ofList [("m", ["d1"])] } }

/-- Nothing is wrong with that deployment, and the request for it begins before its deadline and
has attempts left. But the program ends as the call is to be timed: no step of the request and no
end of a call comes after that, and there is no outcome. -/
theorem Timed.stranded_in_time :
    (∀ deployment ∈ (endlessRouter.registry.candidates "m").flatten, deployment.fault? = none) ∧
      0 < pairRequest.deadline ∧
      ∃ route : Route Response,
        Timed endlessRouter.settings pairRequest 0 3 0 [] 0 (.ok route) ∧
        outcome? (.ok route) = none ∧
        (∀ router now random,
          route.dispatch.step router now random = (router, route.dispatch)) ∧
        ∀ router now ended, route.dispatch.answer router now ended = (router, route.dispatch) := by
  have hSound : ∀ deployment ∈ (endlessRouter.registry.candidates "m").flatten,
      deployment.fault?.isNone = true := by
    decide +kernel
  have hBegin : Timed (α := Response) endlessRouter.settings pairRequest 0 0 0 [] 0
      (.ok ⟨none, Dispatch.begin endlessRouter pairRequest 0⟩) := Timed.begin endlessRouter rfl
  have hChecked := hBegin.step rfl endlessRouter rfl 0 (Nat.le_refl _) {}
  have hChosen := hChecked.step rfl endlessRouter rfl 0 (Nat.le_refl _) {}
  have hStranded := hChosen.step rfl endlessRouter rfl 0 (Nat.le_refl _) {}
  exact ⟨fun deployment hMem => Option.isNone_iff_eq_none.mp (hSound deployment hMem), by decide,
    _, hStranded, rfl, fun _ _ _ => rfl, fun _ _ _ => rfl⟩

end Route

end DeploymentRouting
