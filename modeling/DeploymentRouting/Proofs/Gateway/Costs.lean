import DeploymentRouting.Proofs.Dispatch.Deadline
import DeploymentRouting.Proofs.Gateway.Turns
/-!
What a request pays. Its places are on the deployments that it calls and for its caller. While it is
on its way its calls cost nothing, but for one that is cut off at the end of the request and keeps
its estimate. What it is counted as and what it has paid can be read off the counts of its keys,
beside what all others stand for.
-/
namespace DeploymentRouting

universe u

/-! ## Places of a request -/

/-- A place on a deployment for a request. -/
structure Admission.IsFor (request : Request) (deployment : Deployment) (admission : Admission) :
    Prop where
  party : admission.party = .deployment
  key : admission.key = deployment.id
  estimate : admission.estimate = request.estimate

theorem Admission.IsFor.isOn {request : Request} {deployment : Deployment} {admission : Admission}
    (h : admission.IsFor request deployment) (party : Party) (key : String) :
    admission.isOn party key = (party == .deployment && deployment.id == key) := by
  rw [Admission.isOn, h.party, h.key]
  cases party <;> rfl

/-- The place that a phase shows is on the deployment that was called. -/
def Phase.Placed {α : Type u} (request : Request) : Phase α → Prop
  | .calling call => call.admission.IsFor request call.deployment
  | .finished (.ok delivery) => delivery.admission.IsFor request delivery.deployment
  | _ => True

namespace Dispatch

variable {α : Type u} {request : Request} {dispatch : Dispatch α}

/-- A request on its way, whose places are for it. -/
structure Placed (request : Request) (dispatch : Dispatch α) : Prop where
  phase : dispatch.phase.Placed request
  request : dispatch.request = request

/-- A request begins without a place on any deployment. -/
theorem placed_begin (router : Router) (request : Request) (now : Instant) :
    (Dispatch.begin router request now : Dispatch α).Placed request := by
  unfold Dispatch.begin
  dsimp only
  split <;> exact ⟨trivial, rfl⟩

/-- It takes its places on the deployments that it asks. -/
theorem Placed.step (h : dispatch.Placed request) (router : Router) (now : Instant)
    (random : RandomSource) : (dispatch.step router now random).2.Placed request := by
  obtain ⟨hPlaced, hRequest⟩ := h
  unfold Dispatch.step
  cases hPhase : dispatch.phase with
  | entering =>
      unfold enter
      dsimp only
      split
      · exact ⟨trivial, hRequest⟩
      · split
        · exact ⟨hPlaced, hRequest⟩
        · exact ⟨trivial, hRequest⟩
  | checking =>
      unfold check
      dsimp only
      split
      · exact ⟨trivial, hRequest⟩
      · split <;> exact ⟨trivial, hRequest⟩
  | selecting looked =>
      unfold withSelection
      dsimp only
      split
      · exact ⟨trivial, hRequest⟩
      · split <;> exact ⟨trivial, hRequest⟩
      · exact ⟨trivial, hRequest⟩
  | reserving looked deployment =>
      have hOffer := Limiter.reserve_snd router.limiter .deployment deployment.id
        deployment.limits dispatch.request.estimate looked
      have hAnswer : (router.limiter.reserve .deployment deployment.id deployment.limits
          dispatch.request.estimate looked).2 =
            (router.reserve deployment dispatch.request.estimate looked).2 := rfl
      rw [hAnswer] at hOffer
      obtain ⟨_, _, _, hReserve⟩ | ⟨_, _, hPlace, _, hReserve⟩ | ⟨_, _, _, _, hReserve⟩ :=
        dispatch.reserve_cases router now looked deployment
      all_goals dsimp only; rw [hReserve]
      · exact ⟨trivial, hRequest⟩
      · rw [hPlace] at hOffer
        split at hOffer
        · cases hOffer
        · cases hOffer
          exact ⟨⟨rfl, rfl, congrArg Request.estimate hRequest⟩, hRequest⟩
      · exact ⟨trivial, hRequest⟩
  | _ => exact ⟨hPlaced, hRequest⟩

/-- It keeps the place of a call that succeeded. -/
theorem Placed.answer (h : dispatch.Placed request) (router : Router) (now : Instant)
    (ended : CallEnd α) : (dispatch.answer router now ended).2.Placed request := by
  obtain ⟨hPlaced, hRequest⟩ := h
  cases hPhase : dispatch.phase with
  | calling call =>
      rw [hPhase] at hPlaced
      refine ⟨?_, (request_returnsTo (returnsTo_answer hPhase router now ended)).trans hRequest⟩
      cases hAfter : (dispatch.answer router now ended).2.phase with
      | calling other =>
          have hNone := dispatch.pending?_answer router now ended
          rw [pending?, hAfter] at hNone
          cases hNone
      | finished outcome =>
          cases outcome with
          | ok delivery =>
              obtain ⟨value, _, rfl⟩ := served_of_answer hPhase hAfter
              exact hPlaced
          | error error => trivial
      | _ => trivial
  | _ =>
      simp only [Dispatch.answer, hPhase]
      exact ⟨hPlaced, hRequest⟩

end Dispatch

namespace Session

variable {β : Type} {request : Request} {session after : Session β} {router : Router}
  {streamed : Bool} {start : Instant} {turns : List (Turn β)}

/-- The places of a session that is on its way are for its request. -/
def Placed (request : Request) : Session β → Prop := view (Dispatch.Placed request) True

theorem placed_begin (router : Router) (streamed : Bool) (request : Request) (now : Instant) :
    (begin (β := β) router streamed request now).2.1.Placed request :=
  begin_cases (motive := Placed request) trivial (fun _ => Dispatch.placed_begin ..)
    (fun _ => Dispatch.placed_begin ..) streamed

/-- Every move of a session keeps its places on what it has called. -/
theorem Placed.act (h : session.Placed request) (router : Router) (now : Instant)
    (move : Move β) : (session.act router now move).2.1.Placed request := by
  unfold Session.act
  split
  case h_1 route random | h_5 route random => exact Dispatch.Placed.step h router now random
  case h_2 route ended | h_6 route ended => exact Dispatch.Placed.answer h router now ended
  case h_3 route | h_7 route =>
    split
    · trivial
    · trivial
    · exact h
  case h_11 => exact h
  all_goals trivial

/-- The place of a call is on the deployment that is called. -/
theorem Placed.sent (h : after.Placed request) {call : PendingCall}
    (hSent : session.sent? after = some call) :
    call.admission.IsFor request call.deployment := by
  have hCalling : ∀ {α : Type} {dispatch : Dispatch α}, dispatch.Placed request →
      dispatch.pending? = some call → call.admission.IsFor request call.deployment := by
    intro α dispatch hPlaced hPending
    obtain ⟨hPhase, _⟩ := hPlaced
    unfold Dispatch.pending? at hPending
    split at hPending
    next other hCall =>
      cases hPending
      rwa [hCall] at hPhase
    next => cases hPending
  unfold sent? at hSent
  split at hSent
  next =>
    cases after with
    | whole route => exact hCalling h hSent
    | opening route => exact hCalling h hSent
    | reading stream => cases hSent
    | done => cases hSent
  next => cases hSent

/-- The place of every call that went out is on the deployment that was called. -/
theorem Path.placed (h : Path router streamed request start turns session) :
    session.Placed request ∧
      ∀ call ∈ turns.filterMap Turn.sent?, call.admission.IsFor request call.deployment := by
  induction h with
  | begin => exact ⟨placed_begin .., List.forall_mem_nil _⟩
  | turn prior meanwhile now move ih =>
      obtain ⟨hPlaced, hEarlier⟩ := ih
      have hNext := hPlaced.act meanwhile now move
      refine ⟨hNext, fun call hCall => ?_⟩
      rw [List.filterMap_append] at hCall
      rcases List.mem_append.mp hCall with hOld | hNew
      · exact hEarlier call hOld
      · obtain ⟨turn, hTurn, hSent⟩ := List.mem_filterMap.mp hNew
        rw [List.mem_singleton.mp hTurn] at hSent
        exact hNext.sent hSent

/-- Nothing is told of a request while it is on its way. -/
structure Silent {α : Type} (turns : List (Turn β)) (dispatch : Dispatch α) : Prop where
  replies : ∀ turn ∈ turns, turn.reply = .nothing
  strands : dispatch.stranded? = none → ∀ turn ∈ turns, turn.strands? = none

/-- A request that was stranded with a deployment is never told anything. -/
def Unstranded (turns : List (Turn β)) : Session β → Prop
  | .whole route => Silent turns route.dispatch
  | .opening route => Silent turns route.dispatch
  | .reading _ => ∀ turn ∈ turns, turn.strands? = none
  | .done => (∀ turn ∈ turns, turn.reply = .nothing) ∨ ∀ turn ∈ turns, turn.strands? = none

theorem strands?_of_none {turn : Turn β} (hNext : turn.next.stranded? = none) :
    turn.strands? = none := by
  rw [Turn.strands?, strands?, hNext, ite_self]

/-- While nothing is told the request stays silent. -/
theorem Silent.turn {α : Type} {dispatch after : Dispatch α} {turn : Turn β}
    (h : Silent turns dispatch) (hReply : turn.reply = .nothing)
    (hNext : turn.next.stranded? = after.stranded?)
    (hStays : after.stranded? = none → dispatch.stranded? = none) :
    Silent (turns ++ [turn]) after where
  replies := List.forall_mem_append.mpr ⟨h.replies, List.forall_mem_singleton.mpr hReply⟩
  strands hNone := List.forall_mem_append.mpr
    ⟨h.strands (hStays hNone), List.forall_mem_singleton.mpr (strands?_of_none (hNext.trans hNone))⟩

/-- A request whose outcome is taken was not stranded. -/
theorem Silent.finished {α : Type} {dispatch : Dispatch α} {turn : Turn β}
    {outcome : Except RoutingError (Delivery α)} (h : Silent turns dispatch)
    (hFinished : dispatch.phase = .finished outcome) (hNext : turn.next.stranded? = none) :
    ∀ other ∈ turns ++ [turn], other.strands? = none :=
  List.forall_mem_append.mpr
    ⟨h.strands (by rw [Dispatch.stranded?, hFinished]),
      List.forall_mem_singleton.mpr (strands?_of_none hNext)⟩

/-- A turn leaves a session that was told something unstranded. -/
theorem Unstranded.turn (h : session.Unstranded turns) (router : Router) (now : Instant)
    (move : Move β) :
    (session.act router now move).2.1.Unstranded (turns ++ [⟨router, now, session, move⟩]) := by
  cases session with
  | whole route =>
      cases move with
      | step random => exact h.turn rfl rfl (route.dispatch.stranded?_of_step random)
      | answerWhole ended => exact h.turn rfl rfl (route.dispatch.stranded?_of_answer ended)
      | finish =>
          cases hPhase : route.dispatch.phase with
          | finished outcome =>
              have hNext : ((whole route : Session β).act router now .finish).2.1 = .done := by
                cases outcome <;> simp only [Session.act, hPhase]
              rw [hNext]
              exact .inr (h.finished hPhase (by rw [Turn.next, hNext]; rfl))
          | _ =>
              have hNext : (whole route : Session β).act router now .finish =
                  (router, .whole route, .nothing) := by simp only [Session.act, hPhase]
              rw [hNext]
              exact h.turn (by rw [Turn.reply, hNext]) (by rw [Turn.next, hNext]; rfl) id
      | drop => exact .inl (List.forall_mem_append.mpr
          ⟨h.replies, List.forall_mem_singleton.mpr rfl⟩)
      | _ => exact h.turn rfl rfl id
  | opening route =>
      cases move with
      | step random => exact h.turn rfl rfl (route.dispatch.stranded?_of_step random)
      | answerStream ended => exact h.turn rfl rfl (route.dispatch.stranded?_of_answer ended)
      | finish =>
          cases hPhase : route.dispatch.phase with
          | finished outcome =>
              cases outcome with
              | ok delivery =>
                  have hNext : ((opening route : Session β).act router now .finish).2.1 =
                      .reading (.ofDelivery route.dispatch.request route.callerAdmission
                        delivery) := by simp only [Session.act, hPhase]
                  rw [hNext]
                  exact h.finished hPhase (by rw [Turn.next, hNext]; rfl)
              | error fault =>
                  have hNext : ((opening route : Session β).act router now .finish).2.1 =
                      .done := by simp only [Session.act, hPhase]
                  rw [hNext]
                  exact .inr (h.finished hPhase (by rw [Turn.next, hNext]; rfl))
          | _ =>
              have hNext : (opening route : Session β).act router now .finish =
                  (router, .opening route, .nothing) := by simp only [Session.act, hPhase]
              rw [hNext]
              exact h.turn (by rw [Turn.reply, hNext]) (by rw [Turn.next, hNext]; rfl) id
      | drop => exact .inl (List.forall_mem_append.mpr
          ⟨h.replies, List.forall_mem_singleton.mpr rfl⟩)
      | _ => exact h.turn rfl rfl id
  | reading stream =>
      have hNone : ∀ other ∈ turns ++ [⟨router, now, reading stream, move⟩],
          other.strands? = none :=
        List.forall_mem_append.mpr
          ⟨h, List.forall_mem_singleton.mpr (strands?_of_none (by cases move <;> rfl))⟩
      cases move with
      | drop => exact .inr hNone
      | _ => exact hNone
  | done =>
      have hNext : (done : Session β).act router now move = (router, .done, .nothing) := by
        cases move <;> rfl
      rw [hNext]
      exact h.imp
        (fun hNothing => List.forall_mem_append.mpr
          ⟨hNothing, List.forall_mem_singleton.mpr (by rw [Turn.reply, hNext])⟩)
        fun hNone => List.forall_mem_append.mpr
          ⟨hNone, List.forall_mem_singleton.mpr (strands?_of_none (by rw [Turn.next, hNext]; rfl))⟩

/-- Whoever is told something of its request was not stranded. -/
theorem Path.unstranded (h : Path router streamed request start turns session) {reply : Reply}
    (hMem : reply ∈ turns.map Turn.reply) (hSome : reply ≠ .nothing) :
    ∀ turn ∈ turns, turn.strands? = none := by
  suffices hUnstranded : session.Unstranded turns by
    obtain ⟨turn, hTurn, hReply⟩ := List.mem_map.mp hMem
    have hTold : ¬∀ turn ∈ turns, turn.reply = .nothing := fun hNothing =>
      hSome (hReply.symm.trans (hNothing turn hTurn))
    cases session with
    | whole route => exact absurd hUnstranded.replies hTold
    | opening route => exact absurd hUnstranded.replies hTold
    | reading stream => exact hUnstranded
    | done => exact hUnstranded.resolve_left hTold
  clear hMem
  induction h with
  | begin =>
      exact begin_cases (motive := Unstranded []) (.inl (List.forall_mem_nil _))
        (fun _ => ⟨List.forall_mem_nil _, fun _ => List.forall_mem_nil _⟩)
        (fun _ => ⟨List.forall_mem_nil _, fun _ => List.forall_mem_nil _⟩) streamed
  | turn prior meanwhile now move ih => exact ih.turn meanwhile now move

end Session

/-! ## Calls that cost nothing -/

/-- Whether a call was cut off at the end of its request. -/
def Attempt.isOverdue (request : Request) : Attempt → Bool
  | .called _ .cutOff instant => request.isExpired instant
  | .called _ (.success _) _ | .called _ (.failure _) _ | .refused _ _ => false

/-- The tokens that stay on a key after some attempts for a request: its estimate, if a call was
cut off at its end. -/
def keptOn (request : Request) (ended : List Attempt) : Party → String → Nat
  | .deployment, key =>
      if ended.any fun attempt => attempt.isOverdue request && attempt.deployment.id == key then
        request.estimate
      else 0
  | .caller, _ => 0

section Kept

variable {request : Request} {ended later : List Attempt}

/-- What ended in time keeps nothing. -/
theorem keptOn_append (h : ∀ attempt ∈ later, attempt.isOverdue request = false)
    (party : Party) (key : String) :
    keptOn request (ended ++ later) party key = keptOn request ended party key := by
  cases party with
  | caller => rfl
  | deployment =>
      have hNone : (later.any fun attempt =>
          attempt.isOverdue request && attempt.deployment.id == key) = false :=
        List.any_eq_false.mpr fun attempt hMem => by simp [h attempt hMem]
      simp only [keptOn, List.any_append, hNone, Bool.or_false]

/-- So if all ended in time nothing is kept. -/
theorem keptOn_of_inTime (h : ∀ attempt ∈ ended, attempt.isOverdue request = false)
    (party : Party) (key : String) : keptOn request ended party key = 0 := by
  have hSame := @keptOn_append request [] ended h party key
  rw [List.nil_append] at hSame
  rw [hSame]
  cases party <;> rfl

/-- A call that is cut off at the end of the request keeps its estimate. -/
theorem keptOn_overdue (h : ∀ attempt ∈ ended, attempt.isOverdue request = false)
    {attempt : Attempt} (hLate : attempt.isOverdue request = true) (party : Party) (key : String) :
    keptOn request (ended ++ [attempt]) party key =
      if party == .deployment && attempt.deployment.id == key then request.estimate else 0 := by
  cases party with
  | caller => rfl
  | deployment =>
      have hNone : (ended.any fun attempt =>
          attempt.isOverdue request && attempt.deployment.id == key) = false :=
        List.any_eq_false.mpr fun attempt hMem => by simp [h attempt hMem]
      simp only [keptOn, List.any_append, hNone, List.any_cons, List.any_nil, hLate,
        Bool.or_false, Bool.false_or]
      rfl

end Kept

namespace Dispatch

variable {α : Type u} {request : Request} {ended : List Attempt}
  {returned : List (Admission × Nat)} {dispatch : Dispatch α}

/-- A request on its way, with the attempts that are over and the places that have come back. If a
call was cut off at the end of the request, that was the last one. -/
structure OnWay (request : Request) (ended : List Attempt) (returned : List (Admission × Nat))
    (dispatch : Dispatch α) : Prop where
  kept : ∀ party key, Limiter.costOn returned party key = keptOn request ended party key
  inTime : (∀ error, dispatch.phase ≠ .finished (.error error)) →
    ∀ attempt ∈ ended, attempt.isOverdue request = false

/-- A request that begins has paid nothing. -/
theorem onWay_begin (dispatch : Dispatch α) : dispatch.OnWay request [] [] :=
  ⟨fun party _ => by cases party <;> rfl, fun _ => List.forall_mem_nil _⟩

/-- No place comes back with a step. -/
theorem returns_stepMoves (dispatch : Dispatch α) (place? : Party → Option Admission) :
    (dispatch.stepMoves 0).flatMap (Limiter.Move.returns place?) = [] := by
  unfold stepMoves
  split <;> rfl

/-- A step pays nothing, also where its place is refused. -/
theorem OnWay.step (h : dispatch.OnWay request ended returned) (router : Router) (now : Instant)
    (random : RandomSource) :
    (dispatch.step router now random).2.OnWay request
      (ended ++ (dispatch.refused? (dispatch.step router now random).2).toList) returned := by
  have hRefused : ∀ attempt ∈ (dispatch.refused? (dispatch.step router now random).2).toList,
      attempt.isOverdue request = false := by
    intro attempt hMem
    rw [Option.mem_toList] at hMem
    unfold refused? at hMem
    split at hMem
    · cases hMem
      rfl
    · cases hMem
  refine ⟨fun party key => (h.kept party key).trans (keptOn_append hRefused party key).symm,
    fun hUnfailed => List.forall_mem_append.mpr ⟨h.inTime fun error hFailed => ?_, hRefused⟩⟩
  have hSuspended : dispatch.isSuspended = true := by rw [isSuspended, hFailed]
  rw [step_of_suspended hSuspended] at hUnfailed
  exact hUnfailed error hFailed

/-- The end of a call pays what it keeps. -/
theorem OnWay.answer (h : dispatch.OnWay request ended returned)
    (hPlaced : dispatch.Placed request) {place? : Party → Option Admission}
    (hPlace : place? .deployment = dispatch.phase.place?) (router : Router) (now : Instant)
    (how : CallEnd α) :
    (dispatch.answer router now how).2.OnWay request
      (ended ++ (dispatch.returned? now how).toList)
      (returned ++ (dispatch.answerMoves 0 now how).flatMap (Limiter.Move.returns place?)) := by
  cases hPhase : dispatch.phase with
  | calling call =>
      obtain ⟨hFor, hRequest⟩ := hPlaced
      rw [hPhase] at hFor hPlace
      have hEarlier : ∀ attempt ∈ ended, attempt.isOverdue request = false :=
        h.inTime fun error hFailed => by rw [hPhase] at hFailed; cases hFailed
      -- A call that is back in time costs nothing, or has not given its place back.
      have hOther : ∀ places : List (Admission × Nat), (∀ place ∈ places, place.2 = 0) →
          Attempt.isOverdue request (.called call how.bare now) = false →
          (dispatch.answer router now how).2.OnWay request
            (ended ++ [.called call how.bare now]) (returned ++ places) := by
        intro places hFree hInTime
        have hAll := List.forall_mem_append.mpr ⟨hEarlier, List.forall_mem_singleton.mpr hInTime⟩
        refine ⟨fun party key => ?_, fun _ => hAll⟩
        have hNothing : Limiter.costOn places party key = 0 :=
          tally_eq_zero fun place hMem => by rw [hFree place hMem, ite_self]
        rw [keptOn_of_inTime hAll, Limiter.costOn_append, hNothing]
        exact (h.kept party key).trans (keptOn_of_inTime hEarlier party key)
      have hReturned : (dispatch.returned? now how).toList = [.called call how.bare now] := by
        rw [returned?, pending?, hPhase]
        rfl
      rw [hReturned]
      cases how with
      | success value =>
          simp only [answerMoves, hPhase, List.flatMap_nil]
          exact hOther [] (List.forall_mem_nil _) rfl
      | failure error =>
          simp only [answerMoves, hPhase, List.flatMap_singleton, Limiter.Move.returns, hPlace]
          exact hOther _ (by simp [Phase.place?]) rfl
      | cutOff =>
          simp only [answerMoves, hPhase]
          cases hExpired : dispatch.request.isExpired now with
          | true =>
              simp only [if_true, List.flatMap_singleton, Limiter.Move.returns, hPlace]
              refine ⟨fun party key => ?_, fun hUnfailed => ?_⟩
              · have hBefore := (h.kept party key).trans (keptOn_of_inTime hEarlier party key)
                have hLate : Attempt.isOverdue request (.called call .cutOff now) = true := by
                  rw [← hRequest]
                  exact hExpired
                rw [Limiter.costOn_append, hBefore]
                refine Eq.trans ?_ (keptOn_overdue hEarlier hLate party key).symm
                simp [Limiter.costOn, Phase.place?, hFor.isOn, hFor.estimate, Attempt.deployment]
              · simp only [Dispatch.answer, hPhase, Dispatch.cutOff, hExpired, if_true] at hUnfailed
                exact absurd rfl (hUnfailed _)
          | false =>
              simp only [Bool.false_eq_true, if_false, List.flatMap_singleton,
                Limiter.Move.returns, hPlace]
              exact hOther _ (by simp [Phase.place?]) (by rw [← hRequest]; exact hExpired)
  | _ =>
      simp only [Dispatch.answer, returned?, pending?, answerMoves, hPhase]
      simpa using h

end Dispatch

/-! ## Charges -/

/-- The tokens that a request that was served leaves on a key: both its deployment and its caller,
if that is limited, are charged. -/
def chargedOn (limited : String → Bool) (deployment : String) (tokens : Nat) :
    Party → String → Nat
  | .deployment, key => if key = deployment then tokens else 0
  | .caller, key => if limited key then tokens else 0

/-- The requests that a request is counted as on a key: one for each of its calls, and one for its
caller, if that is limited. -/
def countedOn (limited : String → Bool) (calls : List PendingCall) : Party → String → Nat
  | .deployment, key => calls.countP (·.deployment.id == key)
  | .caller, key => if limited key then 1 else 0

/-- Whether a request needs a place for a caller. -/
def Router.limits (router : Router) (request : Request) (caller : String) : Bool :=
  request.caller == some caller && (router.callerLimits.get? caller).isSome

/-- A place for the caller of a request. -/
structure Admission.IsForCaller (request : Request) (admission : Admission) : Prop where
  party : admission.party = .caller
  caller : request.caller = some admission.key
  estimate : admission.estimate = request.estimate

/-- The place that a request begins with is one for its caller. -/
theorem Router.isForCaller {router : Router} {request : Request} {now : Instant}
    {admission : Admission} (h : router.callerPlace? request now = some admission) :
    admission.IsForCaller request := by
  unfold callerPlace? reserveCaller at h
  cases hCaller : request.caller with
  | none => simp [hCaller, Except.toOption] at h
  | some caller =>
      rw [hCaller] at h
      dsimp only at h
      cases hLimits : router.callerLimits.get? caller with
      | none => simp [hLimits, Except.toOption] at h
      | some limits =>
          have hOffer := Limiter.reserve_snd router.limiter .caller caller limits
            request.estimate now
          rw [hLimits] at h
          dsimp only at h
          rcases hAnswer : router.limiter.reserve .caller caller limits request.estimate now with
            ⟨limiter, refusal | granted⟩
          · simp [hAnswer, Except.toOption] at h
          · rw [hAnswer] at h hOffer
            cases h
            split at hOffer
            · cases hOffer
            · cases hOffer
              exact ⟨rfl, hCaller, rfl⟩

/-- A caller that is admitted has a place if and only if it is limited. -/
theorem Router.callerPlace?_any {router : Router} {request : Request} {now : Instant}
    (hAdmitted : (router.reserveCaller request now).2.toOption.isSome = true) :
    (fun caller => (router.callerPlace? request now).any (·.isOn .caller caller)) =
      router.limits request := by
  funext key
  unfold callerPlace? limits
  unfold reserveCaller at hAdmitted ⊢
  cases hCaller : request.caller with
  | none => rfl
  | some caller =>
      rw [hCaller] at hAdmitted
      dsimp only at hAdmitted ⊢
      cases hLimits : router.callerLimits.get? caller with
      | none =>
          by_cases hKey : key = caller
          · subst hKey
            simp [hLimits, Except.toOption]
          · simp [Ne.symm hKey, Except.toOption]
      | some limits =>
          rw [hLimits] at hAdmitted
          dsimp only at hAdmitted ⊢
          have hOffer := Limiter.reserve_snd router.limiter .caller caller limits
            request.estimate now
          rcases hAnswer : router.limiter.reserve .caller caller limits request.estimate now with
            ⟨limiter, refusal | granted⟩
          · simp [hAnswer, Except.toOption] at hAdmitted
          · rw [hAnswer] at hOffer
            split at hOffer
            · cases hOffer
            · cases hOffer
              by_cases hKey : key = caller
              · subst hKey
                simp [hLimits, Except.toOption, Admission.isOn, Limiter.offer]
              · simp [Ne.symm hKey, Except.toOption, Admission.isOn, Limiter.offer]

/-- Both places of a request that was served are charged with the same tokens. -/
theorem costOn_charged {request : Request} {deployment : Deployment} {admission : Admission}
    {callerPlace? : Option Admission} (hFor : admission.IsFor request deployment)
    (hCaller : ∀ place, callerPlace? = some place → place.IsForCaller request) (tokens : Nat)
    (party : Party) (key : String) :
    Limiter.costOn ((admission, tokens) :: callerPlace?.toList.map fun place => (place, tokens))
        party key =
      chargedOn (fun caller => callerPlace?.any (·.isOn .caller caller)) deployment.id tokens party
        key := by
  rw [Limiter.costOn, tally_cons, hFor.isOn]
  cases party with
  | caller => cases callerPlace? <;> simp [chargedOn]
  | deployment =>
      have hApart : ∀ place, callerPlace? = some place → place.isOn .deployment key = false := by
        intro place hPlace
        simp [Admission.isOn, (hCaller place hPlace).party]
      by_cases hKey : key = deployment.id
      · cases callerPlace? <;> simp_all [chargedOn]
      · cases callerPlace? <;> simp_all [chargedOn, Ne.symm hKey]

/-! ## On the way -/

namespace Session

variable {β : Type} {request : Request} {turns : List (Turn β)} {turn : Turn β}
  {callerPlace? : Option Admission}

/-- A turn that moves nothing. -/
structure Turn.IsIdle (turn : Turn β) : Prop where
  next : turn.next = turn.session
  reply : turn.reply = .nothing
  ended : turn.ended? = none
  event : turn.event? = none
  returns : turn.returns = []

/-- A turn that moves nothing tells nothing. -/
theorem Turn.IsIdle.mem_replies (hIdle : turn.IsIdle) {reply : Reply} (hSome : reply ≠ .nothing) :
    reply ∈ (turns ++ [turn]).map Turn.reply ↔ reply ∈ turns.map Turn.reply := by
  simp [hIdle.reply, hSome]

/-- While nothing has been told, the first thing that is told comes with the last turn. -/
theorem reply_of_mem {turn : Turn β} (hNothing : ∀ turn ∈ turns, turn.reply = .nothing)
    {reply : Reply} (hMem : reply ∈ (turns ++ [turn]).map Turn.reply) (hSome : reply ≠ .nothing) :
    turn.reply = reply := by
  obtain ⟨teller, hTeller, hReply⟩ := List.mem_map.mp hMem
  rcases List.mem_append.mp hTeller with hEarlier | hLast
  · exact absurd (hReply.symm.trans (hNothing teller hEarlier)) hSome
  · rw [← List.mem_singleton.mp hLast]
    exact hReply

/-- A request on its way, of which nothing has been told and no cost reported. -/
structure Underway {α : Type} (request : Request) (callerPlace? : Option Admission)
    (turns : List (Turn β)) (route : Route α) : Prop where
  caller : route.callerAdmission = callerPlace?
  dispatch :
    route.dispatch.OnWay request (turns.filterMap Turn.ended?) (turns.flatMap Turn.returns)
  events : turns.filterMap Turn.event? = []
  replies : ∀ turn ∈ turns, turn.reply = .nothing

variable {α : Type} {route : Route α}

/-- A request that begins is on its way. -/
theorem underway_begin (callerPlace? : Option Admission) (dispatch : Dispatch α) :
    Underway request callerPlace? ([] : List (Turn β))
      { callerAdmission := callerPlace?, dispatch } :=
  ⟨rfl, Dispatch.onWay_begin dispatch, rfl, List.forall_mem_nil _⟩

/-- It stays on its way with a turn that moves nothing. -/
theorem Underway.idle (h : Underway request callerPlace? turns route) (hIdle : turn.IsIdle) :
    Underway request callerPlace? (turns ++ [turn]) route := by
  refine ⟨h.caller, ?_, ?_, List.forall_mem_append.mpr
    ⟨h.replies, List.forall_mem_singleton.mpr hIdle.reply⟩⟩
  · rw [filterMap_concat, flatMap_concat, hIdle.ended, hIdle.returns]
    simpa using h.dispatch
  · rw [filterMap_concat, h.events, hIdle.event]
    rfl

/-- It stays so with a step. -/
theorem Underway.step (h : Underway request callerPlace? turns route) {router : Router}
    {now : Instant} {random : RandomSource}
    (hEnded : turn.ended? = route.dispatch.refused? (route.dispatch.step router now random).2)
    (hReturns : turn.returns =
      (route.dispatch.stepMoves 0).flatMap (Limiter.Move.returns route.place?))
    (hEvent : turn.event? = none) (hReply : turn.reply = .nothing) :
    Underway request callerPlace? (turns ++ [turn])
      { route with dispatch := (route.dispatch.step router now random).2 } := by
  refine ⟨h.caller, ?_, ?_, List.forall_mem_append.mpr
    ⟨h.replies, List.forall_mem_singleton.mpr hReply⟩⟩
  · rw [filterMap_concat, flatMap_concat, hEnded, hReturns, Dispatch.returns_stepMoves,
      List.append_nil]
    exact h.dispatch.step router now random
  · rw [filterMap_concat, h.events, hEvent]
    rfl

/-- It stays so with the end of a call. -/
theorem Underway.answer (h : Underway request callerPlace? turns route)
    (hPlaced : route.dispatch.Placed request) {router : Router} {now : Instant} {ended : CallEnd α}
    (hEnded : turn.ended? = route.dispatch.returned? now ended)
    (hReturns : turn.returns =
      (route.dispatch.answerMoves 0 now ended).flatMap (Limiter.Move.returns route.place?))
    (hEvent : turn.event? = none) (hReply : turn.reply = .nothing) :
    Underway request callerPlace? (turns ++ [turn])
      { route with dispatch := (route.dispatch.answer router now ended).2 } := by
  refine ⟨h.caller, ?_, ?_, List.forall_mem_append.mpr
    ⟨h.replies, List.forall_mem_singleton.mpr hReply⟩⟩
  · rw [filterMap_concat, flatMap_concat, hEnded, hReturns]
    exact h.dispatch.answer hPlaced rfl router now ended
  · rw [filterMap_concat, h.events, hEvent]
    rfl

/-- A request that has been served has paid nothing yet. -/
theorem Underway.costOn_eq_zero (h : Underway request callerPlace? turns route)
    {delivery : Delivery α} (hServed : route.dispatch.phase = .finished (.ok delivery))
    (party : Party) (key : String) :
    Limiter.costOn (turns.flatMap Turn.returns) party key = 0 := by
  have hInTime := h.dispatch.inTime fun error hFailed => by
    rw [hServed] at hFailed
    cases hFailed
  rw [h.dispatch.kept, keptOn_of_inTime hInTime]

end Session

/-! ## The counts of a gateway -/

namespace Gateway

variable {β : Type} {settings : Settings} {before gateway : Gateway β} {request : Request}
  {start : Instant} {turns : List (Session.Turn β)}

/-- What can be read of a key in the window of one session: what all others stand for, and what
this session is counted as. -/
def Shows (settings : Settings) (gateway : Gateway β) (number : Nat)
    (requests tokens : Party → String → Nat) : Prop :=
  ∀ party key now,
    Limiter.Log.Countable settings.rateLimitWindow gateway.history number party key now →
    (gateway.router.limiter.load party key now).requests =
        (gateway.log settings).standing (fun _ => 1) (· != number) party key +
          requests party key ∧
      (gateway.router.limiter.load party key now).tokens =
        (gateway.log settings).standing Limiter.Grant.charge (· != number) party key +
          tokens party key

/-- What a session was granted and has paid is shown when its places are back. -/
theorem Reachable.shows (h : Reachable settings gateway) {number : Nat}
    (hBack : ∀ party, (gateway.log settings).outOf number party = []) :
    gateway.Shows settings number ((gateway.log settings).granted number)
      ((gateway.log settings).paid number) := by
  intro party key now hCountable
  rw [← h.balanced.limiter]
  exact hCountable.load (hBack party)

/-- Nothing is shown of a request that is still to begin. -/
theorem Reachable.shows_before (h : Reachable settings before) :
    before.Shows settings before.sessions.length (fun _ _ => 0) (fun _ _ => 0) := by
  have hNothingOut : ∀ party, (before.log settings).outOf before.sessions.length party = [] := by
    intro party
    rw [h.balanced.places, List.getElem?_eq_none (Nat.le_refl _)]
    rfl
  intro party key now hCountable
  obtain ⟨hPaid, hNone⟩ := h.own_eq_zero party key
  have hRead := h.shows hNothingOut party key now hCountable
  rwa [hPaid, hNone] at hRead

/-- What a request that was told something was granted are its calls, and the place of its
caller. -/
theorem Follows.granted_eq {streamed : Bool} (hBefore : Reachable settings before)
    (hAdmitted : (before.router.reserveCaller request start).2.toOption.isSome = true)
    (h : Follows before streamed request start turns gateway) {reply : Reply}
    (hMem : reply ∈ turns.map Session.Turn.reply) (hSome : reply ≠ .nothing) :
    (gateway.log settings).granted before.sessions.length =
      countedOn (before.router.limits request) (turns.filterMap Session.Turn.sent?) := by
  obtain ⟨session, _, hPath⟩ := h.path
  have hCalls := hPath.placed.2
  have hTaken : turns.flatMap Session.Turn.taken =
      (turns.filterMap Session.Turn.sent?).map PendingCall.admission := by
    rw [List.filterMap_eq_flatMap_toList, List.map_flatMap]
    refine List.flatMap_congr fun turn hTurn => ?_
    exact Session.taken_of_unstranded (hPath.unstranded hMem hSome turn hTurn)
  funext party key
  rw [(h.own hBefore party key).2, hTaken, Admission.countOn_append, Admission.countOn,
    Admission.countOn, List.countP_map]
  cases party with
  | deployment =>
      have hNone : (before.router.callerPlace? request start).toList.countP
          (·.isOn .deployment key) = 0 := by
        refine List.countP_eq_zero.mpr fun place hMem => ?_
        rw [Option.mem_toList] at hMem
        simp [Admission.isOn, (Router.isForCaller hMem).party]
      rw [hNone, Nat.zero_add]
      exact List.countP_congr fun call hMem => by simp [(hCalls call hMem).isOn]
  | caller =>
      have hNone : (turns.filterMap Session.Turn.sent?).countP
          ((·.isOn .caller key) ∘ PendingCall.admission) = 0 :=
        List.countP_eq_zero.mpr fun call hMem => by simp [(hCalls call hMem).isOn]
      have hAny := congrFun (Router.callerPlace?_any hAdmitted) key
      rw [hNone, Nat.add_zero, countedOn, ← hAny]
      cases before.router.callerPlace? request start with
      | none => rfl
      | some place => exact List.countP_singleton

/-- When the places of a request are back, what it was counted as and has paid is shown. -/
theorem Follows.shows {streamed : Bool} {session : Session β} {tokens : Party → String → Nat}
    (hBefore : Reachable settings before)
    (hAdmitted : (before.router.reserveCaller request start).2.toOption.isSome = true)
    (h : Follows before streamed request start turns gateway)
    (hSession : gateway.sessions[before.sessions.length]? = some session)
    {reply : Reply} (hMem : reply ∈ turns.map Session.Turn.reply) (hSome : reply ≠ .nothing)
    (hBack : ∀ party, session.place? party = none)
    (hCosts : ∀ party key,
      Limiter.costOn (turns.flatMap Session.Turn.returns) party key = tokens party key) :
    gateway.Shows settings before.sessions.length
      (countedOn (before.router.limits request) (turns.filterMap Session.Turn.sent?)) tokens := by
  have hReachable := h.reachable hBefore
  have hNothingOut : ∀ party, (gateway.log settings).outOf before.sessions.length party = [] := by
    intro party
    rw [hReachable.balanced.places, hSession, Option.bind_some, hBack]
    rfl
  have hPaid : (gateway.log settings).paid before.sessions.length = tokens := by
    funext party key
    exact (h.own hBefore party key).1.trans (hCosts party key)
  have hRead := hReachable.shows hNothingOut
  rwa [h.granted_eq hBefore hAdmitted hMem hSome, hPaid] at hRead

/-- The turns of one session leave what was granted to all others alone. -/
theorem grants_act (gateway : Gateway β) (number : Nat) (move : Session.Move β) (now : Instant) :
    ((gateway.act number move now).log settings).grants.filter (·.holder != number) =
      (gateway.log settings).grants.filter (·.holder != number) := by
  cases hSession : gateway.sessions[number]? with
  | none => rw [act_of_none hSession]
  | some session =>
      rw [log_act hSession]
      refine @Limiter.Log.filter_holder_performAll _ _ (· != number)
        fun step hStep holder hHolder => ?_
      have hOwn := (session.limiterMoves_apart move number now).1 step hStep
      rw [hHolder, Option.some.injEq] at hOwn
      simp [hOwn]

end Gateway

end DeploymentRouting
