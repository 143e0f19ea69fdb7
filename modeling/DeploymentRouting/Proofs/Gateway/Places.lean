import DeploymentRouting.Proofs.Gateway.Session
/-!
The places of one session. What is out with a session is at each moment what its state shows:
a place on a deployment while a call is out or its value is being handed on, and a place for
the caller until the session is over. There is one lemma for each way in which a request, a
stream or a session moves on.
-/
namespace DeploymentRouting

universe u

namespace Limiter

def takeBack (limiter : Limiter) (place : Option Admission) (cost : Admission → Nat)
    (now : Instant) : Limiter :=
  place.elim limiter fun admission => limiter.settle admission (cost admission) now

namespace Log

/-- One log leads to another by steps of one holder: the limiter comes to a given state, the
holder to given places, and everybody else keeps theirs. -/
structure LeadsTo (log after : Log) (holder : Nat) (limiter : Limiter)
    (place : Party → Option Admission) : Prop where
  limiter : after.limiter = limiter
  places : ∀ party, after.outOf holder party = (place party).toList
  others : ∀ other, other ≠ holder → ∀ party, after.outOf other party = log.outOf other party

variable {log middle after : Log} {holder : Nat} {limiter between : Limiter}
  {place shown : Party → Option Admission}

theorem LeadsTo.trans (first : LeadsTo log middle holder between shown)
    (second : LeadsTo middle after holder limiter place) :
    LeadsTo log after holder limiter place where
  limiter := second.limiter
  places := second.places
  others other hOther party :=
    (second.others other hOther party).trans (first.others other hOther party)

theorem LeadsTo.stay (hLimiter : log.limiter = limiter)
    (hPlaces : ∀ party, log.outOf holder party = (place party).toList) :
    LeadsTo log log holder limiter place :=
  ⟨hLimiter, hPlaces, fun _ _ _ => rfl⟩

/-- A holder without a place for a party has what it was granted. -/
theorem leadsTo_reserve {party : Party}
    (hPlaces : ∀ p, log.outOf holder p = (place p).toList) (hNone : place party = none)
    (key : String) (limits : Limits) (cost : Nat) (now : Instant) :
    LeadsTo log (log.perform (.reserve holder party key limits cost now)) holder
      (log.limiter.reserve party key limits cost now).1
      (fun p => if p = party then (log.limiter.reserve party key limits cost now).2.toOption
        else place p) where
  limiter := (perform_reserve_cases log holder party key limits cost now).1
  places p := by
    rw [outOf_perform_reserve, hPlaces]
    by_cases hParty : p = party
    · simp [hParty, hNone]
    · simp [hParty]
  others other hOther p := by
    rw [outOf_perform_reserve, if_neg fun hHere => hOther hHere.1]

/-- A holder that gives back what it has for a party has nothing left for it. -/
theorem leadsTo_giveBack (hPlaces : ∀ p, log.outOf holder p = (place p).toList) (party : Party)
    (now : Instant) (cost : Admission → Nat) :
    LeadsTo log (log.giveBack holder party now cost) holder
      (log.limiter.takeBack (place party) cost now)
      (fun p => if p = party then none else place p) where
  limiter := limiter_giveBack_toList (hPlaces party) now cost
  places p := by
    rw [outOf_giveBack_toList (hPlaces party), hPlaces]
    by_cases hParty : p = party <;> simp [hParty]
  others other hOther p := by
    rw [outOf_giveBack_toList (hPlaces party), if_neg fun hHere => hOther hHere.1]

theorem leadsTo_giveBack_both (hPlaces : ∀ p, log.outOf holder p = (place p).toList)
    (now : Instant) (cost : Admission → Nat) :
    LeadsTo log ((log.giveBack holder .deployment now cost).giveBack holder .caller now cost)
      holder ((log.limiter.takeBack (place .deployment) cost now).takeBack (place .caller) cost now)
      (fun _ => none) := by
  have hFirst := leadsTo_giveBack hPlaces .deployment now cost
  have hSecond := leadsTo_giveBack hFirst.places .caller now cost
  rw [hFirst.limiter] at hSecond
  refine ⟨hSecond.limiter, fun p => ?_, (hFirst.trans hSecond).others⟩
  rw [hSecond.places]
  cases p <;> rfl

end Log

end Limiter

open Limiter.Log

namespace Router

variable (router : Router) (place : Option Admission) (now : Instant)

theorem limiter_settleSome (actual : Nat) :
    (router.settleSome place actual now).limiter =
      router.limiter.takeBack place (fun _ => actual) now := by
  cases place <;> rfl

theorem limiter_abandonSome :
    (router.abandonSome place now).limiter =
      router.limiter.takeBack place Admission.estimate now := by
  cases place <;> rfl

end Router

section Requests

variable {α : Type u} {log : Limiter.Log} {holder : Nat} {router : Router} {now : Instant}

theorem Dispatch.limiter_cancel (router : Router) (now : Instant) (dispatch : Dispatch α) :
    (dispatch.cancel router now).limiter =
      router.limiter.takeBack dispatch.phase.place? Admission.estimate now := by
  unfold Dispatch.cancel
  split
  next hPhase => rw [hPhase]; rfl
  next hPhase => rw [hPhase]; rfl
  next hPhase => rw [hPhase]; rfl
  next hNotCalling hNotServed hNotStranded =>
    have hNone : dispatch.phase.place? = none := by
      unfold Phase.place?
      split
      next hPhase => exact absurd hPhase (hNotCalling _)
      next hPhase => exact absurd hPhase (hNotServed _)
      next hPhase => exact absurd hPhase (hNotStranded _ _)
      next => rfl
    rw [hNone]
    rfl

/-- Only a request for a place changes the limiter, and no other step gives a request one. -/
theorem Dispatch.step_frame {dispatch : Dispatch α}
    (hNot : ∀ looked deployment, dispatch.phase ≠ .reserving looked deployment)
    (router : Router) (now : Instant) (random : RandomSource) :
    (dispatch.step router now random).1.limiter = router.limiter ∧
      (dispatch.step router now random).2.phase.place? = dispatch.phase.place? := by
  cases hPhase : dispatch.phase with
  | entering =>
      refine ⟨by simp [Dispatch.step, hPhase], ?_⟩
      simp only [Dispatch.step, hPhase, Dispatch.enter]
      split
      · rfl
      · split <;> rfl
  | checking =>
      refine ⟨by simp [Dispatch.step, hPhase], ?_⟩
      simp only [Dispatch.step, hPhase, Dispatch.check]
      split
      · rfl
      · split <;> rfl
  | selecting looked =>
      refine ⟨by simp [Dispatch.step, hPhase, Router.select], ?_⟩
      simp only [Dispatch.step, hPhase]
      unfold Dispatch.withSelection
      split
      · rfl
      · split <;> rfl
      · rfl
  | reserving looked deployment => exact absurd hPhase (hNot looked deployment)
  | calling call => simp [Dispatch.step, hPhase]
  | finished outcome => simp [Dispatch.step, hPhase]
  | halted stranded => simp [Dispatch.step, hPhase]

theorem Dispatch.reserve_granted (dispatch : Dispatch α) (router : Router)
    (now looked : Instant) (deployment : Deployment) :
    (dispatch.reserve router now looked deployment).1.limiter =
        (router.limiter.reserve .deployment deployment.id deployment.limits
          dispatch.request.estimate looked).1 ∧
      (dispatch.reserve router now looked deployment).2.phase.place? =
        (router.limiter.reserve .deployment deployment.id deployment.limits
          dispatch.request.estimate looked).2.toOption := by
  unfold Dispatch.reserve Router.reserve
  cases hReserve : router.limiter.reserve .deployment deployment.id deployment.limits
    dispatch.request.estimate looked with
  | mk limiter answer =>
      cases answer with
      | error refusal => exact ⟨rfl, rfl⟩
      | ok admission =>
          refine ⟨rfl, ?_⟩
          dsimp only
          split <;> rfl

/-- A step of a request takes a place only when it asks for one. -/
theorem Route.leadsTo_step {route : Route α} (hLimiter : log.limiter = router.limiter)
    (hPlaces : ∀ party, log.outOf holder party = (route.place? party).toList)
    (now : Instant) (random : RandomSource) :
    LeadsTo log (log.performAll (route.dispatch.stepMoves holder)) holder
      (route.dispatch.step router now random).1.limiter
      (Route.place? { route with dispatch := (route.dispatch.step router now random).2 }) := by
  unfold Dispatch.stepMoves
  split
  next looked deployment hPhase =>
    have hNone : route.place? .deployment = none := by simp [Route.place?, hPhase, Phase.place?]
    have hLeads := leadsTo_reserve hPlaces hNone deployment.id deployment.limits
      route.dispatch.request.estimate looked
    obtain ⟨hAfter, hGranted⟩ :=
      route.dispatch.reserve_granted router now looked deployment
    rw [hLimiter] at hLeads
    simp only [Dispatch.step, hPhase]
    refine ⟨hLeads.limiter.trans hAfter.symm, fun party => ?_, hLeads.others⟩
    rw [Limiter.Log.performAll_cons, Limiter.Log.performAll_nil, hLeads.places]
    cases party with
    | deployment => simp [Route.place?, hGranted]
    | caller => simp [Route.place?]
  next hNot =>
    obtain ⟨hSame, hPlace⟩ := Dispatch.step_frame hNot router now random
    refine LeadsTo.stay (hLimiter.trans hSame.symm) fun party => ?_
    rw [hPlaces]
    cases party with
    | deployment => simp [Route.place?, hPlace]
    | caller => rfl

theorem Dispatch.fail_returned (dispatch : Dispatch α) (router : Router) (now : Instant)
    (call : PendingCall) (error : BackendError) :
    (dispatch.fail router now call error).1.limiter =
        router.limiter.settle call.admission 0 now ∧
      (dispatch.fail router now call error).2.phase.place? = none := by
  unfold Dispatch.fail
  split <;> exact ⟨rfl, rfl⟩

/-- A call that fails gives its place back, and one that is cut off gives it up if it is back
too late for its request. -/
theorem Route.leadsTo_answer {route : Route α} (hLimiter : log.limiter = router.limiter)
    (hPlaces : ∀ party, log.outOf holder party = (route.place? party).toList)
    (now : Instant) (ended : CallEnd α) :
    LeadsTo log (log.performAll (route.dispatch.answerMoves holder now ended)) holder
      (route.dispatch.answer router now ended).1.limiter
      (Route.place? { route with dispatch := (route.dispatch.answer router now ended).2 }) := by
  cases hPhase : route.dispatch.phase with
  | calling call =>
      have hPlace : route.place? .deployment = some call.admission := by
        simp [Route.place?, hPhase, Phase.place?]
      have hGiveBack := leadsTo_giveBack hPlaces .deployment now
      rw [hLimiter, hPlace] at hGiveBack
      -- Whichever way the call ends, its place goes back once and nothing else is touched.
      have hReturned : ∀ {cost : Admission → Nat} {after : Router × Dispatch α},
          after.1.limiter = router.limiter.settle call.admission (cost call.admission) now →
          after.2.phase.place? = none →
          LeadsTo log (log.giveBack holder .deployment now cost) holder after.1.limiter
            (Route.place? { route with dispatch := after.2 }) := by
        intro cost after hAfter hNone
        have hLeads := hGiveBack cost
        refine ⟨hLeads.limiter.trans hAfter.symm, fun party => ?_, hLeads.others⟩
        rw [hLeads.places]
        cases party <;> simp [Route.place?, hNone]
      cases ended with
      | success value =>
          simp only [Dispatch.answerMoves, Dispatch.answer, hPhase]
          refine LeadsTo.stay hLimiter fun party => ?_
          rw [hPlaces]
          cases party with
          | deployment => rw [hPlace]; rfl
          | caller => rfl
      | failure error =>
          simp only [Dispatch.answerMoves, Dispatch.answer, hPhase]
          obtain ⟨hAfter, hNone⟩ := route.dispatch.fail_returned router now call error
          exact hReturned hAfter hNone
      | cutOff =>
          simp only [Dispatch.answerMoves, Dispatch.answer, hPhase, Dispatch.cutOff]
          split
          · exact hReturned rfl rfl
          · obtain ⟨hAfter, hNone⟩ := route.dispatch.fail_returned router now call
              (.timeout ("call to deployment " ++ call.deployment.id ++ " timed out"))
            exact hReturned hAfter hNone
  | _ =>
      simp only [Dispatch.answerMoves, Dispatch.answer, hPhase]
      exact LeadsTo.stay hLimiter hPlaces

theorem Route.leadsTo_cancel {route : Route α} (hLimiter : log.limiter = router.limiter)
    (hPlaces : ∀ party, log.outOf holder party = (route.place? party).toList) (now : Instant) :
    LeadsTo log (log.performAll (abandonMoves holder now)) holder
      (route.cancel router now).limiter (fun _ => none) := by
  have hLeads := leadsTo_giveBack_both hPlaces now Admission.estimate
  rw [hLimiter] at hLeads
  have hAfter : (route.cancel router now).limiter =
      (router.limiter.takeBack route.dispatch.phase.place? Admission.estimate now).takeBack
        route.callerAdmission Admission.estimate now := by
    rw [Route.cancel, Router.limiter_abandonSome, Dispatch.limiter_cancel]
  rw [hAfter]
  exact hLeads

/-- A request that has failed has only the place of its caller left, and gives it back. -/
theorem Route.leadsTo_failure {route : Route α} (hLimiter : log.limiter = router.limiter)
    (hPlaces : ∀ party, log.outOf holder party = (route.place? party).toList)
    {error : RoutingError} (hPhase : route.dispatch.phase = .finished (.error error))
    (now : Instant) :
    LeadsTo log (log.performAll [.settle holder .caller 0 now]) holder
      (route.settleFailure router now).limiter (fun _ => none) := by
  have hLeads := leadsTo_giveBack hPlaces .caller now fun _ => 0
  rw [hLimiter] at hLeads
  refine ⟨hLeads.limiter.trans (Router.limiter_settleSome ..).symm, fun party => ?_,
    hLeads.others⟩
  rw [performAll_cons, performAll_nil]
  refine (hLeads.places party).trans ?_
  cases party with
  | deployment => simp [Route.place?, hPhase, Phase.place?]
  | caller => rfl

theorem limiter_settleServed (router : Router) (now : Instant) (request : Request)
    (callerAdmission : Option Admission) (admission : Admission) (deployment modelUsed : String)
    (usage : Option TokenUsage) :
    (settleServed router now request callerAdmission admission deployment modelUsed
        usage).limiter =
      (router.limiter.takeBack (some admission) (fun _ => chargedTokens request usage)
        now).takeBack callerAdmission (fun _ => chargedTokens request usage) now :=
  Router.limiter_settleSome ..

/-- A request that is served gives both its places back with what it is charged. -/
theorem leadsTo_served {place : Party → Option Admission} {admission : Admission}
    (hLimiter : log.limiter = router.limiter)
    (hPlaces : ∀ party, log.outOf holder party = (place party).toList)
    (hAdmission : place .deployment = some admission) (now : Instant) (request : Request)
    (deployment modelUsed : String) (usage : Option TokenUsage) :
    LeadsTo log (log.performAll (settleMoves holder (chargedTokens request usage) now)) holder
      (settleServed router now request (place .caller) admission deployment modelUsed
        usage).limiter (fun _ => none) := by
  have hLeads := leadsTo_giveBack_both hPlaces now fun _ => chargedTokens request usage
  rw [hLimiter, hAdmission] at hLeads
  rw [limiter_settleServed]
  exact hLeads

/-- A request begins with the place of its caller, if the caller needs one and gets it. -/
theorem Route.leadsTo_begin (hLimiter : log.limiter = router.limiter)
    (hNone : ∀ party, log.outOf holder party = []) (request : Request) (now : Instant) :
    LeadsTo log (log.performAll (Session.beginMoves holder router request now)) holder
      (Route.begin (α := α) router request now).1.limiter
      (fun party => match (Route.begin (α := α) router request now).2 with
        | .error _ => none
        | .ok route => route.place? party) := by
  have hFresh : ∀ router : Router,
      (Dispatch.begin (α := α) router request now).phase.place? = none := by
    intro router
    unfold Dispatch.begin
    dsimp only
    split <;> rfl
  have hNothing : ∀ party, log.outOf holder party = (none : Option Admission).toList := hNone
  unfold Session.beginMoves Route.begin Router.reserveCaller
  cases hCaller : request.caller with
  | none =>
      refine LeadsTo.stay hLimiter fun party => (hNone party).trans ?_
      cases party <;> simp [Route.place?, hFresh]
  | some caller =>
      dsimp only
      cases hLimits : router.callerLimits.get? caller with
      | none =>
          refine LeadsTo.stay hLimiter fun party => (hNone party).trans ?_
          cases party <;> simp [Route.place?, hFresh]
      | some limits =>
          have hLeads := @leadsTo_reserve _ _ _ .caller hNothing rfl caller limits
            request.estimate now
          rw [hLimiter] at hLeads
          dsimp only
          cases hReserve : router.limiter.reserve .caller caller limits request.estimate now with
          | mk limiter answer =>
              rw [hReserve] at hLeads
              cases answer with
              | error refusal =>
                  refine ⟨hLeads.limiter, fun party => (hLeads.places party).trans ?_,
                    hLeads.others⟩
                  cases party <;> rfl
              | ok admission =>
                  refine ⟨hLeads.limiter, fun party => (hLeads.places party).trans ?_,
                    hLeads.others⟩
                  cases party with
                  | deployment => simp [Route.place?, hFresh]
                  | caller => rfl

end Requests

namespace RoutedStream

variable {stream : RoutedStream} {arrival : Arrival}

/-- The item that closes a stream is its end. -/
theorem read_closing (h : stream.closesOn arrival = true) (router : Router) (now : Instant) :
    stream.read router now arrival =
      ((stream.close router now).1, { stream with phase := .closed }, .ended) := by
  unfold closesOn at h
  split at h
  next hPhase => simp [read, asksBackend, poll, hPhase, close]
  next hPhase => simp [read, asksBackend, receive, hPhase, close]
  next hPhase => simp [read, asksBackend, receive, hPhase, close]
  next => cases h

/-- Any other item leaves the router and the places of the stream alone, and it is no end unless
the stream had come to its end before. -/
theorem read_open (h : stream.closesOn arrival = false) (router : Router) (now : Instant) :
    (stream.read router now arrival).1 = router ∧
      (stream.read router now arrival).2.1.place? = stream.place? ∧
      (stream.read router now arrival).2.1.phase.isClosed = stream.phase.isClosed ∧
      ((stream.read router now arrival).2.2 = .ended → stream.phase.isClosed = true) := by
  unfold closesOn at h
  cases hPhase : stream.phase with
  | opening first =>
      cases first with
      | none =>
          cases arrival <;>
            simp_all [read, asksBackend, receive, handOn, funext_iff, place?, StreamPhase.isClosed]
      | some chunk =>
          simp [read, asksBackend, poll, handOn, funext_iff, place?, hPhase, StreamPhase.isClosed]
  | reading =>
      cases arrival <;>
        simp_all [read, asksBackend, receive, handOn, funext_iff, place?, StreamPhase.isClosed]
  | closing => simp [hPhase] at h
  | closed => simp [read, asksBackend, poll, hPhase, StreamPhase.isClosed]

theorem isClosed_of_closesOn (h : stream.closesOn arrival = true) :
    stream.phase.isClosed = false := by
  unfold closesOn at h
  split at h
  next hPhase => rw [hPhase]; rfl
  next hPhase => rw [hPhase]; rfl
  next hPhase => rw [hPhase]; rfl
  next => cases h

end RoutedStream

namespace Session

variable {β : Type} {log : Limiter.Log} {holder : Nat} {router : Router} {session : Session β}

theorem leadsTo_read {stream : RoutedStream} (hLimiter : log.limiter = router.limiter)
    (hPlaces : ∀ party, log.outOf holder party = (stream.place? party).toList)
    (arrival : Arrival) (now : Instant) :
    LeadsTo log
      (log.performAll ((Session.reading stream : Session β).limiterMoves holder now (.read arrival)))
      holder (stream.read router now arrival).1.limiter
      (stream.read router now arrival).2.1.place? := by
  cases hCloses : stream.closesOn arrival with
  | false =>
      obtain ⟨hRouter, hPlace, _⟩ := RoutedStream.read_open hCloses router now
      simp only [limiterMoves, hCloses, hRouter, hPlace]
      exact LeadsTo.stay hLimiter hPlaces
  | true =>
      have hOpen := RoutedStream.isClosed_of_closesOn hCloses
      have hAdmission : stream.place? .deployment = some stream.admission := by
        simp [RoutedStream.place?, hOpen]
      have hServed := leadsTo_served hLimiter hPlaces hAdmission now stream.request
        stream.deployment stream.modelUsed stream.usage
      have hCaller : stream.place? .caller = stream.callerAdmission := by
        simp [RoutedStream.place?, hOpen]
      rw [hCaller] at hServed
      simp only [limiterMoves, hCloses, RoutedStream.read_closing hCloses, RoutedStream.close]
      exact hServed

/-- A stream that is dropped gives up its places, unless it has closed. -/
theorem leadsTo_drop {stream : RoutedStream} (hLimiter : log.limiter = router.limiter)
    (hPlaces : ∀ party, log.outOf holder party = (stream.place? party).toList) (now : Instant) :
    LeadsTo log (log.performAll (abandonMoves holder now)) holder
      (stream.drop router now).limiter (fun _ => none) := by
  have hLeads := leadsTo_giveBack_both hPlaces now Admission.estimate
  rw [hLimiter] at hLeads
  refine ⟨hLeads.limiter.trans ?_, hLeads.places, hLeads.others⟩
  unfold RoutedStream.drop
  cases hPhase : stream.phase with
  | closed => simp [RoutedStream.place?, hPhase, StreamPhase.isClosed, Limiter.takeBack]
  | _ =>
      dsimp only
      rw [Router.limiter_abandonSome]
      simp only [RoutedStream.place?, hPhase, StreamPhase.isClosed]
      rfl

/-- Every step of a session leads the limiter and the session to the same places. -/
theorem leadsTo_act (hLimiter : log.limiter = router.limiter)
    (hPlaces : ∀ party, log.outOf holder party = (session.place? party).toList)
    (move : Move β) (now : Instant) :
    LeadsTo log (log.performAll (session.limiterMoves holder now move)) holder
      (session.act router now move).1.limiter
      (fun party => (session.act router now move).2.1.place? party) := by
  have hStay : LeadsTo log log holder router.limiter (fun party => session.place? party) :=
    LeadsTo.stay hLimiter hPlaces
  cases session with
  | done => cases move <;> exact hStay
  | whole route =>
      cases move with
      | step random => exact Route.leadsTo_step hLimiter hPlaces now random
      | answerWhole ended => exact Route.leadsTo_answer hLimiter hPlaces now ended
      | drop => exact Route.leadsTo_cancel hLimiter hPlaces now
      | finish =>
          simp only [limiterMoves, act]
          split
          next delivery hPhase =>
            have hAdmission : route.place? .deployment = some delivery.admission := by
              simp [Route.place?, hPhase, Phase.place?]
            exact leadsTo_served hLimiter hPlaces hAdmission now route.dispatch.request
              delivery.deployment.id delivery.modelUsed delivery.value.usage
          next hPhase => exact Route.leadsTo_failure hLimiter hPlaces hPhase now
          next => exact hStay
      | answerStream | read => exact hStay
  | opening route =>
      cases move with
      | step random => exact Route.leadsTo_step hLimiter hPlaces now random
      | answerStream ended => exact Route.leadsTo_answer hLimiter hPlaces now ended
      | drop => exact Route.leadsTo_cancel hLimiter hPlaces now
      | finish =>
          simp only [limiterMoves, act]
          cases hPhase : route.dispatch.phase with
          | finished outcome =>
              cases outcome with
              | ok delivery =>
                  refine LeadsTo.stay hLimiter fun party => ?_
                  rw [hPlaces]
                  cases party <;> simp [place?, Route.place?, hPhase, Phase.place?,
                    RoutedStream.ofDelivery, RoutedStream.place?, StreamPhase.isClosed]
              | error error => exact Route.leadsTo_failure hLimiter hPlaces hPhase now
          | _ => exact hStay
      | answerWhole | read => exact hStay
  | reading stream =>
      cases move with
      | read arrival => exact leadsTo_read hLimiter hPlaces arrival now
      | drop => exact leadsTo_drop hLimiter hPlaces now
      | step | answerWhole | answerStream | finish => exact hStay

theorem leadsTo_begin (hLimiter : log.limiter = router.limiter)
    (hNone : ∀ party, log.outOf holder party = []) (streamed : Bool) (request : Request)
    (now : Instant) :
    LeadsTo log (log.performAll (beginMoves holder router request now)) holder
      (begin (β := β) router streamed request now).1.limiter
      (fun party => (begin (β := β) router streamed request now).2.1.place? party) := by
  cases streamed with
  | false =>
      have hLeads := Route.leadsTo_begin (α := Response) hLimiter hNone request now
      simp only [begin, Bool.false_eq_true, if_false]
      revert hLeads
      rcases Route.begin (α := Response) router request now with ⟨after, _ | route⟩ <;>
        exact id
  | true =>
      have hLeads := Route.leadsTo_begin (α := Option Chunk × β) hLimiter hNone request now
      simp only [begin, if_true]
      revert hLeads
      rcases Route.begin (α := Option Chunk × β) router request now with ⟨after, _ | route⟩ <;>
        exact id

end Session

end DeploymentRouting
