import DeploymentRouting.Proofs.Gateway.Costs
/-!
What a whole request costs. When it has been served, the deployment and the caller are charged with
the same tokens, and that is the cost that is reported. When it has failed nobody is charged, but
for a call that was cut off at the end of the request.
-/
namespace DeploymentRouting

/-- The event that reports the cost of a whole response. -/
def Routed.event (request : Request) (routed : Routed Response) : SpendEvent where
  caller := request.caller
  deployment := routed.deployment
  model := routed.modelUsed
  tokens := chargedTokens request routed.response.usage

namespace Session

variable {β : Type} {request : Request} {session : Session β} {router : Router} {now : Instant}
  {streamed : Bool} {start : Instant} {turns : List (Turn β)} {callerPlace? : Option Admission}

/-- What can be told of a whole request from the turns that it has taken. On its way it has
reported nothing. When it is over, all its costs are known. -/
def TellsWhole (request : Request) (callerPlace? : Option Admission) (turns : List (Turn β)) :
    Session β → Prop
  | .whole route => Underway request callerPlace? turns route
  | .done =>
      (∀ routed, .response routed ∈ turns.map Turn.reply →
        turns.filterMap Turn.event? = [routed.event request] ∧
          ∀ party key, Limiter.costOn (turns.flatMap Turn.returns) party key =
            chargedOn (fun caller => callerPlace?.any (·.isOn .caller caller)) routed.deployment
              (routed.event request).tokens party key) ∧
        ∀ error, .failed error ∈ turns.map Turn.reply →
          turns.filterMap Turn.event? = [] ∧
            ∀ party key, Limiter.costOn (turns.flatMap Turn.returns) party key =
              keptOn request (turns.filterMap Turn.ended?) party key
  | .opening _ | .reading _ => False

theorem tellsWhole_begin (router : Router) (request : Request) (now : Instant) :
    (begin (β := β) router false request now).2.1.TellsWhole request
      (router.callerPlace? request now) [] := by
  unfold begin Route.begin Router.callerPlace?
  rcases router.reserveCaller request now with ⟨after, refusal | place⟩
  · exact ⟨fun _ hMem => absurd hMem List.not_mem_nil, fun _ hMem => absurd hMem List.not_mem_nil⟩
  · exact underway_begin place _

theorem TellsWhole.idle {turn : Turn β}
    (h : turn.session.TellsWhole request callerPlace? turns) (hIdle : turn.IsIdle) :
    turn.next.TellsWhole request callerPlace? (turns ++ [turn]) := by
  rw [hIdle.next]
  generalize turn.session = session at h
  cases session with
  | whole route => exact Underway.idle h hIdle
  | done =>
      simp only [TellsWhole, filterMap_concat, flatMap_concat, hIdle.ended, hIdle.event,
        hIdle.returns, Option.toList_none, List.append_nil]
      exact ⟨fun routed hMem => h.1 routed ((hIdle.mem_replies (by simp)).mp hMem),
        fun error hMem => h.2 error ((hIdle.mem_replies (by simp)).mp hMem)⟩
  | opening route => exact h
  | reading stream => exact h

/-- A request that was served returns both its places with what is reported. -/
theorem TellsWhole.serve {route : Route Response} {delivery : Delivery Response}
    (h : Underway request callerPlace? turns route) (hRequest : route.dispatch.request = request)
    (hServed : route.dispatch.phase = .finished (.ok delivery))
    (hFor : delivery.admission.IsFor request delivery.deployment)
    (hCaller : ∀ place, callerPlace? = some place → place.IsForCaller request)
    (router : Router) (now : Instant) :
    (done : Session β).TellsWhole request callerPlace?
      (turns ++ [⟨router, now, .whole route, .finish⟩]) := by
  have hReply : Turn.reply ⟨router, now, (whole route : Session β), .finish⟩ =
      .response (delivery.routed delivery.value) := by
    simp only [Turn.reply, Session.act, hServed]
    rfl
  have hEvent : Turn.event? ⟨router, now, (whole route : Session β), .finish⟩ =
      some ((delivery.routed delivery.value).event request) := by
    simp only [Turn.event?, Session.event?, hServed, hRequest]
    rfl
  have hReturns : Turn.returns ⟨router, now, (whole route : Session β), .finish⟩ =
      (delivery.admission, chargedTokens request delivery.value.usage) ::
        callerPlace?.toList.map fun place =>
          (place, chargedTokens request delivery.value.usage) := by
    simp [Turn.returns, Session.returns, limiterMoves, settleMoves, Limiter.Move.returns,
      place?, Route.place?, Phase.place?, hServed, hRequest, h.caller]
  refine ⟨fun routed hMem => ?_, fun error hMem => ?_⟩
  · cases hReply.symm.trans (reply_of_mem h.replies hMem (by simp))
    rw [filterMap_concat, h.events, hEvent, flatMap_concat, hReturns]
    refine ⟨rfl, fun party key => ?_⟩
    rw [Limiter.costOn_append, h.costOn_eq_zero hServed, Nat.zero_add]
    exact costOn_charged hFor hCaller _ party key
  · cases hReply.symm.trans (reply_of_mem h.replies hMem (by simp))

/-- A request that has failed returns the place of its caller for nothing. -/
theorem TellsWhole.fail {route : Route Response} {fault : RoutingError}
    (h : Underway request callerPlace? turns route)
    (hFailed : route.dispatch.phase = .finished (.error fault)) (router : Router) (now : Instant) :
    (done : Session β).TellsWhole request callerPlace?
      (turns ++ [⟨router, now, .whole route, .finish⟩]) := by
  have hReply : Turn.reply ⟨router, now, (whole route : Session β), .finish⟩ = .failed fault := by
    simp only [Turn.reply, Session.act, hFailed]
  have hEvent : Turn.event? ⟨router, now, (whole route : Session β), .finish⟩ = none := by
    simp only [Turn.event?, Session.event?, hFailed]
  have hReturns : Turn.returns ⟨router, now, (whole route : Session β), .finish⟩ =
      callerPlace?.toList.map fun place => (place, 0) := by
    simp [Turn.returns, Session.returns, limiterMoves, Limiter.Move.returns, place?, Route.place?,
      hFailed, h.caller]
  refine ⟨fun routed hMem => ?_, fun error hMem => ?_⟩
  · cases hReply.symm.trans (reply_of_mem h.replies hMem (by simp))
  · rw [filterMap_concat, filterMap_concat, h.events, hEvent, flatMap_concat, hReturns]
    refine ⟨rfl, fun party key => ?_⟩
    have hFree : Limiter.costOn (callerPlace?.toList.map fun place => (place, 0)) party key = 0 :=
      tally_eq_zero fun place hMem => by
        obtain ⟨admission, _, rfl⟩ := List.mem_map.mp hMem
        exact ite_self _
    rw [Limiter.costOn_append, h.dispatch.kept, hFree]
    exact congrArg (keptOn request · party key) (List.append_nil _).symm

/-- The outcome of a request is taken, and with it all its places have come back. -/
theorem TellsWhole.finish {route : Route Response}
    (h : Underway request callerPlace? turns route) (hPlaced : route.dispatch.Placed request)
    (hCaller : ∀ place, callerPlace? = some place → place.IsForCaller request)
    (router : Router) (now : Instant) :
    ((whole route : Session β).act router now .finish).2.1.TellsWhole request callerPlace?
      (turns ++ [⟨router, now, .whole route, .finish⟩]) := by
  obtain ⟨hFor, hRequest⟩ := hPlaced
  cases hPhase : route.dispatch.phase with
  | finished outcome =>
      have hNext : ((whole route : Session β).act router now .finish).2.1 = .done := by
        cases outcome <;> simp only [Session.act, hPhase]
      rw [hNext]
      cases outcome with
      | ok delivery =>
          rw [hPhase] at hFor
          exact TellsWhole.serve h hRequest hPhase hFor hCaller router now
      | error fault => exact TellsWhole.fail h hPhase router now
  | _ =>
      refine @TellsWhole.idle β request turns callerPlace? ⟨router, now, whole route, .finish⟩ h
        ⟨?_, ?_, rfl, ?_, ?_⟩
      all_goals
        simp only [Turn.next, Turn.reply, Turn.event?, Turn.returns, Session.act, Session.event?,
          Session.returns, limiterMoves, hPhase, List.flatMap_nil]

theorem TellsWhole.turn (h : session.TellsWhole request callerPlace? turns)
    (hPlaced : session.Placed request)
    (hCaller : ∀ place, callerPlace? = some place → place.IsForCaller request)
    (router : Router) (now : Instant) (move : Move β) :
    (session.act router now move).2.1.TellsWhole request callerPlace?
      (turns ++ [⟨router, now, session, move⟩]) := by
  cases session with
  | whole route =>
      cases move with
      | step random => exact Underway.step h rfl rfl rfl rfl
      | answerWhole ended => exact Underway.answer h hPlaced rfl rfl rfl rfl
      | finish => exact TellsWhole.finish h hPlaced hCaller router now
      | drop =>
          refine ⟨fun routed hMem => ?_, fun error hMem => ?_⟩
          · cases reply_of_mem h.replies hMem (by simp)
          · cases reply_of_mem h.replies hMem (by simp)
      | answerStream ended => exact h.idle ⟨rfl, rfl, rfl, rfl, rfl⟩
      | read arrival => exact h.idle ⟨rfl, rfl, rfl, rfl, rfl⟩
  | done => cases move <;> exact h.idle ⟨rfl, rfl, rfl, rfl, rfl⟩
  | opening route => exact h.elim
  | reading stream => exact h.elim

/-- A request of which something has been told is over. -/
theorem TellsWhole.done_of_reply (h : session.TellsWhole request callerPlace? turns) {reply : Reply}
    (hMem : reply ∈ turns.map Turn.reply) (hSome : reply ≠ .nothing) : session = .done := by
  cases session with
  | whole route =>
      obtain ⟨turn, hTurn, hReply⟩ := List.mem_map.mp hMem
      exact absurd (hReply.symm.trans (h.replies turn hTurn)) hSome
  | done => rfl
  | opening route => exact h.elim
  | reading stream => exact h.elim

theorem Path.tellsWhole (h : Path router false request start turns session) :
    session.TellsWhole request (router.callerPlace? request start) turns := by
  induction h with
  | begin => exact tellsWhole_begin router request start
  | turn prior meanwhile now move ih =>
      exact ih.turn prior.placed.1 (fun _ => Router.isForCaller) meanwhile now move

end Session

namespace Gateway

variable {β : Type} {settings : Settings} {before gateway : Gateway β} {request : Request}
  {start : Instant} {turns : List (Session.Turn β)}

/-- When a whole request is over, what it was counted as and charged stands beside what all others
stand for, in the window of its places. It is counted as one request for each of its calls and for
its caller. If it was served, the deployment that served it and its caller are charged with the
tokens that were reported, or else estimated, no other deployment is charged, and that is the one
cost that is reported. If it failed, no cost is reported and nobody is charged, but that a call
that was cut off at the end of the request keeps its estimate. A cost that is reported comes into
the queue of the router behind all that wait there, if there is room, and nothing else does. -/
theorem Follows.costs_agree (hBefore : Reachable settings before)
    (hAdmitted : (before.router.reserveCaller request start).2.toOption.isSome = true)
    (h : Follows before false request start turns gateway) :
    let number := before.sessions.length
    let limited := before.router.limits request
    let calls := turns.filterMap Session.Turn.sent?
    before.Shows settings number (fun _ _ => 0) (fun _ _ => 0) ∧
      (∀ routed, .response routed ∈ turns.map Session.Turn.reply →
        turns.filterMap Session.Turn.event? = [routed.event request] ∧
          gateway.Shows settings number (countedOn limited calls)
            (chargedOn limited routed.deployment (routed.event request).tokens)) ∧
      (∀ error, .failed error ∈ turns.map Session.Turn.reply →
        turns.filterMap Session.Turn.event? = [] ∧
          gateway.Shows settings number (countedOn limited calls)
            (keptOn request (turns.filterMap Session.Turn.ended?))) ∧
      (∀ turn ∈ turns, turn.after.spend = (turn.router.notifySome turn.event?).spend ∧
        Option.Rel (SpendQueue.Takes turn.event?) turn.router.spend turn.after.spend) ∧
      ∀ move now, ((gateway.act number move now).log settings).grants.filter (·.holder != number) =
        (gateway.log settings).grants.filter (·.holder != number) := by
  intro number limited calls
  obtain ⟨session, hSession, hPath⟩ := h.path
  have hTells := hPath.tellsWhole
  -- Once something has been told, all places are back.
  have hShows : ∀ {reply : Reply} {tokens : Party → String → Nat},
      reply ∈ turns.map Session.Turn.reply → reply ≠ .nothing →
      (∀ party key, Limiter.costOn (turns.flatMap Session.Turn.returns) party key =
        tokens party key) →
      gateway.Shows settings number (countedOn limited calls) tokens := fun hMem hSome =>
    h.shows hBefore hAdmitted hSession hMem hSome fun _ => by
      rw [hTells.done_of_reply hMem hSome]
      rfl
  refine ⟨hBefore.shows_before, fun routed hMem => ?_, fun error hMem => ?_,
    fun turn _ => ⟨turn.session.spend_act turn.router turn.now turn.move,
      turn.session.takes_act turn.router turn.now turn.move⟩, grants_act gateway number⟩
  · rw [hTells.done_of_reply hMem (by simp)] at hTells
    obtain ⟨hAnswered, _⟩ := hTells
    obtain ⟨hEvents, hCosts⟩ := hAnswered routed hMem
    rw [Router.callerPlace?_any hAdmitted] at hCosts
    exact ⟨hEvents, hShows hMem (by simp) hCosts⟩
  · rw [hTells.done_of_reply hMem (by simp)] at hTells
    obtain ⟨_, hFailed⟩ := hTells
    obtain ⟨hEvents, hCosts⟩ := hFailed error hMem
    exact ⟨hEvents, hShows hMem (by simp) hCosts⟩

/-- Two requests of one caller that is limited. -/
def sharedCaller (estimate : Nat) : Request where
  model := "m"
  payload := .null
  caller := some "c"
  deadline := 100
  estimate := estimate

/-- A router that limits the caller and reports costs. -/
def billingRouter : Router :=
  { pairRouter with
    callerLimits := Table.ofList [("c", { parallel := some 2 })]
    spend := some (SpendQueue.new 4) }

/-- The first of the two has begun. -/
def sharedStart : Gateway Unit := Gateway.begin { router := billingRouter } false (sharedCaller 5) 0

theorem reachable_sharedStart : Reachable { strategy := .roundRobin } sharedStart :=
  (Reachable.start.manage billingRouter [] rfl).begin false (sharedCaller 5) 0

/-- The call of the first one goes out after that of the second one, which is busy, and is still out
when the second one has been served elsewhere. -/
def sharedMoves : List (Nat × Session.Move Unit × Instant) :=
  [(1, .step {}, 1), (1, .step {}, 2), (1, .step {}, 3), (0, .step {}, 4), (0, .step {}, 5),
    (0, .step {}, 6), (1, .answerWhole (.failure (.server 503 "busy")), 10), (1, .step {}, 11),
    (1, .step {}, 12), (1, .step {}, 13),
    (1, .answerWhole (.success { payload := .null, usage := some ⟨4, 6⟩ }), 20), (1, .finish, 21)]

def sharedRun : List (Session.Turn Unit) × Gateway Unit :=
  along 1 sharedMoves ([], sharedStart.begin false (sharedCaller 7) 0)

/-- Beside the five tokens of the first request there are ten of the second one, on the deployment
that served it and for the caller of both. The busy deployment has one more request and no token.
The ten tokens wait in the queue. -/
theorem Follows.costs_agree_shared :
    ∃ (turns : List (Session.Turn Unit)) (gateway : Gateway Unit),
      Follows sharedStart false (sharedCaller 7) 0 turns gateway ∧
        turns.filterMap Session.Turn.event? =
          [{ caller := some "c", deployment := "d2", model := "m", tokens := 10 }] ∧
        (gateway.router.limiter.load .deployment "d2" 30).tokens = 5 + 10 ∧
        (gateway.router.limiter.load .caller "c" 30).tokens = 5 + 10 ∧
        (gateway.router.limiter.load .deployment "d1" 30).requests = 0 + 1 ∧
        (gateway.router.limiter.load .deployment "d1" 30).tokens = 0 + 0 ∧
        gateway.router.spend.map SpendQueue.waiting =
          some [{ caller := some "c", deployment := "d2", model := "m", tokens := 10 }] := by
  have hFollows : Follows sharedStart false (sharedCaller 7) 0 sharedRun.1 sharedRun.2 :=
    Follows.begin.along sharedMoves
  obtain ⟨_, hAnswered, _⟩ := hFollows.costs_agree reachable_sharedStart (by decide +kernel)
  have hTold : sharedRun.1.any (fun turn => match turn.reply with
      | .response routed =>
          routed.event (sharedCaller 7) ==
            { caller := some "c", deployment := "d2", model := "m", tokens := 10 }
      | _ => false) = true := by decide +kernel
  obtain ⟨turn, hTurn, hReply⟩ := List.any_eq_true.mp hTold
  split at hReply
  next routed hRouted =>
    have hEvent := eq_of_beq hReply
    have hDeployment : routed.deployment = "d2" := congrArg SpendEvent.deployment hEvent
    obtain ⟨hEvents, hShows⟩ := hAnswered routed (List.mem_map.mpr ⟨turn, hTurn, hRouted⟩)
    rw [hEvent] at hEvents hShows
    rw [hDeployment] at hShows
    obtain ⟨_, hServed⟩ := hShows .deployment "d2" 30 (by decide +kernel)
    obtain ⟨_, hCaller⟩ := hShows .caller "c" 30 (by decide +kernel)
    obtain ⟨hBusy, hFree⟩ := hShows .deployment "d1" 30 (by decide +kernel)
    refine ⟨_, _, hFollows, hEvents, hServed.trans ?_, hCaller.trans ?_, hBusy.trans ?_,
      hFree.trans ?_, ?_⟩
    all_goals decide +kernel
  next => cases hReply

end Gateway

end DeploymentRouting
