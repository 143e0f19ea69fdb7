import DeploymentRouting.Proofs.Dispatch.Candidates
import DeploymentRouting.Proofs.Gateway.Cooperation
import DeploymentRouting.Proofs.Gateway.Places
/-!
What a request changes in its router: the limiter, the rotation, and the health record of the
deployment at hand. When it has been served its cost is reported. All else stays as it is.
-/
namespace DeploymentRouting

universe u

/-- No health record but that of a deployment, if there is one, is another than before. -/
def HealthTracker.KeepsBeside (target? : Option Deployment) (before after : HealthTracker) :
    Prop :=
  ∀ id, (∀ target, target? = some target → target.id ≠ id) →
    after.records.get? id = before.records.get? id

namespace Router

/-- A router with another limiter, another rotation, and other records of one deployment. -/
def ChangesAt (target? : Option Deployment) (router after : Router) : Prop :=
  ∃ limiter cursors health, after = { router with limiter, cursors, health } ∧
    router.health.KeepsBeside target? health

variable {target? : Option Deployment} {router middle after : Router}

theorem ChangesAt.trans (first : ChangesAt target? router middle)
    (second : ChangesAt target? middle after) : ChangesAt target? router after := by
  obtain ⟨_, _, _, rfl, hFirst⟩ := first
  obtain ⟨_, _, _, rfl, hSecond⟩ := second
  exact ⟨_, _, _, rfl, fun id hOther => (hSecond id hOther).trans (hFirst id hOther)⟩

theorem changesAt_places (limiter : Limiter) (cursors : Cursors) :
    ChangesAt target? router { router with limiter, cursors } :=
  ⟨_, _, _, rfl, fun _ _ => rfl⟩

/-- An outcome changes the record of its deployment. -/
theorem changesAt_addOutcome (router : Router) (target : Deployment) (outcome : Outcome)
    (now : Instant) :
    ChangesAt (some target) router (router.addOutcome target.id outcome now).1 := by
  refine ⟨_, _, (router.health.addOutcome target.id outcome now).1, rfl, fun id hOther => ?_⟩
  exact (Table.get?_insert ..).trans (if_neg fun hId => hOther target rfl hId.symm)

/-- So does a latency. -/
theorem changesAt_addLatency (router : Router) (target : Deployment) (latency : Duration) :
    ChangesAt (some target) router (router.addLatency target.id latency) := by
  refine ⟨_, _, router.health.addLatency target.id latency, rfl, fun id hOther => ?_⟩
  exact (Table.get?_insert ..).trans (if_neg fun hId => hOther target rfl hId.symm)

end Router

open Router

section Places

variable (router : Router) (now : Instant)

theorem Router.settleSome_eq (admission : Option Admission) (actual : Nat) :
    ∃ limiter, router.settleSome admission actual now = { router with limiter } := by
  cases admission <;> exact ⟨_, rfl⟩

theorem Router.abandonSome_eq (admission : Option Admission) :
    ∃ limiter, router.abandonSome admission now = { router with limiter } := by
  cases admission <;> exact ⟨_, rfl⟩

theorem Router.reserveCaller_eq (request : Request) :
    ∃ limiter, (router.reserveCaller request now).1 = { router with limiter } := by
  unfold reserveCaller
  split
  · exact ⟨_, rfl⟩
  · split
    · exact ⟨_, rfl⟩
    · split <;> exact ⟨_, rfl⟩

theorem Route.cancel_eq {α : Type u} (route : Route α) :
    ∃ limiter, route.cancel router now = { router with limiter } := by
  have hDispatch : ∃ limiter, route.dispatch.cancel router now = { router with limiter } := by
    unfold Dispatch.cancel
    split <;> exact ⟨_, rfl⟩
  obtain ⟨given, hGiven⟩ := hDispatch
  obtain ⟨limiter, hLimiter⟩ :=
    Router.abandonSome_eq { router with limiter := given } now route.callerAdmission
  exact ⟨limiter, by rw [Route.cancel, hGiven, hLimiter]⟩

theorem RoutedStream.drop_eq (stream : RoutedStream) :
    ∃ limiter, stream.drop router now = { router with limiter } := by
  obtain ⟨limiter, hLimiter⟩ :=
    Router.abandonSome_eq (router.abandon stream.admission now) now stream.callerAdmission
  unfold RoutedStream.drop
  split
  · exact ⟨_, rfl⟩
  · exact ⟨limiter, hLimiter⟩
  · exact ⟨limiter, hLimiter⟩
  · exact ⟨limiter, hLimiter⟩

/-- To settle what was served changes the limiter and reports the cost. -/
theorem settleServed_eq (request : Request) (callerAdmission : Option Admission)
    (admission : Admission) (deployment modelUsed : String) (usage : Option TokenUsage) :
    ∃ limiter,
      settleServed router now request callerAdmission admission deployment modelUsed usage =
        Router.notifySpend { router with limiter }
          { caller := request.caller, deployment, model := modelUsed
            tokens := chargedTokens request usage } := by
  obtain ⟨limiter, hLimiter⟩ :=
    Router.settleSome_eq (router.settle admission (chargedTokens request usage) now) now
      callerAdmission (chargedTokens request usage)
  exact ⟨limiter, by rw [settleServed, hLimiter]; rfl⟩

end Places

namespace Dispatch

variable {α : Type u} (dispatch : Dispatch α) (router : Router) (now : Instant)

/-- A step changes no record but that of the deployment that it asks for a place. -/
theorem changesAt_step (random : RandomSource) :
    ChangesAt dispatch.target? router (dispatch.step router now random).1 := by
  unfold Dispatch.step
  cases hPhase : dispatch.phase with
  | reserving looked deployment =>
      have hTarget : dispatch.target? = some deployment := by simp only [target?, hPhase]
      simp only [hTarget, Dispatch.reserve, Router.reserve]
      cases (router.limiter.reserve .deployment deployment.id deployment.limits
        dispatch.request.estimate looked).2 with
      | error refusal =>
          exact (changesAt_places _ _).trans (changesAt_addOutcome _ deployment .rateLimited looked)
      | ok admission => exact changesAt_places _ _
  | _ => exact changesAt_places _ _

/-- A failure changes the record of the deployment that was called. -/
theorem changesAt_fail (call : PendingCall) (error : BackendError) :
    ChangesAt (some call.deployment) router (dispatch.fail router now call error).1 := by
  have hFailed : ChangesAt (some call.deployment) router
      ((router.settle call.admission 0 now).addOutcome call.deployment.id error.outcome now).1 :=
    (changesAt_places _ _).trans (changesAt_addOutcome _ call.deployment error.outcome now)
  simp only [Dispatch.fail]
  split <;> exact hFailed

/-- However a call ends, no other record is changed. -/
theorem changesAt_answer (ended : CallEnd α) :
    ChangesAt dispatch.target? router (dispatch.answer router now ended).1 := by
  unfold Dispatch.answer
  cases hPhase : dispatch.phase with
  | calling call =>
      have hTarget : dispatch.target? = some call.deployment := by simp only [target?, hPhase]
      simp only [hTarget]
      cases ended with
      | success value =>
          exact (changesAt_addLatency router call.deployment (now - call.start)).trans
            (changesAt_addOutcome _ call.deployment .success now)
      | failure error => exact dispatch.changesAt_fail router now call error
      | cutOff =>
          simp only [Dispatch.cutOff]
          split
          · exact (changesAt_places _ _).trans
              (changesAt_addOutcome _ call.deployment .retriableError now)
          · exact dispatch.changesAt_fail router now call _
  | _ => exact changesAt_places _ _

end Dispatch

/-- Reports an event, if there is one. -/
def Router.notifySome (router : Router) (event : Option SpendEvent) : Router :=
  event.elim router router.notifySpend

/-- What a queue holds once it has been offered an event, or nothing. The event comes behind those
that wait, unless the queue is closed or full, and then it is lost. -/
structure SpendQueue.Takes (event? : Option SpendEvent) (queue after : SpendQueue) : Prop where
  capacity : after.capacity = queue.capacity
  closed : after.closed = queue.closed
  roomy : queue.closed = false → queue.waiting.length < queue.capacity →
    after.waiting = queue.waiting ++ event?.toList
  full : queue.closed = true ∨ queue.capacity ≤ queue.waiting.length →
    after.waiting = queue.waiting

/-- A queue that is offered nothing stays as it is. -/
theorem SpendQueue.takes_none (queue : SpendQueue) : Takes none queue queue :=
  ⟨rfl, rfl, fun _ _ => (List.append_nil _).symm, fun _ => rfl⟩

/-- An event that is offered is taken where there is room. -/
theorem SpendQueue.takes_offer (queue : SpendQueue) (event : SpendEvent) :
    Takes (some event) queue (queue.offer event).1 := by
  by_cases hFull : queue.closed = true ∨ queue.capacity ≤ queue.waiting.length
  · have hOffer : queue.offer event = (queue, false) := if_pos (by simpa using hFull)
    rw [hOffer]
    refine ⟨rfl, rfl, fun hOpen hRoom => ?_, fun _ => rfl⟩
    rcases hFull with hClosed | hNone
    · exact absurd hClosed (Bool.eq_false_iff.mp hOpen)
    · exact absurd hRoom (Nat.not_lt.mpr hNone)
  · have hOffer : queue.offer event =
        ({ queue with waiting := queue.waiting ++ [event] }, true) := if_neg (by simpa using hFull)
    rw [hOffer]
    exact ⟨rfl, rfl, fun _ _ => rfl, fun hNone => absurd hNone hFull⟩

/-- A router that has a queue offers it the event, and one that has none does not get one. -/
theorem Router.takes_notifySome (router : Router) (event? : Option SpendEvent) :
    Option.Rel (SpendQueue.Takes event?) router.spend (router.notifySome event?).spend := by
  cases event? with
  | none =>
      change Option.Rel _ router.spend router.spend
      cases router.spend with
      | none => exact .none
      | some queue => exact .some queue.takes_none
  | some event =>
      change Option.Rel _ router.spend (router.spend.map fun queue => (queue.offer event).1)
      cases router.spend with
      | none => exact .none
      | some queue => exact .some (queue.takes_offer event)

namespace Session

variable {β : Type}

/-- The deployment that a session has chosen and whose call has not yet returned. -/
def target? : Session β → Option Deployment := view Dispatch.target? none

/-- The event that a move of a session reports: that of a whole response that is taken, or of a
stream that comes to its end. -/
def event? : Session β → Move β → Option SpendEvent
  | .whole route, .finish =>
      match route.dispatch.phase with
      | .finished (.ok delivery) =>
          some {
            caller := route.dispatch.request.caller
            deployment := delivery.deployment.id
            model := delivery.modelUsed
            tokens := chargedTokens route.dispatch.request delivery.value.usage }
      | _ => none
  | .reading stream, .read arrival =>
      if stream.closesOn arrival then
        some {
          caller := stream.request.caller
          deployment := stream.deployment
          model := stream.modelUsed
          tokens := chargedTokens stream.request stream.usage }
      else none
  | _, _ => none

/-- A move changes the limiter, the rotation and the record of the deployment at hand, and then
reports its event. -/
theorem act_eq (router : Router) (now : Instant) (session : Session β) (move : Move β) :
    ∃ changed, ChangesAt session.target? router changed ∧
      (session.act router now move).1 = changed.notifySome (session.event? move) := by
  have hStays : ∀ limiter, ChangesAt session.target? router { router with limiter } :=
    fun limiter => changesAt_places limiter router.cursors
  cases session with
  | whole route =>
      cases move with
      | step random => exact ⟨_, route.dispatch.changesAt_step router now random, rfl⟩
      | answerWhole ended => exact ⟨_, route.dispatch.changesAt_answer router now ended, rfl⟩
      | drop =>
          obtain ⟨limiter, hCancel⟩ := route.cancel_eq router now
          exact ⟨_, hStays limiter, hCancel⟩
      | finish =>
          cases hPhase : route.dispatch.phase with
          | finished outcome =>
              simp only [Session.act, event?, hPhase]
              cases outcome with
              | ok delivery =>
                  obtain ⟨limiter, hServed⟩ := settleServed_eq router now route.dispatch.request
                    route.callerAdmission delivery.admission delivery.deployment.id
                    delivery.modelUsed delivery.value.usage
                  exact ⟨_, hStays limiter, hServed⟩
              | error error =>
                  obtain ⟨limiter, hFailed⟩ := router.settleSome_eq now route.callerAdmission 0
                  exact ⟨_, hStays limiter, hFailed⟩
          | _ =>
              simp only [Session.act, event?, hPhase]
              exact ⟨_, hStays _, rfl⟩
      | _ => exact ⟨_, hStays _, rfl⟩
  | opening route =>
      cases move with
      | step random => exact ⟨_, route.dispatch.changesAt_step router now random, rfl⟩
      | answerStream ended => exact ⟨_, route.dispatch.changesAt_answer router now ended, rfl⟩
      | drop =>
          obtain ⟨limiter, hCancel⟩ := route.cancel_eq router now
          exact ⟨_, hStays limiter, hCancel⟩
      | finish =>
          -- A stream that opens has cost nothing yet.
          obtain ⟨limiter, hFailed⟩ := router.settleSome_eq now route.callerAdmission 0
          simp only [Session.act, event?]
          split
          · exact ⟨_, hStays _, rfl⟩
          · exact ⟨_, hStays limiter, hFailed⟩
          · exact ⟨_, hStays _, rfl⟩
      | _ => exact ⟨_, hStays _, rfl⟩
  | reading stream =>
      cases move with
      | read arrival =>
          simp only [Session.act, event?]
          cases hCloses : stream.closesOn arrival with
          | true =>
              obtain ⟨limiter, hServed⟩ := settleServed_eq router now stream.request
                stream.callerAdmission stream.admission stream.deployment stream.modelUsed
                stream.usage
              rw [stream.read_closing hCloses]
              exact ⟨_, hStays limiter, hServed⟩
          | false =>
              rw [(stream.read_open hCloses router now).1]
              exact ⟨_, hStays _, rfl⟩
      | drop =>
          obtain ⟨limiter, hDrop⟩ := stream.drop_eq router now
          exact ⟨_, hStays limiter, hDrop⟩
      | _ => exact ⟨_, hStays _, rfl⟩
  | done => exact ⟨_, hStays _, rfl⟩

variable (router : Router) (now : Instant) (session : Session β) (move : Move β)

/-- The queue of events changes by the event of the move alone. -/
theorem spend_act :
    (session.act router now move).1.spend = (router.notifySome (session.event? move)).spend := by
  obtain ⟨changed, ⟨limiter, cursors, health, rfl, _⟩, hAct⟩ := session.act_eq router now move
  rw [hAct]
  cases session.event? move <;> rfl

/-- So a move offers its event, if it has one, to the queue and nothing else. -/
theorem takes_act :
    Option.Rel (SpendQueue.Takes (session.event? move)) router.spend
      (session.act router now move).1.spend := by
  rw [session.spend_act]
  exact router.takes_notifySome _

/-- A move keeps all records but that of the deployment at hand. -/
theorem keepsBeside_act :
    router.health.KeepsBeside session.target? (session.act router now move).1.health := by
  obtain ⟨changed, ⟨limiter, cursors, health, rfl, hKeeps⟩, hAct⟩ := session.act_eq router now move
  rw [hAct]
  cases session.event? move <;> exact hKeeps

end Session

end DeploymentRouting
