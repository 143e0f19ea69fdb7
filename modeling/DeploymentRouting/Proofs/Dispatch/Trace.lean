import DeploymentRouting.Route
/-!
The way of a request as a trace. A trace tells the calls that have come to their end, in
order, and where the request has got to. The router may be another one at each step, since
others act on it in between; only the request itself goes on from where it was.
-/
namespace DeploymentRouting

universe u v

/-- A call that was made and has come to its end. -/
structure EndedCall (α : Type u) where
  call : PendingCall
  ended : CallEnd α
  instant : Instant

/-- What the end of a call means to its request. -/
inductive Verdict (α : Type u) where
  | served (value : α)
  | failed (error : BackendError)
  /-- The request was at its own deadline. -/
  | overdue

namespace EndedCall

variable {α : Type u}

/-- A call that is cut off before the deadline of its request counts as a timeout of the
deployment. -/
def verdict (request : Request) (call : EndedCall α) : Verdict α :=
  match call.ended with
  | .success value => .served value
  | .failure error => .failed error
  | .cutOff =>
      if request.isExpired call.instant then .overdue
      else .failed (.timeout ("call to deployment " ++ call.call.deployment.id ++ " timed out"))

def error? (request : Request) (call : EndedCall α) : Option BackendError :=
  match call.verdict request with
  | .failed error => some error
  | .served _ | .overdue => none

/-- Whether a call failed in a way that allows another attempt. -/
def FailedRetriably (request : Request) (call : EndedCall α) : Prop :=
  ∃ error, call.verdict request = .failed error ∧ error.retriable = true

theorem error?_of_verdict {request : Request} {call : EndedCall α} {error : BackendError}
    (h : call.verdict request = .failed error) : call.error? request = some error := by
  simp [error?, h]

end EndedCall

namespace Dispatch

variable {α : Type u} {dispatch : Dispatch α} {call : PendingCall} {router : Router}
  {now : Instant} {ended : CallEnd α} {delivery : Delivery α}

theorem phase_fail_ne_ok (error : BackendError) :
    (dispatch.fail router now call error).2.phase ≠ .finished (.ok delivery) := by
  intro hDelivered
  simp only [Dispatch.fail] at hDelivered
  split at hDelivered <;> cases hDelivered

/-- A request is served only by a success, and the delivery tells of the call that was out. -/
theorem served_of_answer (hCall : dispatch.phase = .calling call)
    (hServed : (dispatch.answer router now ended).2.phase = .finished (.ok delivery)) :
    ∃ value, ended = .success value ∧ delivery =
      { value
        admission := call.admission
        deployment := call.deployment
        modelUsed := dispatch.entry
        attempts := dispatch.totalAttempts
        usedFallback := dispatch.usedFallback
        latency := now - dispatch.start } := by
  simp only [Dispatch.answer, hCall] at hServed
  cases ended with
  | success value =>
      cases hServed
      exact ⟨value, rfl, rfl⟩
  | failure error => exact absurd hServed (phase_fail_ne_ok error)
  | cutOff =>
      simp only [Dispatch.cutOff] at hServed
      split at hServed
      · cases hServed
      · exact absurd hServed (phase_fail_ne_ok _)

end Dispatch

namespace Route

variable {α : Type u}

/-- A request whose steps, whenever and on whatever router they were made, have led to these
calls and to this place. The instant is that of the last step. A caller that is over its
limits ends the request before it has begun. -/
inductive Trace (request : Request) :
    List (EndedCall α) → Instant → Except RoutingError (Route α) → Prop where
  | begin (router : Router) (now : Instant) :
      Trace request [] now (Route.begin router request now).2
  | step {calls : List (EndedCall α)} {last : Instant} {route : Route α}
      (prior : Trace request calls last (.ok route))
      (hActive : route.dispatch.isSuspended = false)
      (router : Router) (now : Instant) (random : RandomSource) :
      Trace request calls now
        (.ok { route with dispatch := (route.dispatch.step router now random).2 })
  | answer {calls : List (EndedCall α)} {last : Instant} {route : Route α} {call : PendingCall}
      (prior : Trace request calls last (.ok route))
      (hCall : route.dispatch.phase = .calling call)
      (router : Router) (now : Instant) (ended : CallEnd α) :
      Trace request (calls ++ [⟨call, ended, now⟩]) now
        (.ok { route with dispatch := (route.dispatch.answer router now ended).2 })

/-- The outcome of a request that has one. -/
def outcome? : Except RoutingError (Route α) → Option (Except RoutingError (Delivery α))
  | .error error => some (.error error)
  | .ok route =>
      match route.dispatch.phase with
      | .finished outcome => some outcome
      | _ => none

/-- A run up to the next call or the end makes a trace longer, whatever a bystander does to the
router between its steps. -/
theorem Trace.run {σ : Type v} {request : Request} {calls : List (EndedCall α)}
    {last : Instant} {route : Route α} (h : Trace request calls last (.ok route))
    (now : Instant) (random : RandomSource)
    (bystander : Dispatch α → Dispatch α → Router × σ → Router × σ) (fuel : Nat)
    (state : Router × σ) :
    ∃ last, Trace request calls last
      (.ok { route with
        dispatch := (Dispatch.run now random bystander fuel state route.dispatch).2 }) := by
  induction fuel generalizing last route state with
  | zero => exact ⟨last, h⟩
  | succ fuel ih =>
      obtain ⟨router, others⟩ := state
      simp only [Dispatch.run]
      split
      next => exact ⟨last, h⟩
      next hActive =>
        exact ih (h.step (Bool.eq_false_iff.mpr hActive) router now random) _

end Route

def pairDeployment (id : String) : Deployment where
  id := id
  modelNames := ["m"]
  provider := .openai
  model := "m-1"

/-- A router with two deployments of one model. -/
def pairRouter : Router :=
  { Router.new { strategy := .roundRobin } with
    registry :=
      { records := Table.ofList [("d1", pairDeployment "d1"), ("d2", pairDeployment "d2")]
        index := Table.ofList [("m", ["d1", "d2"])] } }

end DeploymentRouting
