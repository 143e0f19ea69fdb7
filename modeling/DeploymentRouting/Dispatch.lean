import DeploymentRouting.Router
/-!
The way of one request through deployments and fallback models, as a machine that
stops at every call of a backend. The machine goes through a chain of models. For
each of them it has a budget of attempts: an attempt chooses a deployment, asks it
for a place, and calls it. In a first pass every attempt goes to a deployment not
yet tried for that model; when none of those is left, a second pass may go back.

`step` is one atomic step on the router's state and `answer` the return of a call.
Between two steps others may change that state. `advance` makes steps until a call
is out or the request is done.
-/
namespace DeploymentRouting

universe u v

/-- How the call of a backend ended. -/
inductive CallEnd (α : Type u) where
  | success (value : α)
  | failure (error : BackendError)
  /-- It was still unfinished at its deadline. -/
  | cutOff

/-- A call that is out. -/
structure PendingCall where
  deployment : Deployment
  admission : Admission
  start : Instant
  deadline : Instant

/-- A call that succeeded. Its place is still taken. -/
structure Delivery (α : Type u) where
  value : α
  admission : Admission
  deployment : Deployment
  /-- The model of the chain that was being served. -/
  modelUsed : String
  /-- Attempts for all models of the chain. -/
  attempts : Nat
  usedFallback : Bool
  /-- Time since the request began. -/
  latency : Duration

/-- Where a request is. -/
inductive Phase (α : Type u) where
  /-- It goes on to the next model of its chain. -/
  | entering
  /-- It looks whether attempts and time are left. -/
  | checking
  /-- It chooses a deployment, with the instant of its last look at the clock. -/
  | selecting (now : Instant)
  /-- It asks the chosen deployment for a place. -/
  | reserving (now : Instant) (deployment : Deployment)
  | calling (call : PendingCall)
  | finished (outcome : Except RoutingError (Delivery α))
  /-- The whole program has ended, since a choice overflowed, or since no clock can show the end
  of the call of a deployment that has given its place. -/
  | halted (stranded : Option (Deployment × Admission))

structure Dispatch (α : Type u) where
  request : Request
  start : Instant
  phase : Phase α
  /-- The model at hand. -/
  entry : String
  usedFallback : Bool := false
  /-- Models of the chain that come after it. -/
  ahead : List String := []
  /-- Deployments tried for the model at hand. -/
  tried : List String := []
  /-- Attempts for the model at hand. They stay within the budget, which a 32-bit counter holds. -/
  entryAttempts : Nat := 0
  /-- Calls for the model at hand, of which there are no more than attempts. -/
  entryCalls : Nat := 0
  /-- Whether deployments already tried count again. -/
  retryPass : Bool := false
  /-- Attempts for the models before, as a 32-bit counter shows them. -/
  attempts : Nat := 0
  /-- Calls for the models before, as a 32-bit counter shows them. -/
  calls : Nat := 0
  lastError : Option BackendError := none

namespace Dispatch

variable {α : Type u}

/-- Starts on a request. The chain begins with the model that the requested name stands for,
and there is nothing to do if no deployment is registered for it. -/
def begin (router : Router) (request : Request) (now : Instant) : Dispatch α :=
  let primary := router.registry.resolve request.model
  if (router.registry.candidates primary).isEmpty then
    { request, start := now, entry := primary
      phase := .finished (.error (.noDeployments request.model)) }
  else
    { request, start := now, entry := primary, phase := .checking
      ahead := (router.fallbacks.chain primary router.settings.maxFallbackDepth).tail }

/-- Attempts so far, for all models, as a 32-bit counter shows them. -/
def totalAttempts (dispatch : Dispatch α) : Nat :=
  Counter.wrap32 (dispatch.attempts + dispatch.entryAttempts)

/-- Deployments that the next choice leaves out. -/
def exclusions (dispatch : Dispatch α) : List String :=
  if dispatch.retryPass then dispatch.request.excluded
  else dispatch.request.excluded ++ dispatch.tried

def finish (dispatch : Dispatch α) (outcome : Except RoutingError (Delivery α)) : Dispatch α :=
  { dispatch with phase := .finished outcome }

/-- Leaves the model at hand. -/
def leave (dispatch : Dispatch α) : Dispatch α :=
  { dispatch with
    phase := .entering
    attempts := dispatch.totalAttempts
    calls := Counter.wrap32 (dispatch.calls + dispatch.entryCalls)
    entryAttempts := 0
    entryCalls := 0
    tried := []
    retryPass := false }

/-- Goes on to the next model. One without deployments is passed over, and after the last one
the request has failed. -/
def enter (router : Router) (dispatch : Dispatch α) : Dispatch α :=
  match dispatch.ahead with
  | [] =>
      dispatch.finish (.error (
        if 0 < dispatch.calls then
          .retriesExhausted dispatch.request.model dispatch.attempts dispatch.lastError
        else .allUnavailable dispatch.request.model))
  | model :: ahead =>
      if (router.registry.candidates model).isEmpty then { dispatch with ahead }
      else { dispatch with ahead, entry := model, usedFallback := true, phase := .checking }

/-- Looks whether attempts and time are left. -/
def check (maxAttempts : Nat) (now : Instant) (dispatch : Dispatch α) : Dispatch α :=
  if maxAttempts ≤ dispatch.entryAttempts then dispatch.leave
  else if dispatch.request.isExpired now then
    dispatch.finish (.error (.deadlineExceeded dispatch.request.model dispatch.totalAttempts))
  else { dispatch with phase := .selecting now }

/-- Goes on with a choice. The second pass begins when the first one finds nothing more, and
what was found before may be tried again. -/
def withSelection (now : Instant) (dispatch : Dispatch α) : Selection → Dispatch α
  | .chosen deployment =>
      { dispatch with
        phase := .reserving now deployment
        entryAttempts := dispatch.entryAttempts + 1
        tried := deployment.id :: dispatch.tried }
  | .noneEligible =>
      if !dispatch.retryPass && !dispatch.tried.isEmpty then
        { dispatch with retryPass := true, phase := .checking }
      else dispatch.leave
  | .overflow => { dispatch with phase := .halted none }

/-- Asks for a place and sends the call. A refusal counts as a rate limit of the deployment.
The instant of the last look at the clock decides on the place and on the deadline of the
call, and the present is its start. Where no clock can show that deadline the program ends, with
the place taken. -/
def reserve (router : Router) (now : Instant) (looked : Instant) (deployment : Deployment)
    (dispatch : Dispatch α) : Router × Dispatch α :=
  match router.reserve deployment dispatch.request.estimate looked with
  | (router, .error _) =>
      let (router, _) := router.addOutcome deployment.id .rateLimited looked
      (router, { dispatch with phase := .checking })
  | (router, .ok admission) =>
      (router,
        if deployment.timeoutFits looked then
          { dispatch with
            entryCalls := dispatch.entryCalls + 1
            phase := .calling
              { deployment, admission, start := now
                deadline := deployment.callDeadline dispatch.request.deadline looked } }
        else { dispatch with phase := .halted (some (deployment, admission)) })

/-- A deployment that is asked for a place refuses it, or is called, or cannot be called. -/
theorem reserve_cases (router : Router) (now : Instant) (looked : Instant)
    (deployment : Deployment) (dispatch : Dispatch α) :
    (∃ after refusal,
      router.reserve deployment dispatch.request.estimate looked = (after, .error refusal) ∧
        dispatch.reserve router now looked deployment =
          ((after.addOutcome deployment.id .rateLimited looked).1,
            { dispatch with phase := .checking })) ∨
      (∃ after admission,
        router.reserve deployment dispatch.request.estimate looked = (after, .ok admission) ∧
          deployment.timeoutFits looked = true ∧
          dispatch.reserve router now looked deployment =
            (after,
              { dispatch with
                entryCalls := dispatch.entryCalls + 1
                phase := .calling
                  { deployment, admission, start := now
                    deadline := deployment.callDeadline dispatch.request.deadline looked } })) ∨
      ∃ after admission,
        router.reserve deployment dispatch.request.estimate looked = (after, .ok admission) ∧
          deployment.timeoutFits looked = false ∧
          dispatch.reserve router now looked deployment =
            (after, { dispatch with phase := .halted (some (deployment, admission)) }) := by
  unfold Dispatch.reserve
  split
  next after refusal hRefused => exact .inl ⟨after, refusal, hRefused, rfl⟩
  next after admission hGranted =>
    cases hFits : deployment.timeoutFits looked with
    | true => exact .inr (.inl ⟨after, admission, hGranted, rfl, rfl⟩)
    | false => exact .inr (.inr ⟨after, admission, hGranted, rfl, rfl⟩)

/-- One atomic step. While a call is out and after the end there is none. -/
def step (router : Router) (now : Instant) (random : RandomSource) (dispatch : Dispatch α) :
    Router × Dispatch α :=
  match dispatch.phase with
  | .entering => (router, dispatch.enter router)
  | .checking => (router, dispatch.check router.settings.maxAttempts now)
  | .selecting looked =>
      let (selection, router) :=
        router.select dispatch.entry dispatch.exclusions dispatch.request.estimate looked random
      (router, dispatch.withSelection looked selection)
  | .reserving looked deployment => dispatch.reserve router now looked deployment
  | .calling _ | .finished _ | .halted _ => (router, dispatch)

/-- The failure of a call. Its place is given back without any cost. -/
def fail (router : Router) (now : Instant) (call : PendingCall) (error : BackendError)
    (dispatch : Dispatch α) : Router × Dispatch α :=
  let router := router.settle call.admission 0 now
  let router := (router.addOutcome call.deployment.id error.outcome now).1
  if error.retriable then
    (router, { dispatch with lastError := some error, phase := .checking })
  else (router, dispatch.finish (.error (.backendRefused call.deployment.id error)))

/-- The success of a call. -/
def succeed (router : Router) (now : Instant) (call : PendingCall) (value : α)
    (dispatch : Dispatch α) : Router × Dispatch α :=
  let router := router.addLatency call.deployment.id (now - call.start)
  let router := (router.addOutcome call.deployment.id .success now).1
  (router,
    dispatch.finish (.ok
      { value
        admission := call.admission
        deployment := call.deployment
        modelUsed := dispatch.entry
        attempts := dispatch.totalAttempts
        usedFallback := dispatch.usedFallback
        latency := now - dispatch.start }))

/-- A call that was cut off. At the end of the request it is given up with its estimate, and
before that it counts as a timeout of the deployment. -/
def cutOff (router : Router) (now : Instant) (call : PendingCall) (dispatch : Dispatch α) :
    Router × Dispatch α :=
  if dispatch.request.isExpired now then
    let router := router.abandon call.admission now
    let router := (router.addOutcome call.deployment.id .retriableError now).1
    (router,
      dispatch.finish (.error (.deadlineExceeded dispatch.request.model dispatch.totalAttempts)))
  else
    dispatch.fail router now call
      (.timeout ("call to deployment " ++ call.deployment.id ++ " timed out"))

/-- The return of the call that is out. -/
def answer (router : Router) (now : Instant) (ended : CallEnd α) (dispatch : Dispatch α) :
    Router × Dispatch α :=
  match dispatch.phase with
  | .calling call =>
      match ended with
      | .success value => dispatch.succeed router now call value
      | .failure error => dispatch.fail router now call error
      | .cutOff => dispatch.cutOff router now call
  | _ => (router, dispatch)

/-- Gives up a request wherever it is. A place it still has goes back with its estimate. -/
def cancel (router : Router) (now : Instant) (dispatch : Dispatch α) : Router :=
  match dispatch.phase with
  | .calling call => router.abandon call.admission now
  | .finished (.ok delivery) => router.abandon delivery.admission now
  | .halted (some (_, admission)) => router.abandon admission now
  | _ => router

/-- Whether no step is to be made: a call is out, or the request is done. -/
def isSuspended (dispatch : Dispatch α) : Bool :=
  match dispatch.phase with
  | .calling _ | .finished _ | .halted _ => true
  | _ => false

/-- A bound on the steps up to the next call or the end. An attempt takes three steps, the
second pass two more to begin with, and leaving a model three. -/
def stepBound (maxAttempts : Nat) (dispatch : Dispatch α) : Nat :=
  (dispatch.ahead.length + 1) * (3 * maxAttempts + 6)

/-- Steps up to the next call or the end. After every step a bystander may act on the router;
it sees the request as it was before and after the step. -/
def run {σ : Type v} (now : Instant) (random : RandomSource)
    (bystander : Dispatch α → Dispatch α → Router × σ → Router × σ) :
    Nat → Router × σ → Dispatch α → (Router × σ) × Dispatch α
  | 0, state, dispatch => (state, dispatch)
  | fuel + 1, (router, others), dispatch =>
      if dispatch.isSuspended then ((router, others), dispatch)
      else
        let (router, next) := dispatch.step router now random
        run now random bystander fuel (bystander dispatch next (router, others)) next

/-- Steps up to the next call or the end, with nobody else acting in between. -/
def advance (router : Router) (now : Instant) (random : RandomSource) (dispatch : Dispatch α) :
    Router × Dispatch α :=
  let ((router, _), dispatch) :=
    run now random (fun _ _ state => state) (dispatch.stepBound router.settings.maxAttempts)
      (router, ()) dispatch
  (router, dispatch)

end Dispatch

end DeploymentRouting
