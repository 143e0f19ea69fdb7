import DeploymentRouting.Dispatch
/-!
A routed request from its first step to its last. Before the request is dispatched
its caller needs a place, if the caller has limits. In the end both places are
settled with the same number of tokens and the cost is reported. A request that
fails gives the place of its caller back without any cost.
-/
namespace DeploymentRouting

universe u

/-- A request on its way, with the place of its caller. -/
structure Route (α : Type u) where
  callerAdmission : Option Admission
  dispatch : Dispatch α

/-- What a routed request brings back, and how it came about. -/
structure Routed (α : Type u) where
  response : α
  deployment : String
  modelUsed : String
  attempts : Nat
  usedFallback : Bool
  latency : Duration

namespace Delivery

variable {α : Type u}

/-- The account of a delivery, with something in the place of its value. -/
def routed {β : Type u} (delivery : Delivery α) (response : β) : Routed β where
  response := response
  deployment := delivery.deployment.id
  modelUsed := delivery.modelUsed
  attempts := delivery.attempts
  usedFallback := delivery.usedFallback
  latency := delivery.latency

end Delivery

/-- The tokens that a call is charged: those reported, or else those estimated. -/
def chargedTokens (request : Request) (usage : Option TokenUsage) : Nat :=
  (usage.map TokenUsage.total).getD request.estimate

/-- Settles a call that was served: the place of the deployment, that of the caller, and the
report of its cost. -/
def settleServed (router : Router) (now : Instant) (request : Request)
    (callerAdmission : Option Admission) (admission : Admission) (deployment modelUsed : String)
    (usage : Option TokenUsage) : Router :=
  let tokens := chargedTokens request usage
  let router := router.settle admission tokens now
  let router := router.settleSome callerAdmission tokens now
  router.notifySpend { caller := request.caller, deployment, model := modelUsed, tokens }

namespace Route

variable {α : Type u}

/-- Begins a request with a place for its caller. -/
def begin (router : Router) (request : Request) (now : Instant) :
    Router × Except RoutingError (Route α) :=
  match router.reserveCaller request now with
  | (router, .error refusal) => (router, .error refusal)
  | (router, .ok callerAdmission) =>
      (router, .ok { callerAdmission, dispatch := Dispatch.begin router request now })

/-- Gives up a request with all the places it has. -/
def cancel (router : Router) (now : Instant) (route : Route α) : Router :=
  (route.dispatch.cancel router now).abandonSome route.callerAdmission now

/-- Ends a request that failed. -/
def settleFailure (router : Router) (now : Instant) (route : Route α) : Router :=
  router.settleSome route.callerAdmission 0 now

/-- Ends a request that brought back a whole response. -/
def settleResponse (router : Router) (now : Instant) (route : Route Response)
    (delivery : Delivery Response) : Router × Routed Response :=
  let router :=
    settleServed router now route.dispatch.request route.callerAdmission delivery.admission
      delivery.deployment.id delivery.modelUsed delivery.value.usage
  (router, delivery.routed delivery.value)

end Route

end DeploymentRouting
