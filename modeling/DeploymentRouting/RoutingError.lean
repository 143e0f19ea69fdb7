import DeploymentRouting.Backend
import DeploymentRouting.Limits
import DeploymentRouting.SetupError
/-!
How a routed request can fail. Errors of a backend that allow another attempt are
absorbed, and only the last of them shows in the end.
-/
namespace DeploymentRouting

inductive RoutingError where
  | setup (fault : SetupError)
  /-- No deployment is registered for the model. -/
  | noDeployments (model : String)
  /-- Every candidate was resting or refused the call. -/
  | allUnavailable (model : String)
  /-- All attempts are used up, and at least one reached a backend. -/
  | retriesExhausted (model : String) (attempts : Nat) (last : Option BackendError)
  /-- A backend refused the request for good. -/
  | backendRefused (deployment : String) (error : BackendError)
  | deadlineExceeded (model : String) (attempts : Nat)
  /-- The caller is over its own limits. -/
  | callerRefused (caller : String) (refusal : Refusal)

namespace RoutingError

/-- The error of a backend that a failure carries. -/
def backendError? : RoutingError → Option BackendError
  | .retriesExhausted _ _ last => last
  | .backendRefused _ error => some error
  | _ => none

def message : RoutingError → String
  | .setup fault => "configuration error: " ++ fault.message
  | .noDeployments model => "no deployments configured for model: " ++ model
  | .allUnavailable model => "all deployments unavailable for model: " ++ model
  | .retriesExhausted model attempts last =>
      let reason := match last with
        | some error => ": " ++ error.message
        | none => ""
      "retries exhausted for model " ++ model ++ " after " ++ toString attempts ++ " attempts"
        ++ reason
  | .backendRefused deployment error =>
      "non-retriable backend error from deployment " ++ deployment ++ ": " ++ error.message
  | .deadlineExceeded model attempts =>
      "deadline exceeded for model " ++ model ++ " after " ++ toString attempts ++ " attempts"
  | .callerRefused caller refusal => "caller " ++ caller ++ " rate limited: " ++ refusal.message

end RoutingError

/-- Every failure of the library that reaches its user. -/
inductive GatewayError where
  | config (reason : String)
  | deployment (fault : SetupError)
  | routing (error : RoutingError)
  | validation (reason : String)

def GatewayError.message : GatewayError → String
  | .config reason => "Configuration error: " ++ reason
  | .deployment fault => "Invalid deployment: " ++ fault.message
  | .routing error => "Routing error: " ++ error.message
  | .validation reason => "Validation error: " ++ reason

end DeploymentRouting
