import DeploymentRouting.Json.Basic
import DeploymentRouting.Time
/-!
A request to be routed. Its payload goes to the backend as it is.
-/
namespace DeploymentRouting

structure Request where
  /-- The logical model asked for, or an alias of it. -/
  model : String
  payload : Json
  caller : Option String := none
  /-- The end of the whole request, with all its attempts and fallbacks. -/
  deadline : Instant
  /-- Ids of deployments that must not be tried. -/
  excluded : List String := []
  /-- The token cost that is reserved before a call. -/
  estimate : Nat := 0

/-- A token for every four bytes of the messages of a payload, or of the whole payload if it
has none. The last token may be for less. -/
def estimateTokens (payload : Json) : Nat :=
  (((payload.member? "messages").getD payload).size + 3) / 4

namespace Request

def withPayloadEstimate (request : Request) : Request :=
  { request with estimate := estimateTokens request.payload }

/-- The time that is left. -/
def remaining (request : Request) (now : Instant) : Duration := request.deadline - now

def isExpired (request : Request) (now : Instant) : Bool := request.deadline ≤ now

end Request

end DeploymentRouting
