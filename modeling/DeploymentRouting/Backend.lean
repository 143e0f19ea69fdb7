import DeploymentRouting.Health
import DeploymentRouting.Json.Basic
/-!
What comes back from a backend: responses, chunks of a stream, and errors. The
backend says of each error whether another deployment may succeed where this one
failed, and that word is taken as it is.
-/
namespace DeploymentRouting

/-- Tokens that a backend reports for a call. -/
structure TokenUsage where
  prompt : Nat
  completion : Nat
deriving DecidableEq, Repr

/-- All tokens of a call, as a 64-bit counter shows them. -/
def TokenUsage.total (usage : TokenUsage) : Nat :=
  Counter.wrap64 (usage.prompt + usage.completion)

/-- A whole response. -/
structure Response where
  payload : Json
  usage : Option TokenUsage := none

/-- One piece of a streamed response. The usage it reports covers all pieces so far. -/
structure Chunk where
  payload : Json
  usage : Option TokenUsage := none

inductive ErrorKind where
  | timeout
  | connection
  | server
  | rateLimited
  | badRequest
  | authentication
  | other
deriving DecidableEq, Repr

def ErrorKind.text : ErrorKind → String
  | .timeout => "timeout"
  | .connection => "connection"
  | .server => "server"
  | .rateLimited => "rate limited"
  | .badRequest => "bad request"
  | .authentication => "authentication"
  | .other => "other"

structure BackendError where
  kind : ErrorKind
  detail : String
  /-- The status of the answer, when there was one. -/
  status : Option Nat
  /-- Whether another deployment may succeed. -/
  retriable : Bool
deriving DecidableEq, Repr

namespace BackendError

def timeout (detail : String) : BackendError := ⟨.timeout, detail, none, true⟩

def connection (detail : String) : BackendError := ⟨.connection, detail, none, true⟩

def server (status : Nat) (detail : String) : BackendError := ⟨.server, detail, some status, true⟩

def rateLimited (detail : String) : BackendError := ⟨.rateLimited, detail, some 429, true⟩

def badRequest (status : Nat) (detail : String) : BackendError :=
  ⟨.badRequest, detail, some status, false⟩

def authentication (detail : String) : BackendError :=
  ⟨.authentication, detail, some 401, false⟩

def other (detail : String) (retriable : Bool) : BackendError := ⟨.other, detail, none, retriable⟩

def isRateLimit (error : BackendError) : Bool := error.kind == .rateLimited

/-- What an error says about the health of its deployment. A rate limit is one even when the
backend says that no other deployment will do. -/
def outcome (error : BackendError) : Outcome :=
  if error.isRateLimit then .rateLimited
  else if error.retriable then .retriableError
  else .nonRetriableError

def message (error : BackendError) : String :=
  let status := match error.status with
    | some status => " (" ++ toString status ++ ")"
    | none => ""
  error.kind.text ++ " error" ++ status ++ ": " ++ error.detail

end BackendError

end DeploymentRouting
