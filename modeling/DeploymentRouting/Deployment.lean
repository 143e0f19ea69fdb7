import DeploymentRouting.Limits
import DeploymentRouting.SetupError
import DeploymentRouting.Text.Blank
/-!
Deployments: backends that each serve one or more models by their logical names.
A record never changes once it is registered. Other limits, a new weight or new
names come with a new record under the same id.
-/
namespace DeploymentRouting

/-- Vendors whose protocol a backend may speak. -/
inductive Provider where
  | openai
  | azure
  | anthropic
  | bedrock
  | vertex
  | gemini
  | mistral
  | cohere
  | groq
  | ollama
  | openaiCompatible
  | other
deriving DecidableEq, Repr, Inhabited

namespace Provider

def all : List Provider :=
  [openai, azure, anthropic, bedrock, vertex, gemini, mistral, cohere, groq, ollama,
    openaiCompatible, other]

def name : Provider → String
  | openai => "openai"
  | azure => "azure"
  | anthropic => "anthropic"
  | bedrock => "bedrock"
  | vertex => "vertex"
  | gemini => "gemini"
  | mistral => "mistral"
  | cohere => "cohere"
  | groq => "groq"
  | ollama => "ollama"
  | openaiCompatible => "openai_compatible"
  | other => "other"

/-- The provider that has exactly this name. -/
def ofName? (text : String) : Option Provider := all.find? fun provider => provider.name == text

theorem ofName?_name (provider : Provider) : ofName? provider.name = some provider := by
  cases provider <;> rfl

end Provider

structure Deployment where
  id : String
  /-- The logical models that it serves. -/
  modelNames : List String
  provider : Provider
  /-- The name of the model at the backend. -/
  model : String
  apiBase : Option String := none
  /-- The environment variable that holds the credential. -/
  apiKeyEnv : Option String := none
  /-- The share it gets of weighted choices. -/
  weight : Float := 1.0
  /-- Deployments of a lower tier come first. -/
  tier : Nat := 0
  limits : Limits := {}
  /-- The longest that a call may take. -/
  timeout : Option Duration := none
  tags : List String := []

namespace Deployment

def serves (deployment : Deployment) (model : String) : Bool := deployment.modelNames.contains model

/-- Adds a logical model, unless it is served already. -/
def addModelName (deployment : Deployment) (name : String) : Deployment :=
  if deployment.serves name then deployment
  else { deployment with modelNames := deployment.modelNames ++ [name] }

/-- A weight that can be used: a number above zero, and not infinite. -/
def usableWeight (weight : Float) : Bool := weight.isFinite && !(weight ≤ 0.0)

/-- The first fault of a record. A record with one name that is not blank serves a model. -/
def fault? (deployment : Deployment) : Option SetupError :=
  if Text.isBlankText deployment.id then some .emptyId
  else if deployment.modelNames.all Text.isBlankText then some (.noModelNames deployment.id)
  else if !usableWeight deployment.weight then
    some (.invalidWeight deployment.id deployment.weight)
  else none

/-- Whether a clock can show the end of the timeout that begins now. -/
def timeoutFits (deployment : Deployment) (now : Instant) : Bool :=
  deployment.timeout.all fun timeout => now + timeout ≤ Instant.last

/-- The end of a call that begins now, if its timeout fits: that timeout, but never after the end
of the whole request. -/
def callDeadline (deployment : Deployment) (requestDeadline now : Instant) : Instant :=
  match deployment.timeout with
  | some timeout => min requestDeadline (now + timeout)
  | none => requestDeadline

end Deployment

end DeploymentRouting
