import DeploymentRouting.Config.Limits
import DeploymentRouting.Deployment
/-!
Deployments as they stand in a configuration. One serves a single model, a list of
models, or both.
-/
namespace DeploymentRouting

structure ConfiguredDeployment where
  id : String
  modelName : Option String := none
  modelNames : List String := []
  provider : Provider := .openai
  /-- The name of the model at the backend. -/
  model : String
  apiBase : Option String := none
  apiKeyEnv : Option String := none
  weight : Float := 1.0
  tier : Nat := 0
  timeoutSecs : Option Nat := none
  limits : ConfiguredLimits := {}
  tags : List String := []
deriving BEq

namespace ConfiguredDeployment

/-- The logical models that are served, each one once. -/
def servedModels (configured : ConfiguredDeployment) : List String :=
  (configured.modelName.toList ++ configured.modelNames).foldl
    (fun names name => if names.contains name then names else names ++ [name]) []

/-- The record for the registry, unless it has a fault. -/
def deployment (configured : ConfiguredDeployment) : Except SetupError Deployment := do
  let limits ← configured.limits.limits configured.id
  let deployment : Deployment :=
    { id := configured.id
      modelNames := configured.servedModels
      provider := configured.provider
      model := configured.model
      apiBase := configured.apiBase
      apiKeyEnv := configured.apiKeyEnv
      weight := configured.weight
      tier := configured.tier
      limits
      timeout := configured.timeoutSecs.map Duration.ofSeconds
      tags := configured.tags }
  match deployment.fault? with
  | some fault => .error fault
  | none => .ok deployment

/-- What is wrong with a deployment, if anything is. -/
def fault? (configured : ConfiguredDeployment) : Option String :=
  if Text.isBlankText configured.model then
    some ("Deployment " ++ configured.id ++ " must name a provider model")
  else match configured.deployment with
    | .error fault => some fault.message
    | .ok _ => none

def fieldNames : List String :=
  ["deployment_id", "model_name", "model_names", "provider", "model", "api_base", "api_key_env",
    "weight", "tier", "timeout_secs", "tags"]

/-- Reads a deployment, which is never a sequence. Its limits stand among its other fields. -/
def ofDocument? (dialect : Dialect) (document : Document) : Option ConfiguredDeployment := do
  let dialect := { dialect with sequenceRecords := false }
  let fields ← document.fields? dialect (fieldNames ++ ConfiguredLimits.fieldNames)
  let id ← fields.required "deployment_id" Document.text?
  let modelName ← fields.optional "model_name" Document.text?
  let modelNames ← fields.withDefault "model_names" [] (Document.list? Document.text?)
  let provider ← fields.withDefault "provider" .openai (Document.choice? dialect Provider.ofName?)
  let model ← fields.required "model" Document.text?
  let apiBase ← fields.optional "api_base" Document.text?
  let apiKeyEnv ← fields.optional "api_key_env" Document.text?
  let weight ← fields.withDefault "weight" 1.0 Document.float?
  let tier ← fields.withDefault "tier" 0 (Document.natural? Counter.top32)
  let timeoutSecs ← fields.optional "timeout_secs" (Document.natural? Counter.top64)
  let limits ← ConfiguredLimits.ofFields? fields
  let tags ← fields.withDefault "tags" [] (Document.list? Document.text?)
  return { id, modelName, modelNames, provider, model, apiBase, apiKeyEnv, weight, tier,
           timeoutSecs, limits, tags }

/-- A member that is there if its value is. -/
def optionalMember (name : String) (value : Option String) : List (String × Document) :=
  (value.map fun text => (name, Document.ofText text)).toList

/-- A member that is there unless its list is empty. -/
def listMember (name : String) (texts : List String) : List (String × Document) :=
  if texts.isEmpty then [] else [(name, .ofTexts texts)]

def toDocument (configured : ConfiguredDeployment) : Document :=
  .ofMembers (
    [("deployment_id", .ofText configured.id)]
    ++ optionalMember "model_name" configured.modelName
    ++ listMember "model_names" configured.modelNames
    ++ [("provider", .ofText configured.provider.name), ("model", .ofText configured.model)]
    ++ optionalMember "api_base" configured.apiBase
    ++ optionalMember "api_key_env" configured.apiKeyEnv
    ++ [("weight", .ofFloat configured.weight), ("tier", .ofNat configured.tier)]
    ++ (configured.timeoutSecs.map fun seconds => ("timeout_secs", Document.ofNat seconds)).toList
    ++ configured.limits.members
    ++ listMember "tags" configured.tags)

end ConfiguredDeployment

end DeploymentRouting
