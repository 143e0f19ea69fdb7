import DeploymentRouting.Config.Deployment
import DeploymentRouting.Config.Settings
import DeploymentRouting.Registry
import DeploymentRouting.RoutingError
/-!
A whole configuration: the settings of a router, its deployments, the fallback
lists of models, aliases, the limits of callers, and the logging. A configuration
can be read without being valid, and the first fault that is found is told.
-/
namespace DeploymentRouting

structure LoggingConfig where
  /-- The filter of log events. -/
  level : String := "info"
  json : Bool := false
deriving DecidableEq, Repr, Inhabited

namespace LoggingConfig

def fieldNames : List String := ["level", "json"]

def ofDocument? (dialect : Dialect) (document : Document) : Option LoggingConfig := do
  let fields ← document.fields? dialect fieldNames
  let level ← fields.withDefault "level" "info" Document.text?
  let json ← fields.withDefault "json" false Document.bool?
  return { level, json }

def toDocument (logging : LoggingConfig) : Document :=
  .ofMembers [("level", .ofText logging.level), ("json", .ofBool logging.json)]

end LoggingConfig

structure Config where
  settings : Settings := {}
  deployments : List ConfiguredDeployment := []
  fallbacks : Table (List String) := ∅
  aliases : Table String := ∅
  callerLimits : Table ConfiguredLimits := ∅
  logging : LoggingConfig := {}
deriving BEq

namespace Config

def fieldNames : List String :=
  ["router_settings", "model_list", "fallbacks", "model_aliases", "caller_limits", "logging"]

def ofDocument? (dialect : Dialect) (document : Document) : Option Config := do
  let fields ← document.fields? dialect fieldNames
  let settings ← fields.withDefault "router_settings" {} (Settings.ofDocument? dialect)
  let deployments ←
    fields.withDefault "model_list" [] (Document.list? (ConfiguredDeployment.ofDocument? dialect))
  let fallbacks ←
    fields.withDefault "fallbacks" ∅ (Document.table? (Document.list? Document.text?))
  let aliases ← fields.withDefault "model_aliases" ∅ (Document.table? Document.text?)
  let callerLimits ←
    fields.withDefault "caller_limits" ∅ (Document.table? (ConfiguredLimits.ofDocument? dialect))
  let logging ← fields.withDefault "logging" {} (LoggingConfig.ofDocument? dialect)
  return { settings, deployments, fallbacks, aliases, callerLimits, logging }

def toDocument (config : Config) : Document :=
  .ofMembers
    [("router_settings", config.settings.toDocument),
      ("model_list", .sequence (config.deployments.map ConfiguredDeployment.toDocument)),
      ("fallbacks", .ofTable Document.ofTexts config.fallbacks),
      ("model_aliases", .ofTable Document.ofText config.aliases),
      ("caller_limits", .ofTable ConfiguredLimits.toDocument config.callerLimits),
      ("logging", config.logging.toDocument)]

/-- The records of all deployments, or the first fault of one. -/
def records (config : Config) : Except SetupError (List Deployment) :=
  config.deployments.mapM ConfiguredDeployment.deployment

/-- The limits of all callers, or the first fault of one. -/
def limitsOfCallers (config : Config) : Except SetupError (Table Limits) := do
  let entries ← config.callerLimits.entries.mapM fun entry =>
    (entry.2.limits entry.1).map fun limits => (entry.1, limits)
  return Table.ofList entries

/-- A registry of all deployments and aliases. -/
def registry (config : Config) : Except SetupError Registry := do
  let records ← config.records
  let registry ← records.foldlM (fun registry record => (registry.register record).map Prod.fst) {}
  return config.aliases.entries.foldl (fun registry entry => registry.addAlias entry.1 entry.2)
    registry

/-- The first fault of a list of deployments: an id that came before, or a fault of its own. -/
def deploymentFault? (seen : List String) : List ConfiguredDeployment → Option String
  | [] => none
  | deployment :: rest =>
      if seen.contains deployment.id then some ("Duplicate deployment id: " ++ deployment.id)
      else deployment.fault?.or (deploymentFault? (deployment.id :: seen) rest)

def loggingFault? (config : Config) : Option String :=
  if Text.isBlankText config.logging.level then some "Log level cannot be empty" else none

def fallbackFault? (config : Config) : Option String :=
  (config.fallbacks.entries.find? fun entry => entry.2.any Text.isBlankText).map fun entry =>
    "Fallback list for " ++ entry.1 ++ " contains an empty model name"

def aliasFault? (config : Config) : Option String :=
  (config.aliases.entries.find? fun entry => entry.1 == entry.2).map fun entry =>
    "Model alias " ++ entry.1 ++ " points to itself"

def callerFault? (config : Config) : Option String :=
  match config.limitsOfCallers with
  | .error fault => some ("Caller limits: " ++ fault.message)
  | .ok _ => none

/-- The first fault of a configuration: of its settings, its logging, its deployments, its
fallbacks, its aliases or the limits of its callers. -/
def fault? (config : Config) : Option String :=
  (config.settings.fault?.map SetupError.message).or (config.loggingFault?.or
    ((deploymentFault? [] config.deployments).or
      (config.fallbackFault?.or (config.aliasFault?.or config.callerFault?))))

/-- Refuses a configuration with a fault. -/
def validate (config : Config) : Except GatewayError Unit :=
  match config.fault? with
  | some fault => .error (.config ("Router config error: " ++ fault))
  | none => .ok ()

end Config

end DeploymentRouting
