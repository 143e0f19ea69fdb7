import DeploymentRouting.CommandLine.Arguments
import DeploymentRouting.Config.File
import DeploymentRouting.LogFilter
/-!
The commands of the command line. Each loads a configuration, builds a registry of
it and tells how models lead to deployments. A command that fails says why and
prints nothing else.
-/
namespace DeploymentRouting.CommandLine

/-- What a run of the program leaves behind. -/
structure Outcome where
  code : Nat
  output : String := ""
  error : String := ""
deriving DecidableEq, Repr

/-- What is known of the build of the program. -/
def buildInfo : List (String × String) :=
  [("version", version), ("build_time", "unknown"), ("git_hash", "unknown"),
    ("rust_version", "unknown")]

def buildInfoText : String :=
  let lines := buildInfo.map fun field =>
    "  " ++ Json.writeString field.1 ++ ": " ++ Json.writeString field.2
  "\x7b\n" ++ ",\n".intercalate lines ++ "\n\x7d\n"

/-- The line of one candidate. -/
def candidateLine (deployment : Deployment) : String :=
  let tags :=
    if deployment.tags.isEmpty then "" else " [" ++ ", ".intercalate deployment.tags ++ "]"
  "  tier " ++ Text.padRight (toString deployment.tier) 3 ++ " " ++ Text.padRight deployment.id 24
    ++ " " ++ Text.padRight deployment.provider.name 18 ++ " " ++ Text.padRight deployment.model 28
    ++ " weight " ++ Decimal.message.write deployment.weight ++ tags ++ "\n"

/-- The candidates for a model, tier by tier, under the name and what it stands for. -/
def candidatesText (registry : Registry) (model : String) : String :=
  let resolved := registry.resolve model
  match (registry.candidates model).flatten with
  | [] => model ++ ": no deployments configured\n"
  | deployments =>
      (if resolved == model then model else model ++ " -> " ++ resolved) ++ "\n"
        ++ String.join (deployments.map candidateLine)

def summaryText (registry : Registry) (settings : Settings) : String :=
  "configuration OK: " ++ toString registry.size ++ " deployments, "
    ++ toString registry.models.length ++ " models, strategy " ++ settings.strategy.name ++ "\n"

/-- The output of a command about a configuration. -/
def report (command : Command) (config : Config) (registry : Registry) : String :=
  match command with
  | .check => summaryText registry config.settings
  | .candidates model => candidatesText registry model
  | .models => String.join (registry.models.map (candidatesText registry))
  | .info => buildInfoText

def failure (reason : String) : Outcome := { code := 1, error := "Error: " ++ reason ++ "\n" }

/-- Carries out an invocation. -/
def execute (environment : Environment) (files : String → Except FileError String)
    (invocation : Invocation) : Outcome :=
  if invocation.command = .info then { code := 0, output := buildInfoText }
  else match Config.load (files invocation.configPath) environment with
    | .error error => failure ("loading " ++ invocation.configPath ++ ": " ++ error.message)
    | .ok config =>
        match LogFilter.check config.logging.level environment with
        | .error error => failure error.message
        | .ok () =>
            match config.registry with
            | .error fault => failure (GatewayError.deployment fault).message
            | .ok registry => { code := 0, output := report invocation.command config registry }

/-- Runs the program. A file of assignments in its directory adds to the environment. -/
def run (arguments : List String) (environment : Environment)
    (files : String → Except FileError String) : Outcome :=
  let environment := match files ".env" with
    | .ok text => environment.addFile text
    | .error _ => environment
  match readArguments environment none arguments with
  | .invocation invocation => execute environment files invocation
  | .text text => { code := 0, output := text }
  | .misuse =>
      { code := 2
        error := "error: unexpected arguments\n\nFor more information, try '--help'.\n" }

end DeploymentRouting.CommandLine
