import DeploymentRouting.Config.Overrides
import DeploymentRouting.Yaml.Reader
import DeploymentRouting.Yaml.Writer
/-!
Configuration files. A file is read, changed by the overrides of the environment,
and then checked.
-/
namespace DeploymentRouting

/-- Why a file has no text. -/
inductive FileError where
  | notFound
  | isDirectory
  /-- A step of the path goes through a file. -/
  | notDirectory
  | notText

def FileError.message : FileError → String
  | .notFound => "No such file or directory (os error 2)"
  | .isDirectory => "Is a directory (os error 21)"
  | .notDirectory => "Not a directory (os error 20)"
  | .notText => "stream did not contain valid UTF-8"

namespace Config

/-- Reads a configuration without checking it. -/
def ofYaml (text : String) : Except GatewayError Config :=
  match (Yaml.read? text).bind (ofDocument? Dialect.yaml) with
  | some config => .ok config
  | none => .error (.config "Failed to parse config")

def toYaml (config : Config) : String := Yaml.write config.toDocument

/-- Whether a configuration reads back from its own text as it was. -/
def readsBack (config : Config) : Bool :=
  match ofYaml config.toYaml with
  | .ok again => again == config
  | .error _ => false

def ofJson? (json : Json) : Option Config := ofDocument? Dialect.json (.ofJson json)

/-- The configuration of a file. -/
def load (content : Except FileError String) (environment : Environment) :
    Except GatewayError Config :=
  match content with
  | .error reason => .error (.config ("Failed to read config file: " ++ reason.message))
  | .ok text => do
      let config ← (← ofYaml text).withOverrides environment
      config.validate
      return config

end Config

end DeploymentRouting
