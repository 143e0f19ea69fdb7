import DeploymentRouting.Config.Basic
import DeploymentRouting.Environment
/-!
Filters of log events. A filter is a list of directives between commas. A directive
is a level, a target, or a target with its own level.
-/
namespace DeploymentRouting.LogFilter

def levels : List String := ["off", "error", "warn", "info", "debug", "trace"]

/-- Whether a text is the name of a level, in letters of any case. -/
def isLevel (text : String) : Bool := levels.contains (Text.lowerAscii text)

/-- Characters with which a target may begin. Letters beyond the ASCII ones count. -/
def beginsTarget (c : Char) : Bool := c.isAlphanum || ['_', ':', '-'].contains c || 127 < c.toNat

/-- Whether one directive can be read. -/
def isDirective (text : String) : Bool :=
  text.toList.head?.any beginsTarget
    && match text.toList.dropWhile (· != '=') with
      | [] => true
      | _ :: level => isLevel (String.ofList level)

/-- Whether a filter can be read. Directives that are left empty do not count. -/
def isValid (text : String) : Bool :=
  ((text.splitOn ",").filter (!·.isEmpty)).all isDirective

/-- Checks the filter that is to be used: the one of the environment if it can be read, or else the
one that is configured. -/
def check (level : String) (environment : Environment) : Except GatewayError Unit :=
  if (environment.get? "RUST_LOG").any isValid || isValid level then .ok ()
  else .error (.config ("Invalid log level '" ++ level ++ "'"))

end DeploymentRouting.LogFilter
