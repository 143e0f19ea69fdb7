import DeploymentRouting.Config.Basic
import DeploymentRouting.Environment
/-!
Overrides of single settings by the environment. They are applied in a fixed order,
and the first one that cannot be read is told.
-/
namespace DeploymentRouting

/-- What can be wrong with the text of a whole number. -/
inductive NumberFault where
  | empty
  | invalidDigit
  | tooLarge
deriving DecidableEq, Repr

namespace NumberFault

def message : NumberFault → String
  | .empty => "cannot parse integer from empty string"
  | .invalidDigit => "invalid digit found in string"
  | .tooLarge => "number too large to fit in target type"

end NumberFault

/-- Reads digits from the left. The first one that is no digit, or that makes the number too
large, is the fault. -/
def readDigits (most : Nat) (sum : Nat) : List Char → Except NumberFault Nat
  | [] => .ok sum
  | c :: rest =>
      if c.isDigit then
        let next := sum * 10 + (c.toNat - '0'.toNat)
        if most < next then .error .tooLarge else readDigits most next rest
      else .error .invalidDigit

/-- Reads a whole number up to a greatest one, with blanks around it and a plus sign if need be. -/
def readNumber (most : Nat) (text : String) : Except NumberFault Nat :=
  match (Text.trim text).toList with
  | [] => .error .empty
  | ['+'] => .error .invalidDigit
  | '+' :: digits => readDigits most 0 digits
  | digits => readDigits most 0 digits

namespace Config

/-- Applies one override, if the environment has it. -/
def override {α : Type} (environment : Environment) (key : String)
    (read : String → Except String α) (set : α → Config → Config) (config : Config) :
    Except GatewayError Config :=
  match environment.get? key with
  | none => .ok config
  | some text =>
      match read text with
      | .ok value => .ok (set value config)
      | .error reason => .error (.config (key ++ ": " ++ reason))

/-- Reads the number of an override. -/
def overrideNumber (most : Nat) (text : String) : Except String Nat :=
  match readNumber most text with
  | .ok value => .ok value
  | .error fault => .error ("invalid value '" ++ text ++ "': " ++ fault.message)

/-- Applies all overrides of the environment: of the strategy, the attempts, the timeout and the log
level. -/
def withOverrides (config : Config) (environment : Environment) : Except GatewayError Config := do
  let config ← config.override environment "LLM_ROUTER_STRATEGY" Strategy.parse
    fun strategy config => { config with settings.strategy := strategy }
  let config ← config.override environment "LLM_ROUTER_MAX_ATTEMPTS" (overrideNumber Counter.top32)
    fun count config => { config with settings.maxAttempts := count }
  let config ← config.override environment "LLM_ROUTER_TIMEOUT_SECS" (overrideNumber Counter.top64)
    fun seconds config => { config with settings.timeoutSecs := seconds }
  config.override environment "LLM_ROUTER_LOG_LEVEL" .ok
    fun level config => { config with logging.level := level }

end Config

end DeploymentRouting
