import DeploymentRouting.Cooldown
import DeploymentRouting.SetupError
import DeploymentRouting.Strategy
/-!
Settings of a router. They are fixed for its whole life.
-/
namespace DeploymentRouting

structure Settings where
  strategy : Strategy := .simpleShuffle
  /-- Attempts for each model of a chain. Refusals by a limit count. -/
  maxAttempts : Nat := 3
  /-- Consecutive failures without a cooldown. -/
  allowedFails : Nat := 2
  /-- The first cooldown, in milliseconds. -/
  cooldownBaseMs : Nat := 5000
  /-- The longest cooldown, in milliseconds. -/
  cooldownMaxMs : Nat := 300000
  cooldownMaxExponent : Nat := 6
  /-- Length of a window of the limits, in seconds. -/
  rateLimitWindowSecs : Nat := 60
  /-- Length of an observation window of the health, in seconds. -/
  healthWindowSecs : Nat := 60
  /-- Timeout of a request that comes without one, in seconds. -/
  timeoutSecs : Nat := 60
  /-- Models that may be tried after the one asked for. -/
  maxFallbackDepth : Nat := 2
  /-- Spend events that may wait to be written. -/
  spendBuffer : Nat := 1024
deriving DecidableEq, Repr, Inhabited

namespace Settings

def cooldownPolicy (settings : Settings) : CooldownPolicy where
  base := Duration.ofMillis settings.cooldownBaseMs
  longest := Duration.ofMillis settings.cooldownMaxMs
  maxExponent := settings.cooldownMaxExponent
  allowedFailures := settings.allowedFails

def rateLimitWindow (settings : Settings) : Duration :=
  Duration.ofSeconds settings.rateLimitWindowSecs

def healthWindow (settings : Settings) : Duration := Duration.ofSeconds settings.healthWindowSecs

def timeout (settings : Settings) : Duration := Duration.ofSeconds settings.timeoutSecs

/-- The first setting with which a router cannot work. -/
def fault? (settings : Settings) : Option SetupError :=
  if settings.maxAttempts = 0 then some (.invalidSetting "max_attempts" "must be at least 1")
  else if settings.cooldownMaxMs < settings.cooldownBaseMs then
    some (.invalidSetting "cooldown_max_ms"
      (toString settings.cooldownMaxMs ++ " is smaller than cooldown_base_ms ("
        ++ toString settings.cooldownBaseMs ++ ")"))
  else if 31 < settings.cooldownMaxExponent then
    some (.invalidSetting "cooldown_max_exponent" "must be at most 31")
  else if settings.rateLimitWindowSecs = 0 then
    some (.invalidSetting "rate_limit_window_secs" "must be greater than 0")
  else if settings.healthWindowSecs = 0 then
    some (.invalidSetting "health_window_secs" "must be greater than 0")
  else if settings.timeoutSecs = 0 then
    some (.invalidSetting "timeout_secs" "must be greater than 0")
  else none

end Settings

end DeploymentRouting
