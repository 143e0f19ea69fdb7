import DeploymentRouting.Document.Decode
import DeploymentRouting.Settings
/-!
The settings of a router in a configuration. A setting that is not there has its
default.
-/
namespace DeploymentRouting.Settings

def fieldNames : List String :=
  ["routing_strategy", "max_attempts", "allowed_fails", "cooldown_base_ms", "cooldown_max_ms",
    "cooldown_max_exponent", "rate_limit_window_secs", "health_window_secs", "timeout_secs",
    "max_fallback_depth", "spend_buffer"]

def ofDocument? (dialect : Dialect) (document : Document) : Option Settings := do
  let fields ← document.fields? dialect fieldNames
  let default : Settings := {}
  let word := Document.natural? Counter.top32
  let long := Document.natural? Counter.top64
  let strategy ←
    fields.withDefault "routing_strategy" default.strategy
      (Document.choice? dialect Strategy.ofName?)
  let maxAttempts ← fields.withDefault "max_attempts" default.maxAttempts word
  let allowedFails ← fields.withDefault "allowed_fails" default.allowedFails word
  let cooldownBaseMs ← fields.withDefault "cooldown_base_ms" default.cooldownBaseMs long
  let cooldownMaxMs ← fields.withDefault "cooldown_max_ms" default.cooldownMaxMs long
  let cooldownMaxExponent ←
    fields.withDefault "cooldown_max_exponent" default.cooldownMaxExponent word
  let rateLimitWindowSecs ←
    fields.withDefault "rate_limit_window_secs" default.rateLimitWindowSecs long
  let healthWindowSecs ← fields.withDefault "health_window_secs" default.healthWindowSecs long
  let timeoutSecs ← fields.withDefault "timeout_secs" default.timeoutSecs long
  let maxFallbackDepth ← fields.withDefault "max_fallback_depth" default.maxFallbackDepth word
  let spendBuffer ← fields.withDefault "spend_buffer" default.spendBuffer long
  return { strategy, maxAttempts, allowedFails, cooldownBaseMs, cooldownMaxMs, cooldownMaxExponent,
           rateLimitWindowSecs, healthWindowSecs, timeoutSecs, maxFallbackDepth, spendBuffer }

def toDocument (settings : Settings) : Document :=
  .ofMembers
    [("routing_strategy", .ofText settings.strategy.name),
      ("max_attempts", .ofNat settings.maxAttempts),
      ("allowed_fails", .ofNat settings.allowedFails),
      ("cooldown_base_ms", .ofNat settings.cooldownBaseMs),
      ("cooldown_max_ms", .ofNat settings.cooldownMaxMs),
      ("cooldown_max_exponent", .ofNat settings.cooldownMaxExponent),
      ("rate_limit_window_secs", .ofNat settings.rateLimitWindowSecs),
      ("health_window_secs", .ofNat settings.healthWindowSecs),
      ("timeout_secs", .ofNat settings.timeoutSecs),
      ("max_fallback_depth", .ofNat settings.maxFallbackDepth),
      ("spend_buffer", .ofNat settings.spendBuffer)]

end DeploymentRouting.Settings
