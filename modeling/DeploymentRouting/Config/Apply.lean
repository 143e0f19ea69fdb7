import DeploymentRouting.Config.Basic
import DeploymentRouting.Router
/-!
Routers from configurations. A configuration can be applied to a router that is
running: its deployments are reloaded, and fallbacks, aliases and the limits of
callers are replaced. The settings of the router stay as they are.
-/
namespace DeploymentRouting.Router

/-- Takes over a configuration. If a deployment or a caller in it has a fault, nothing changes. -/
def apply (router : Router) (config : Config) : Except GatewayError Router := do
  let records ← config.records.mapError .deployment
  let callerLimits ← config.limitsOfCallers.mapError .deployment
  let router ← (router.reload records).mapError .deployment
  return { router with
    fallbacks := ⟨config.fallbacks⟩
    registry := router.registry.replaceAliases config.aliases
    callerLimits }

/-- A router with the settings of a configuration and all that is in it. -/
def ofConfig (config : Config) : Except GatewayError Router := do
  config.validate
  (new config.settings).apply config

/-- Lets a router report spend. -/
def withSpend (router : Router) : Router :=
  { router with spend := some (SpendQueue.new router.settings.spendBuffer) }

end DeploymentRouting.Router
