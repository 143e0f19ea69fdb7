import DeploymentRouting.Fallbacks
import DeploymentRouting.Limiter
import DeploymentRouting.Registry
import DeploymentRouting.Request
import DeploymentRouting.RoutingError
import DeploymentRouting.Selection
import DeploymentRouting.Settings
import DeploymentRouting.Spend
import DeploymentRouting.Text.Quoted
/-!
The state of a router: what is registered, how healthy it is, which places are
taken, and how far the rotation has come. Every function is one atomic step on
that state. Clocks and backends are outside of it.
-/
namespace DeploymentRouting

structure Router where
  settings : Settings
  registry : Registry := {}
  health : HealthTracker
  limiter : Limiter
  fallbacks : Fallbacks := {}
  callerLimits : Table Limits := ∅
  cursors : Cursors := {}
  /-- The queue of spend events, if spend is reported at all. -/
  spend : Option SpendQueue := none

/-- What can be told of one deployment at one instant. -/
structure DeploymentStats where
  deployment : Deployment
  health : HealthView
  eligible : Bool
  cooldownRemaining : Option Duration
  load : Load

namespace Router

/-- A router that knows no deployment yet. -/
def new (settings : Settings) : Router where
  settings := settings
  health := { policy := settings.cooldownPolicy, window := settings.healthWindow }
  limiter := Limiter.new settings.rateLimitWindow

/-- Adds a deployment or puts it in the place of the one with its id. -/
def register (router : Router) (deployment : Deployment) : Except SetupError Router :=
  (router.registry.register deployment).map fun (registry, _) => { router with registry }

/-- Takes a deployment out, and its health with it. Its counts stay as long as calls of it are
in flight. -/
def deregister (router : Router) (id : String) : Router × Option Deployment :=
  match router.registry.deregister id with
  | (_, none) => (router, none)
  | (registry, some record) =>
      ({ router with
          registry
          health := router.health.remove id
          limiter := (router.limiter.forget id).1 }, some record)

/-- Registers deployments one after the other. -/
def registerAll (router : Router) : List Deployment → Except SetupError Router
  | [] => .ok router
  | deployment :: rest => do registerAll (← router.register deployment) rest

/-- Takes over a whole list of deployments. If one of them has a fault nothing changes;
otherwise all are registered, and every other deployment is taken out. -/
def reload (router : Router) (deployments : List Deployment) : Except SetupError Router :=
  match deployments.findSome? (·.fault?) with
  | some fault => .error fault
  | none => do
      let router ← router.registerAll deployments
      let kept := deployments.map (·.id)
      let stale := router.registry.deployments.filter (!kept.contains ·)
      return stale.foldl (fun router id => (router.deregister id).1) router

def addAlias (router : Router) (name target : String) : Router :=
  { router with registry := router.registry.addAlias name target }

def setFallbacks (router : Router) (model : String) (list : List String) : Router :=
  { router with fallbacks := router.fallbacks.set model list }

def setCallerLimits (router : Router) (caller : String) (limits : Limits) : Router :=
  { router with callerLimits := router.callerLimits.insert caller limits }

/-- The candidate that a deployment is at an instant, for a request of some cost. -/
def candidate (router : Router) (cost : Nat) (now : Instant) (deployment : Deployment) :
    Candidate where
  deployment := deployment
  health := router.health.view deployment.id now
  load := router.limiter.load .deployment deployment.id now
  admissible := router.limiter.admits deployment.id deployment.limits cost now

/-- The candidates for a model by tier, without those excluded. -/
def candidates (router : Router) (model : String) (excluded : List String) (cost : Nat)
    (now : Instant) : List (List Candidate) :=
  let tiers := (router.registry.candidates model).map fun tier =>
    (tier.filter (!excluded.contains ·.id)).map (router.candidate cost now)
  tiers.filter (!·.isEmpty)

/-- Chooses a deployment for a model. Only the rotation moves on. -/
def select (router : Router) (model : String) (excluded : List String) (cost : Nat)
    (now : Instant) (random : RandomSource) : Selection × Router :=
  let resolved := router.registry.resolve model
  let tiers := router.candidates resolved excluded cost now
  let (selection, cursors, _) :=
    Selection.select router.settings.strategy resolved now router.cursors random tiers
  (selection, { router with cursors })

/-- Asks for a place on a deployment. -/
def reserve (router : Router) (deployment : Deployment) (cost : Nat) (now : Instant) :
    Router × Except Refusal Admission :=
  let (limiter, answer) :=
    router.limiter.reserve .deployment deployment.id deployment.limits cost now
  ({ router with limiter }, answer)

/-- Asks for a place for a caller. Without limits of its own a caller needs none. -/
def reserveCaller (router : Router) (request : Request) (now : Instant) :
    Router × Except RoutingError (Option Admission) :=
  match request.caller with
  | none => (router, .ok none)
  | some caller =>
      match router.callerLimits.get? caller with
      | none => (router, .ok none)
      | some limits =>
          match router.limiter.reserve .caller caller limits request.estimate now with
          | (limiter, .ok admission) => ({ router with limiter }, .ok (some admission))
          | (limiter, .error refusal) =>
              ({ router with limiter }, .error (.callerRefused caller refusal))

def settle (router : Router) (admission : Admission) (actual : Nat) (now : Instant) : Router :=
  { router with limiter := router.limiter.settle admission actual now }

def abandon (router : Router) (admission : Admission) (now : Instant) : Router :=
  { router with limiter := router.limiter.abandon admission now }

/-- Settles an admission if there is one. -/
def settleSome (router : Router) (admission : Option Admission) (actual : Nat) (now : Instant) :
    Router :=
  admission.elim router fun admission => router.settle admission actual now

/-- Gives up an admission if there is one. -/
def abandonSome (router : Router) (admission : Option Admission) (now : Instant) : Router :=
  admission.elim router fun admission => router.abandon admission now

def addOutcome (router : Router) (id : String) (outcome : Outcome) (now : Instant) :
    Router × Option Instant :=
  let (health, ends) := router.health.addOutcome id outcome now
  ({ router with health }, ends)

def addLatency (router : Router) (id : String) (latency : Duration) : Router :=
  { router with health := router.health.addLatency id latency }

/-- Reports a spend event, if spend is reported. -/
def notifySpend (router : Router) (event : SpendEvent) : Router :=
  { router with spend := router.spend.map fun queue => (queue.offer event).1 }

/-- Whether a deployment is out of cooldown. -/
def isEligible (router : Router) (id : String) (now : Instant) : Bool :=
  router.health.isEligible id now

def stats (router : Router) (id : String) (now : Instant) : Option DeploymentStats :=
  (router.registry.get? id).map fun deployment =>
    let health := router.health.view id now
    { deployment, health
      eligible := health.isEligible now
      cooldownRemaining := health.cooldownRemaining now
      load := router.limiter.load .deployment id now }

/-- The name of a strategy as it stands in a description. -/
def strategyLabel : Strategy → String
  | .simpleShuffle => "SimpleShuffle"
  | .leastBusy => "LeastBusy"
  | .roundRobin => "RoundRobin"
  | .latencyBased => "LatencyBased"
  | .usageBased => "UsageBased"

/-- A record with its fields between braces. -/
def describeRecord (name : String) (fields : List (String × String)) : String :=
  let parts := fields.map fun field => field.1 ++ ": " ++ field.2
  name ++ " \x7b " ++ ", ".intercalate parts ++ " \x7d"

def describeSettings (settings : Settings) : String :=
  describeRecord "RouterConfig"
    [("routing_strategy", strategyLabel settings.strategy),
      ("max_attempts", toString settings.maxAttempts),
      ("allowed_fails", toString settings.allowedFails),
      ("cooldown_base_ms", toString settings.cooldownBaseMs),
      ("cooldown_max_ms", toString settings.cooldownMaxMs),
      ("cooldown_max_exponent", toString settings.cooldownMaxExponent),
      ("rate_limit_window_secs", toString settings.rateLimitWindowSecs),
      ("health_window_secs", toString settings.healthWindowSecs),
      ("timeout_secs", toString settings.timeoutSecs),
      ("max_fallback_depth", toString settings.maxFallbackDepth),
      ("spend_buffer", toString settings.spendBuffer)]

/-- A description of a router for diagnostics: its settings, the number of its deployments,
its models, and whether it reports spend. -/
def describe (router : Router) : String :=
  describeRecord "Router"
    [("config", describeSettings router.settings),
      ("deployments", toString router.registry.size),
      ("models", "[" ++ ", ".intercalate (router.registry.models.map Text.quoted) ++ "]"),
      ("spend_notifier", if router.spend.isSome then "true" else "false")]

end Router

end DeploymentRouting
