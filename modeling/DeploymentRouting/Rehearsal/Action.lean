import DeploymentRouting.Config.Apply
import DeploymentRouting.Config.File
import DeploymentRouting.Rehearsal.World
/-!
The actions of a rehearsal and what they bring back. An action is carried out on a
world at once; afterwards a report tells what has happened since the last one.
-/
namespace DeploymentRouting.Rehearsal

inductive Action where
  | route (request : Request) (steals : List Steal)
  | openStream (request : Request) (name : String)
  | readStream (name : String)
  | drainStream (name : String)
  | dropStream (name : String)
  | start (request : Request) (name : String)
  | join (name : String)
  | cancel (name : String)
  | wait (span : Duration)
  | script (id : String) (behaviors : List Behavior)
  | setDefault (id : String) (behavior : Behavior)
  | register (deployment : Deployment)
  | deregister (id : String)
  | reload (deployments : List Deployment)
  | applyConfig (config : Config)
  | addAlias (name target : String)
  | setFallbacks (model : String) (list : List String)
  | setCallerLimits (caller : String) (limits : Limits)
  | chain (model : String) (depth : Nat)
  | addOutcome (id : String) (outcome : Outcome)
  | addLatency (id : String) (latency : Duration)
  | eligible (id : String)
  | stats (id : String)
  | get (id : String)
  | models
  | deployments
  | candidates (model : String)
  | settings
  | describe
  | select (model : String) (excluded : List String) (cost : Nat)
  | snapshots (model : String) (excluded : List String) (cost : Nat)
  | hold (id : String) (cost : Nat) (name : String)
  | unhold (name : String) (cost : Nat)

/-- What an action brings back. -/
inductive Result where
  | none
  | flag (value : Bool)
  | text (text : String)
  | texts (texts : List String)
  | instant (instant : Option Instant)
  | deployment (deployment : Option Deployment)
  | tiers (tiers : List (List String))
  | candidates (tiers : List (List Candidate)) (now : Instant)
  | stats (stats : Option DeploymentStats)
  | settings (settings : Settings)
  | response (ending : Ending Response)
  | stream (ending : Ending Unit)
  | item (item : StreamItem)
  | items (items : List StreamItem)
  | task (instant : Instant) (ending : Ending Response)
  | selection (selection : Selection)
  | refused (refusal : Refusal)
  | setupFault (fault : SetupError)
  | routingError (error : RoutingError)
  | gatewayError (error : GatewayError)

/-- The value of a deployment in a report: whether it is out of cooldown, its health, and its
counts. -/
structure DeploymentReport where
  id : String
  health : HealthView
  eligible : Bool
  cooldownRemaining : Option Duration
  load : Load

/-- What has happened since the last report, and how things stand. -/
structure Report where
  now : Instant
  calls : List CallRecord
  spend : List SpendEvent
  deployments : List DeploymentReport
  callers : List (String × Load)

namespace World

/-- A world around a router. -/
def new (router : Router) (unaryOnly : Bool) : World := { router, unaryOnly }

/-- Registers deployments before anything else happens. -/
def registerAll (router : Router) (deployments : List Deployment) : Except RoutingError Router :=
  (router.registerAll deployments).mapError .setup

/-- Changes the router of a world if that is possible. -/
def change {ε : Type} (world : World) (router : Except ε Router) (error : ε → Result) :
    World × Result :=
  match router with
  | .ok router => ({ world with router }, .flag true)
  | .error fault => (world, error fault)

/-- Carries out an action. -/
def perform (world : World) : Action → World × Result
  | .route request steals =>
      let (world, ending) := world.route request steals
      (world, .response ending)
  | .openStream request name =>
      let (world, ending) := world.openStream request name
      (world, .stream ending)
  | .readStream name =>
      match world.streams.get? name with
      | none => (world, .none)
      | some held =>
          let (world, item) := world.readStream name held
          (world, .item item)
  | .drainStream name =>
      match world.streams.get? name with
      | none => (world, .none)
      | some held =>
          let (world, items) := drain name (held.feed.items.length + 4) world
          ({ world with streams := world.streams.erase name }, .items items)
  | .dropStream name =>
      let (world, known) := world.dropStream name
      (world, .flag known)
  | .start request name => (world.start request name, .none)
  | .join name =>
      match join name (world.taskBound + 2) world with
      | (world, some (instant, ending)) => (world, .task instant ending)
      | (world, none) => (world, .none)
  | .cancel name =>
      let (world, known) := world.cancel name
      (world, .flag known)
  | .wait span => (world.waitUntil (world.now + span), .none)
  | .script id behaviors => ({ world with scripts := world.scripts.insert id behaviors }, .none)
  | .setDefault id behavior => ({ world with defaults := world.defaults.insert id behavior }, .none)
  | .register deployment =>
      world.change (world.router.register deployment) fun fault => .routingError (.setup fault)
  | .deregister id =>
      let (router, deployment) := world.router.deregister id
      ({ world with router }, .deployment deployment)
  | .reload deployments => world.change (world.router.reload deployments) .setupFault
  | .applyConfig config => world.change (world.router.apply config) .gatewayError
  | .addAlias name target => ({ world with router := world.router.addAlias name target }, .none)
  | .setFallbacks model list =>
      ({ world with router := world.router.setFallbacks model list }, .none)
  | .setCallerLimits caller limits =>
      ({ world with router := world.router.setCallerLimits caller limits }, .none)
  | .chain model depth => (world, .texts (world.router.fallbacks.chain model depth))
  | .addOutcome id outcome =>
      let (router, ends) := world.router.addOutcome id outcome world.now
      ({ world with router }, .instant ends)
  | .addLatency id latency => ({ world with router := world.router.addLatency id latency }, .none)
  | .eligible id => (world, .flag (world.router.isEligible id world.now))
  | .stats id => (world, .stats (world.router.stats id world.now))
  | .get id => (world, .deployment (world.router.registry.get? id))
  | .models => (world, .texts world.router.registry.models)
  | .deployments => (world, .texts world.router.registry.deployments)
  | .candidates model =>
      (world, .tiers ((world.router.registry.candidates model).map (·.map (·.id))))
  | .settings => (world, .settings world.router.settings)
  | .describe => (world, .text world.router.describe)
  | .select model excluded cost =>
      let (selection, router) := world.router.select model excluded cost world.now {}
      ({ world with router }, .selection selection)
  | .snapshots model excluded cost =>
      (world, .candidates (world.router.candidates model excluded cost world.now) world.now)
  | .hold id cost name =>
      match hold world.router world.held world.now id cost name with
      | (.ok (), router, held) => ({ world with router, held }, .flag true)
      | (.error refusal, router, held) => ({ world with router, held }, .refused refusal)
  | .unhold name cost =>
      match world.held.get? name with
      | none => (world, .flag false)
      | some admission =>
          ({ world with
              router := world.router.settle admission cost world.now
              held := world.held.erase name }, .flag true)

/-- Reports on a world, with the counts of these callers, and begins the next report. -/
def report (world : World) (callers : List String) : World × Report :=
  let router := world.router
  let deployments := router.registry.deployments.map fun id =>
    let health := router.health.view id world.now
    { id, health
      eligible := health.isEligible world.now
      cooldownRemaining := health.cooldownRemaining world.now
      load := router.limiter.load .deployment id world.now }
  ({ world with calls := [], recorded := [] },
    { now := world.now
      calls := world.calls.reverse
      spend := world.recorded
      deployments
      callers := callers.map fun caller => (caller, router.limiter.load .caller caller world.now) })

end World

end DeploymentRouting.Rehearsal
