import DeploymentRouting.Proofs.Gateway.Session
import DeploymentRouting.Proofs.Registry.Answers
import DeploymentRouting.Proofs.Router.Reload
import DeploymentRouting.Proofs.Router.Setup
/-!
The states that a router can come to. Its registry changes only by the operations of whoever
manages it, and requests leave it alone, so in every such state the index agrees with the
records.
-/
namespace DeploymentRouting

namespace Session

variable {β : Type} (router : Router)

theorem sameSetup_begin (streamed : Bool) (request : Request) (now : Instant) :
    Router.SameSetup router (Session.begin (β := β) router streamed request now).1 := by
  rw [router_begin]
  exact router.sameSetup_reserveCaller request now

theorem sameSetup_act (now : Instant) (session : Session β) (move : Move β) :
    Router.SameSetup router (session.act router now move).1 := by
  unfold Session.act
  split
  case h_1 route random => exact route.dispatch.sameSetup_step router now random
  case h_2 route ended => exact route.dispatch.sameSetup_answer router now ended
  case h_3 route =>
    split
    · exact sameSetup_settleServed ..
    · exact router.sameSetup_settleSome ..
    · exact .refl router
  case h_4 route => exact route.sameSetup_cancel router now
  case h_5 route random => exact route.dispatch.sameSetup_step router now random
  case h_6 route ended => exact route.dispatch.sameSetup_answer router now ended
  case h_7 route =>
    split
    · exact .refl router
    · exact router.sameSetup_settleSome ..
    · exact .refl router
  case h_8 route => exact route.sameSetup_cancel router now
  case h_9 stream arrival =>
    simp only [RoutedStream.read]
    split
    · exact stream.sameSetup_receive router now arrival
    · exact stream.sameSetup_poll router now
  case h_10 stream => exact stream.sameSetup_drop router now
  case h_11 => exact .refl router

end Session

namespace Router

variable {router : Router}

theorem indexed_reload (h : router.registry.Indexed) {deployments : List Deployment}
    {after : Router} (hReload : router.reload deployments = .ok after) :
    after.registry.Indexed := by
  cases hFault : deployments.findSome? (·.fault?) with
  | some fault =>
      rw [reload, hFault] at hReload
      cases hReload
  | none =>
      rw [router.reload_of_sound (List.findSome?_eq_none_iff.mp hFault)] at hReload
      cases hReload
      rw [registry_replaceDeployments]
      exact h.replaceRecords deployments

theorem indexed_takeOver (h : router.registry.Indexed) (config : Config)
    (records : List Deployment) (callerLimits : Table Limits) :
    (router.takeOver config records callerLimits).registry.Indexed := by
  simp only [takeOver, registry_replaceDeployments]
  exact (h.replaceRecords records).withAliases config.aliases

theorem indexed_perform (h : router.registry.Indexed) (operation : Operation) :
    (operation.perform router).registry.Indexed := by
  cases operation with
  | register deployment =>
      cases hFault : deployment.fault? with
      | some fault =>
          rw [Operation.perform, register, router.registry.register_of_fault hFault]
          exact h
      | none =>
          rw [Operation.perform, router.register_of_sound hFault]
          exact h.put deployment
  | deregister id =>
      rw [Operation.perform, registry_deregister]
      exact h.deregister id
  | reload deployments =>
      rw [Operation.perform]
      cases hReload : router.reload deployments with
      | error fault => exact h
      | ok after => exact indexed_reload h hReload
  | apply config =>
      rw [Operation.perform, apply_eq]
      cases config.parts with
      | error fault => exact h
      | ok parts => exact indexed_takeOver h config parts.1 parts.2
  | addAlias name target => exact h.withAliases _
  | setFallbacks model list => exact h
  | setCallerLimits caller limits => exact h

/-- The states that a router can come to. Its registry may also be changed directly. Whatever
else happens to the router, by requests or otherwise, leaves the registry as it is. -/
inductive Reachable (settings : Settings) : Router → Prop where
  | new : Reachable settings (Router.new settings)
  | operate {router : Router} (prior : Reachable settings router) (operation : Operation) :
      Reachable settings (operation.perform router)
  | change {router : Router} (prior : Reachable settings router) (change : Registry.Change) :
      Reachable settings { router with registry := change.perform router.registry }
  | other {router : Router} (prior : Reachable settings router) (after : Router)
      (hRegistry : after.registry = router.registry) : Reachable settings after

namespace Reachable

variable {settings : Settings}

/-- In every state the index agrees with the records. -/
theorem indexed (h : Reachable settings router) : router.registry.Indexed := by
  induction h with
  | new => exact Registry.indexed_empty
  | operate prior operation ih => exact indexed_perform ih operation
  | change prior change ih => exact ih.perform change
  | other prior after hRegistry ih => rwa [hRegistry]

/-- Requests lead from one reachable state to another, wherever they are. -/
theorem begin {β : Type} (h : Reachable settings router) (streamed : Bool) (request : Request)
    (now : Instant) :
    Reachable settings (Session.begin (β := β) router streamed request now).1 :=
  h.other _ (Session.sameSetup_begin router streamed request now).registry

theorem act {β : Type} (h : Reachable settings router) (now : Instant) (session : Session β)
    (move : Session.Move β) : Reachable settings (session.act router now move).1 :=
  h.other _ (Session.sameSetup_act router now session move).registry

end Reachable

end Router

end DeploymentRouting
