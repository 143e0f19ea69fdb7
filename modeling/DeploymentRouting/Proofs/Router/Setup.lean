import DeploymentRouting.Stream
/-!
The setup of a router: its settings, what is registered, the fallbacks and the limits of
callers. Whoever manages a router decides on it, and no step of a request ever changes it.
-/
namespace DeploymentRouting

universe u v

namespace Router

/-- Two states of a router with one setup. -/
structure SameSetup (router after : Router) : Prop where
  settings : after.settings = router.settings
  registry : after.registry = router.registry
  fallbacks : after.fallbacks = router.fallbacks
  callerLimits : after.callerLimits = router.callerLimits

namespace SameSetup

variable {router middle after : Router}

theorem refl (router : Router) : SameSetup router router := ⟨rfl, rfl, rfl, rfl⟩

theorem trans (first : SameSetup router middle) (second : SameSetup middle after) :
    SameSetup router after where
  settings := second.settings.trans first.settings
  registry := second.registry.trans first.registry
  fallbacks := second.fallbacks.trans first.fallbacks
  callerLimits := second.callerLimits.trans first.callerLimits

end SameSetup

variable (router : Router)

/-- A choice moves the rotation on, which is no part of the setup. -/
theorem sameSetup_select (model : String) (excluded : List String) (cost : Nat) (now : Instant)
    (random : RandomSource) :
    SameSetup router (router.select model excluded cost now random).2 := ⟨rfl, rfl, rfl, rfl⟩

theorem sameSetup_reserve (deployment : Deployment) (cost : Nat) (now : Instant) :
    SameSetup router (router.reserve deployment cost now).1 := ⟨rfl, rfl, rfl, rfl⟩

/-- Limits of callers are looked up and stay as they are. -/
theorem sameSetup_reserveCaller (request : Request) (now : Instant) :
    SameSetup router (router.reserveCaller request now).1 := by
  unfold reserveCaller
  split
  · exact .refl router
  · split
    · exact .refl router
    · split
      · exact ⟨rfl, rfl, rfl, rfl⟩
      · exact ⟨rfl, rfl, rfl, rfl⟩

theorem sameSetup_settle (admission : Admission) (actual : Nat) (now : Instant) :
    SameSetup router (router.settle admission actual now) := ⟨rfl, rfl, rfl, rfl⟩

theorem sameSetup_settleSome (admission : Option Admission) (actual : Nat) (now : Instant) :
    SameSetup router (router.settleSome admission actual now) := by
  cases admission <;> exact ⟨rfl, rfl, rfl, rfl⟩

theorem sameSetup_abandon (admission : Admission) (now : Instant) :
    SameSetup router (router.abandon admission now) := ⟨rfl, rfl, rfl, rfl⟩

theorem sameSetup_abandonSome (admission : Option Admission) (now : Instant) :
    SameSetup router (router.abandonSome admission now) := by
  cases admission <;> exact ⟨rfl, rfl, rfl, rfl⟩

theorem sameSetup_addOutcome (id : String) (outcome : Outcome) (now : Instant) :
    SameSetup router (router.addOutcome id outcome now).1 := ⟨rfl, rfl, rfl, rfl⟩

theorem sameSetup_addLatency (id : String) (latency : Duration) :
    SameSetup router (router.addLatency id latency) := ⟨rfl, rfl, rfl, rfl⟩

theorem sameSetup_notifySpend (event : SpendEvent) :
    SameSetup router (router.notifySpend event) := ⟨rfl, rfl, rfl, rfl⟩

end Router

open Router

namespace Dispatch

variable {α : Type u} (router : Router) (now : Instant) (dispatch : Dispatch α)

theorem sameSetup_reserve (looked : Instant) (deployment : Deployment) :
    SameSetup router (dispatch.reserve router now looked deployment).1 := by
  have hSame := router.sameSetup_reserve deployment dispatch.request.estimate looked
  obtain ⟨after, refusal, hRefused, hReserve⟩ | ⟨after, admission, hGranted, _, hReserve⟩ |
    ⟨after, admission, hGranted, _, hReserve⟩ := dispatch.reserve_cases router now looked deployment
  · rw [hRefused] at hSame
    rw [hReserve]
    exact hSame.trans (sameSetup_addOutcome _ deployment.id .rateLimited looked)
  · rw [hGranted] at hSame
    rw [hReserve]
    exact hSame
  · rw [hGranted] at hSame
    rw [hReserve]
    exact hSame

/-- No step of a request changes what has been set up. -/
theorem sameSetup_step (random : RandomSource) :
    SameSetup router (dispatch.step router now random).1 := by
  unfold Dispatch.step
  split
  · exact .refl router
  · exact .refl router
  · exact router.sameSetup_select ..
  · exact dispatch.sameSetup_reserve router now ..
  · exact .refl router
  · exact .refl router
  · exact .refl router

theorem sameSetup_fail (call : PendingCall) (error : BackendError) :
    SameSetup router (dispatch.fail router now call error).1 := by
  have hSettled := (router.sameSetup_settle call.admission 0 now).trans
    (sameSetup_addOutcome _ call.deployment.id error.outcome now)
  unfold Dispatch.fail
  split
  · exact hSettled
  · exact hSettled

theorem sameSetup_succeed (call : PendingCall) (value : α) :
    SameSetup router (dispatch.succeed router now call value).1 := by
  have hReported := (router.sameSetup_addLatency call.deployment.id (now - call.start)).trans
    (sameSetup_addOutcome _ call.deployment.id .success now)
  exact hReported

theorem sameSetup_cutOff (call : PendingCall) :
    SameSetup router (dispatch.cutOff router now call).1 := by
  have hGivenUp := (router.sameSetup_abandon call.admission now).trans
    (sameSetup_addOutcome _ call.deployment.id .retriableError now)
  simp only [Dispatch.cutOff]
  split
  · exact hGivenUp
  · exact dispatch.sameSetup_fail router now ..

/-- Nor does the end of a call, however it ends. -/
theorem sameSetup_answer (ended : CallEnd α) :
    SameSetup router (dispatch.answer router now ended).1 := by
  unfold Dispatch.answer
  split
  · split
    · exact dispatch.sameSetup_succeed router now ..
    · exact dispatch.sameSetup_fail router now ..
    · exact dispatch.sameSetup_cutOff router now ..
  · exact .refl router

/-- To give a request up changes counts and nothing else. -/
theorem sameSetup_cancel : SameSetup router (dispatch.cancel router now) := by
  unfold Dispatch.cancel
  split
  · exact router.sameSetup_abandon ..
  · exact router.sameSetup_abandon ..
  · exact router.sameSetup_abandon ..
  · exact .refl router

end Dispatch

theorem sameSetup_settleServed (router : Router) (now : Instant) (request : Request)
    (callerAdmission : Option Admission) (admission : Admission)
    (deployment modelUsed : String) (usage : Option TokenUsage) :
    SameSetup router
      (settleServed router now request callerAdmission admission deployment modelUsed usage) :=
  ((router.sameSetup_settle _ _ _).trans (sameSetup_settleSome ..)).trans
    (sameSetup_notifySpend ..)

namespace Route

variable {α : Type u} (router : Router) (now : Instant)

theorem sameSetup_cancel (route : Route α) : SameSetup router (route.cancel router now) :=
  (route.dispatch.sameSetup_cancel router now).trans (sameSetup_abandonSome ..)

end Route

namespace RoutedStream

variable (router : Router) (now : Instant) (stream : RoutedStream)

theorem sameSetup_close : SameSetup router (stream.close router now).1 :=
  sameSetup_settleServed ..

theorem sameSetup_poll : SameSetup router (stream.poll router now).1 := by
  unfold RoutedStream.poll
  split
  · exact .refl router
  · exact stream.sameSetup_close router now
  · exact .refl router
  · exact .refl router
  · exact .refl router

/-- What a stream hears from its backend changes nothing of the setup. -/
theorem sameSetup_receive (arrival : Arrival) :
    SameSetup router (stream.receive router now arrival).1 := by
  cases arrival with
  | chunk chunk => exact .refl router
  | error error => exact .refl router
  | overdue => exact .refl router
  | ended => exact stream.sameSetup_close router now

/-- A stream may also be dropped at any time. -/
theorem sameSetup_drop : SameSetup router (stream.drop router now) := by
  have hGivenUp := (router.sameSetup_abandon stream.admission now).trans
    (sameSetup_abandonSome _ stream.callerAdmission now)
  unfold RoutedStream.drop
  split
  · exact .refl router
  · exact hGivenUp
  · exact hGivenUp
  · exact hGivenUp

end RoutedStream

end DeploymentRouting
