import DeploymentRouting.Proofs.Gateway.Frame
import DeploymentRouting.Proofs.Registry.Changes
/-!
The health of a deployment that is registered anew. Its record goes when the deployment is taken
out, but a request that is on its way to it by then will still report its outcome, and thereby
begin a record again that nobody removes. Without such a request a deployment that comes, or comes
back, has no record.
-/
namespace DeploymentRouting

namespace Router

variable {router middle after : Router}

/-- No record is new, and those of deployments that are taken out go. -/
def Sheds (router after : Router) : Prop :=
  ∀ id record, after.health.records.get? id = some record →
    router.health.records.get? id = some record ∧
      (router.registry.contains id = true → after.registry.contains id = true)

/-- Records that are shed stay shed. -/
theorem Sheds.trans (first : Sheds router middle) (second : Sheds middle after) :
    Sheds router after := by
  intro id record hRecord
  obtain ⟨hMiddle, hKept⟩ := second id record hRecord
  obtain ⟨hBefore, hKeptBefore⟩ := first id record hMiddle
  exact ⟨hBefore, fun hRegistered => hKept (hKeptBefore hRegistered)⟩

theorem sheds_of_records_eq (hHealth : after.health = router.health)
    (hRecords : after.registry.records = router.registry.records) : Sheds router after := by
  intro id record hRecord
  rw [hHealth] at hRecord
  rw [Registry.contains, Registry.contains, hRecords]
  exact ⟨hRecord, fun hRegistered => hRegistered⟩

theorem sheds_foldl {γ : Type} {step : Router → γ → Router}
    (hStep : ∀ router item, Sheds router (step router item)) (items : List γ) (router : Router) :
    Sheds router (items.foldl step router) := by
  induction items generalizing router with
  | nil => exact sheds_of_records_eq rfl rfl
  | cons item rest ih => exact (hStep router item).trans (ih (step router item))

/-- To register a deployment brings no record with it. -/
theorem sheds_put (router : Router) (deployment : Deployment) :
    Sheds router (router.put deployment) := by
  intro id record hRecord
  refine ⟨hRecord, fun hRegistered => ?_⟩
  simp only [Registry.contains, Table.contains, put, Registry.put,
    Table.get?_insert] at hRegistered ⊢
  split
  · rfl
  · exact hRegistered

/-- A deployment that is taken out leaves no record behind. -/
theorem sheds_deregister (router : Router) (id : String) :
    Sheds router (router.deregister id).1 := by
  unfold deregister Registry.deregister
  cases hFound : router.registry.records.get? id with
  | none => exact sheds_of_records_eq rfl rfl
  | some found =>
      intro other record hRecord
      simp only [HealthTracker.remove, Registry.contains, Table.contains,
        Table.get?_erase] at hRecord ⊢
      split at hRecord
      · cases hRecord
      next hOther => simp [hOther, hRecord]

/-- So it is when many are put in and taken out at once. -/
theorem sheds_replaceDeployments (router : Router) (deployments : List Deployment) :
    Sheds router (router.replaceDeployments deployments) :=
  (sheds_foldl sheds_put deployments router).trans (sheds_foldl sheds_deregister _ _)

/-- No operation leaves the record of a deployment that it takes out. -/
theorem sheds_perform (router : Router) (operation : Operation) :
    Sheds router (operation.perform router) := by
  have hSame : Sheds router router := sheds_of_records_eq rfl rfl
  cases operation with
  | register deployment =>
      rw [Operation.perform]
      cases hFault : deployment.fault? with
      | some fault =>
          rw [register, router.registry.register_of_fault hFault]
          exact hSame
      | none =>
          rw [router.register_of_sound hFault]
          exact router.sheds_put deployment
  | deregister id => exact router.sheds_deregister id
  | reload deployments =>
      rw [Operation.perform]
      cases hFault : deployments.findSome? (·.fault?) with
      | some fault =>
          rw [reload, hFault]
          exact hSame
      | none =>
          rw [router.reload_of_sound (List.findSome?_eq_none_iff.mp hFault)]
          exact router.sheds_replaceDeployments deployments
  | apply config =>
      rw [Operation.perform, apply_eq]
      cases config.parts with
      | error fault => exact hSame
      | ok parts =>
          exact (router.sheds_replaceDeployments parts.1).trans (sheds_of_records_eq rfl rfl)
  | addAlias name target => exact sheds_of_records_eq rfl rfl
  | setFallbacks model list => exact hSame
  | setCallerLimits caller limits => exact hSame

/-- The deployments that are registered in one state and not in another. -/
def takenOut (router after : Router) : List String :=
  router.registry.deployments.filter (!after.registry.contains ·)

/-- Taken out is what was registered and is not any more. -/
theorem mem_takenOut {id : String} :
    id ∈ router.takenOut after ↔
      router.registry.contains id = true ∧ after.registry.contains id = false := by
  rw [takenOut, List.mem_filter, Registry.deployments, Table.mem_keys, Bool.not_eq_true',
    ← Option.isSome_iff_exists]
  rfl

end Router

namespace Dispatch

variable {α : Type} {dispatch : Dispatch α} {target : Deployment}

/-- A deployment comes to be the target of a request only if it is registered. -/
theorem target?_step {router : Router} (hIndexed : router.registry.Indexed) (now : Instant)
    (random : RandomSource) (h : (dispatch.step router now random).2.target? = some target) :
    dispatch.target? = some target ∨ router.registry.contains target.id = true := by
  cases hActive : dispatch.isSuspended with
  | true =>
      rw [step_of_suspended hActive] at h
      exact .inl h
  | false =>
      cases hBefore : dispatch.target? with
      | none =>
          have hChosen := (chosenFrom_of_none hBefore).step hActive (Eq.refl router.registry) now
            random
          obtain ⟨tier, hTier, hMem⟩ := hChosen target h
          have hFound := hIndexed.mem_candidates.mp (List.mem_flatten.mpr ⟨tier, hTier, hMem⟩)
          exact .inr (Option.isSome_iff_exists.mpr ⟨target, hFound.1⟩)
      | some chosen =>
          cases hPhase : dispatch.phase with
          | reserving looked deployment =>
              simp only [target?, hPhase] at hBefore
              simp only [Dispatch.step, hPhase] at h
              obtain ⟨_, _, _, hReserve⟩ | ⟨_, _, _, _, hReserve⟩ | ⟨_, _, _, _, hReserve⟩ :=
                dispatch.reserve_cases router now looked deployment
              all_goals
                rw [hReserve] at h
                cases h
              exact .inl hBefore.symm
          | calling call => simp [isSuspended, hPhase] at hActive
          | _ => simp only [target?, hPhase] at hBefore; cases hBefore

/-- When a call has returned its deployment is a target no more. -/
theorem target?_answer {router : Router} {now : Instant} {ended : CallEnd α}
    (h : (dispatch.answer router now ended).2.target? = some target) :
    dispatch.target? = some target := by
  cases hPhase : dispatch.phase with
  | calling call =>
      have hReturn := returnsTo_answer hPhase router now ended
      generalize (dispatch.answer router now ended).2 = after at hReturn h
      cases hReturn <;> cases h
  | _ =>
      simp only [Dispatch.answer, hPhase] at h
      exact h

end Dispatch

namespace Session

variable {β : Type} {router : Router} {session : Session β} {target : Deployment}

/-- A session has nothing at hand when it begins. -/
theorem target?_begin (router : Router) (streamed : Bool) (request : Request) (now : Instant) :
    (Session.begin (β := β) router streamed request now).2.1.target? = none := by
  have hRequest : ∀ {α : Type} (router : Router),
      (Dispatch.begin router request now : Dispatch α).target? = none := by
    intro α router
    simp only [Dispatch.begin]
    split <;> rfl
  exact begin_cases (motive := (·.target? = none)) rfl (fun _ => hRequest _)
    (fun _ => hRequest _) streamed

/-- What a session has at hand after a move it had before, or it is registered. -/
theorem target?_act (hIndexed : router.registry.Indexed) {now : Instant} {move : Move β}
    (h : (session.act router now move).2.1.target? = some target) :
    session.target? = some target ∨ router.registry.contains target.id = true := by
  unfold Session.act at h
  split at h
  case h_1 route random | h_5 route random =>
    exact route.dispatch.target?_step hIndexed now random h
  case h_2 | h_6 => exact .inl (Dispatch.target?_answer h)
  case h_3 | h_7 =>
    split at h
    · cases h
    · cases h
    · exact .inl h
  case h_11 => exact .inl h
  all_goals cases h

/-- The health does not hear of a session that begins. -/
theorem health_begin (router : Router) (streamed : Bool) (request : Request) (now : Instant) :
    (Session.begin (β := β) router streamed request now).1.health = router.health := by
  obtain ⟨limiter, hCaller⟩ := router.reserveCaller_eq now request
  rw [router_begin, hCaller]

end Session

namespace Gateway

variable {β : Type}

/-- Whether a request has chosen the deployment with an id and its call has not returned. -/
def isBoundFor (gateway : Gateway β) (id : String) : Bool :=
  gateway.sessions.any fun session => session.target?.any (·.id == id)

/-- The deployments that, when they were last taken out, had a request on its way to them. What
was left of earlier times is forgotten with the records that an operation removes. -/
def leftAfter (gateway : Gateway β) (left : List String) (after : Router) : List String :=
  let gone := gateway.router.takenOut after
  left.filter (!gone.contains ·) ++ gone.filter gateway.isBoundFor

/-- The states that a router can come to by operations and by requests, in any order of their
steps, with the deployments that were taken out while a request was on its way to them. -/
inductive Managed (settings : Settings) : Gateway β → List String → Prop where
  | start : Managed settings { router := Router.new settings } []
  | operate {gateway : Gateway β} {left : List String} (prior : Managed settings gateway left)
      (operation : Operation) (history : List Limiter.Move) :
      Managed settings { gateway with router := operation.perform gateway.router, history }
        (gateway.leftAfter left (operation.perform gateway.router))
  | begin {gateway : Gateway β} {left : List String} (prior : Managed settings gateway left)
      (streamed : Bool) (request : Request) (now : Instant) :
      Managed settings (gateway.begin streamed request now) left
  | act {gateway : Gateway β} {left : List String} (prior : Managed settings gateway left)
      (number : Nat) (move : Session.Move β) (now : Instant) :
      Managed settings (gateway.act number move now) left

/-- Whether an id is accounted for: it is registered, or it was taken out too early. -/
def Known (gateway : Gateway β) (left : List String) (id : String) : Prop :=
  gateway.router.registry.contains id = true ∨ id ∈ left

/-- Only ids that are accounted for are the target of a request or have a health record. -/
structure Tidy (gateway : Gateway β) (left : List String) : Prop where
  indexed : gateway.router.registry.Indexed
  targets : ∀ session ∈ gateway.sessions, ∀ target, session.target? = some target →
    gateway.Known left target.id
  records : ∀ id record, gateway.router.health.records.get? id = some record →
    gateway.Known left id

variable {settings : Settings} {gateway : Gateway β} {left : List String}

/-- A gateway is bound for what one of its sessions has at hand. -/
theorem isBoundFor_of_target {session : Session β} {target : Deployment}
    (hSession : session ∈ gateway.sessions) (hTarget : session.target? = some target) :
    gateway.isBoundFor target.id = true := by
  refine List.any_eq_true.mpr ⟨session, hSession, ?_⟩
  rw [hTarget]
  exact beq_self_eq_true target.id

/-- Left behind are those that are taken out while a session is bound for them. -/
theorem mem_leftAfter {after : Router} {id : String} :
    id ∈ gateway.leftAfter left after ↔
      (id ∈ left ∧ id ∉ gateway.router.takenOut after) ∨
        (id ∈ gateway.router.takenOut after ∧ gateway.isBoundFor id = true) := by
  rw [leftAfter, List.mem_append, List.mem_filter, List.mem_filter, Bool.not_eq_true',
    ← Bool.not_eq_true, List.contains_iff_mem]

/-- An operation keeps the gateway tidy, if those it leaves behind are noted. -/
theorem Tidy.operate (h : gateway.Tidy left) (operation : Operation)
    (history : List Limiter.Move) :
    Tidy { gateway with router := operation.perform gateway.router, history }
      (gateway.leftAfter left (operation.perform gateway.router)) where
  indexed := Router.indexed_perform h.indexed operation
  targets session hSession target hTarget := by
    have hBound := isBoundFor_of_target hSession hTarget
    by_cases hGone : target.id ∈ gateway.router.takenOut (operation.perform gateway.router)
    · exact .inr (mem_leftAfter.mpr (.inr ⟨hGone, hBound⟩))
    · rcases h.targets session hSession target hTarget with hRegistered | hLeft
      · left
        by_contra hAbsent
        exact hGone (Router.mem_takenOut.mpr ⟨hRegistered, Bool.eq_false_iff.mpr hAbsent⟩)
      · exact .inr (mem_leftAfter.mpr (.inl ⟨hLeft, hGone⟩))
  records id record hRecord := by
    obtain ⟨hBefore, hKept⟩ := gateway.router.sheds_perform operation id record hRecord
    rcases h.records id record hBefore with hRegistered | hLeft
    · exact .inl (hKept hRegistered)
    · refine .inr (mem_leftAfter.mpr (.inl ⟨hLeft, fun hGone => ?_⟩))
      obtain ⟨hRegistered, hAbsent⟩ := Router.mem_takenOut.mp hGone
      rw [hKept hRegistered] at hAbsent
      cases hAbsent

/-- A session that begins keeps it tidy. -/
theorem Tidy.begin (h : gateway.Tidy left) (streamed : Bool) (request : Request)
    (now : Instant) : (gateway.begin streamed request now).Tidy left := by
  have hRegistry :=
    (Session.sameSetup_begin (β := β) gateway.router streamed request now).registry
  have hKnown : ∀ {id}, gateway.Known left id →
      (gateway.begin streamed request now).Known left id := by
    intro id hId
    rwa [Known, show (gateway.begin streamed request now).router.registry = _ from hRegistry]
  constructor
  case indexed => exact hRegistry ▸ h.indexed
  case targets =>
    intro session hSession target hTarget
    rw [show (gateway.begin streamed request now).sessions = gateway.sessions ++
      [(Session.begin gateway.router streamed request now).2.1] from rfl] at hSession
    rcases List.mem_append.mp hSession with hOld | hNew
    · exact hKnown (h.targets session hOld target hTarget)
    · rw [List.mem_singleton.mp hNew, Session.target?_begin] at hTarget
      cases hTarget
  case records =>
    intro id record hRecord
    rw [show (gateway.begin streamed request now).router.health = _ from
      Session.health_begin gateway.router streamed request now] at hRecord
    exact hKnown (h.records id record hRecord)

/-- So does every move of a session. -/
theorem Tidy.act (h : gateway.Tidy left) (number : Nat) (move : Session.Move β) (now : Instant) :
    (gateway.act number move now).Tidy left := by
  cases hSession : gateway.sessions[number]? with
  | none =>
      rw [act_of_none hSession]
      exact h
  | some session =>
      obtain ⟨hRouter, hAfter⟩ := act_of_some hSession move now
      have hMem : session ∈ gateway.sessions := List.mem_of_getElem? hSession
      have hRegistry : (gateway.act number move now).router.registry = gateway.router.registry := by
        rw [hRouter]
        exact (Session.sameSetup_act gateway.router now session move).registry
      have hKnown : ∀ {id}, gateway.Known left id →
          (gateway.act number move now).Known left id := by
        intro id hId
        rwa [Known, hRegistry]
      constructor
      case indexed => exact hRegistry ▸ h.indexed
      case targets =>
        intro other hOther target hTarget
        obtain ⟨position, hPosition⟩ := List.mem_iff_getElem?.mp hOther
        rw [hAfter position] at hPosition
        split at hPosition
        · cases hPosition
          rcases Session.target?_act h.indexed hTarget with hOld | hRegistered
          · exact hKnown (h.targets session hMem target hOld)
          · exact hKnown (.inl hRegistered)
        · exact hKnown (h.targets other (List.mem_of_getElem? hPosition) target hTarget)
      case records =>
        intro id record hRecord
        rw [hRouter] at hRecord
        by_cases hTarget : ∃ target, session.target? = some target ∧ target.id = id
        · obtain ⟨target, hTarget, rfl⟩ := hTarget
          exact hKnown (h.targets session hMem target hTarget)
        · rw [session.keepsBeside_act gateway.router now move id
            fun target hFound hId => hTarget ⟨target, hFound, hId⟩] at hRecord
          exact hKnown (h.records id record hRecord)

/-- So a gateway is tidy however it is managed. -/
theorem Managed.tidy (h : Managed settings gateway left) : gateway.Tidy left := by
  induction h with
  | start =>
      exact {
        indexed := Registry.indexed_empty
        targets := fun session hSession => nomatch hSession
        records := fun id record hRecord => nomatch hRecord }
  | operate prior operation history ih => exact ih.operate operation history
  | begin prior streamed request now ih => exact ih.begin streamed request now
  | act prior number move now ih => exact ih.act number move now

/-- A deployment has a health record only while it is registered, unless a request was on its way
to it when it was last taken out. So without such a request one that is registered anew, by
whatever operation, reads as one that nothing was ever reported of. -/
theorem Managed.newcomers_clean (h : Managed settings gateway left) :
    (∀ id record, gateway.router.health.records.get? id = some record →
      gateway.router.registry.contains id = true ∨ id ∈ left) ∧
      ∀ (operation : Operation) (id : String) (deployment : Deployment),
        gateway.router.registry.contains id = false →
        (operation.perform gateway.router).registry.get? id = some deployment → id ∉ left →
        ∀ now, (operation.perform gateway.router).stats id now =
          some {
            deployment
            health := {}
            eligible := true
            cooldownRemaining := none
            load := (operation.perform gateway.router).limiter.load .deployment id now } := by
  refine ⟨h.tidy.records, fun operation id deployment hAbsent hFound hLeft now => ?_⟩
  have hNone : (operation.perform gateway.router).health.records.get? id = none := by
    cases hRecord : (operation.perform gateway.router).health.records.get? id with
    | none => rfl
    | some record =>
        have hBefore := (gateway.router.sheds_perform operation id record hRecord).1
        rcases h.tidy.records id record hBefore with hRegistered | hMem
        · rw [hAbsent] at hRegistered
          cases hRegistered
        · exact absurd hMem hLeft
  have hView : (operation.perform gateway.router).health.view id now = {} := by
    rw [HealthTracker.view, HealthTracker.record, hNone]
    rfl
  rw [Router.stats, hFound, hView]
  rfl

/-- A deployment rests after its first failure. -/
def strictSettings : Settings := { strategy := .roundRobin, maxAttempts := 1, allowedFails := 0 }

def strictRegister : Operation := .register (Dispatch.servingDeployment "d1" "m")

def operated (gateway : Gateway Unit) (operation : Operation) : Gateway Unit :=
  { gateway with router := operation.perform gateway.router, history := [] }

/-- A request is in a call of the only deployment. -/
def strictGateway : Gateway Unit :=
  (((Gateway.begin (operated { router := Router.new strictSettings } strictRegister) false
    { model := "m", payload := .null, deadline := 100 } 0).act
      0 (.step {}) 1).act 0 (.step {}) 2).act 0 (.step {}) 3

def strictFailure : Session.Move Unit := .answerWhole (.failure (.server 503 "busy"))

/-- The deployment is taken out after the call has failed. -/
def tidyGateway : Gateway Unit := operated (strictGateway.act 0 strictFailure 5) (.deregister "d1")

/-- The deployment is taken out before the call fails. -/
def lateGateway : Gateway Unit := (operated strictGateway (.deregister "d1")).act 0 strictFailure 5

theorem managed_strictGateway : Managed strictSettings strictGateway [] := by
  have hStart : Managed (β := Unit) strictSettings _ _ := Managed.start
  have hBegun := (hStart.operate strictRegister []).begin false
    { model := "m", payload := .null, deadline := 100 } 0
  exact ((hBegun.act 0 (.step {}) 1).act 0 (.step {}) 2).act 0 (.step {}) 3

/-- The failure is forgotten when the deployment comes back. -/
theorem Managed.newcomers_clean_tidy :
    tidyGateway.router.registry.contains "d1" = false ∧
      (strictGateway.act 0 strictFailure 5).router.isEligible "d1" 6 = false ∧
      ((strictRegister.perform tidyGateway.router).stats "d1" 6).map (·.health) = some {} := by
  have hTidy : Managed strictSettings tidyGateway [] :=
    (managed_strictGateway.act 0 strictFailure 5).operate (.deregister "d1") []
  have hAbsent : tidyGateway.router.registry.contains "d1" = false := by decide +kernel
  have hBack : (strictRegister.perform tidyGateway.router).registry.get? "d1" =
    some (Dispatch.servingDeployment "d1" "m") := rfl
  obtain ⟨_, hClean⟩ := hTidy.newcomers_clean
  refine ⟨hAbsent, by decide +kernel, ?_⟩
  rw [hClean strictRegister "d1" _ hAbsent hBack List.not_mem_nil 6]
  rfl

/-- But a call that fails after its deployment was taken out begins a record, and the deployment
comes back with a cooldown. -/
theorem Managed.late_report_stays :
    Managed strictSettings lateGateway ["d1"] ∧
      lateGateway.router.registry.contains "d1" = false ∧
      (lateGateway.router.health.records.get? "d1").isSome = true ∧
      ((strictRegister.perform lateGateway.router).stats "d1" 6).map (·.health) =
        some { cooldownUntil := some 5000000005, consecutiveFailures := 1, failures := 1 } ∧
      (strictRegister.perform lateGateway.router).isEligible "d1" 6 = false := by
  refine ⟨?_, by decide +kernel, by decide +kernel, by decide +kernel, by decide +kernel⟩
  exact (managed_strictGateway.operate (.deregister "d1") []).act 0 strictFailure 5

end Gateway

end DeploymentRouting
