import DeploymentRouting.Proofs.Dispatch.Trace
import DeploymentRouting.Proofs.Limiter.Occupancy
import DeploymentRouting.Proofs.Router.Takeover
/-!
What a reload leaves of the state of a router in use. A deployment that stays keeps its health and
its counts, also when its record is replaced. One that goes loses its health at once and its counts
unless a call of it is in flight. A list with a faulty record changes nothing at all.
-/
namespace DeploymentRouting

namespace Router

section Deregistering

variable (router : Router) (id other : String) (party : Party) (key : String)

/-- A deployment that is taken out is the only one that is not registered any more. -/
theorem contains_deregister :
    (router.deregister id).1.registry.contains other =
      (decide (other ≠ id) && router.registry.contains other) := by
  rw [registry_deregister, Registry.contains, Registry.contains, Table.contains, Table.contains,
    Registry.get?_deregister]
  by_cases hId : other = id <;> simp [hId]

/-- Only a deployment that is registered loses its health record. -/
theorem healthRecord_deregister :
    (router.deregister id).1.health.records.get? other =
      if other = id ∧ router.registry.contains other = true then none
      else router.health.records.get? other := by
  unfold deregister Registry.deregister Registry.contains Table.contains
  cases hFound : router.registry.records.get? id with
  | none =>
      by_cases hId : other = id
      · simp [hId, hFound]
      · simp [hId]
  | some record =>
      by_cases hId : other = id
      · simp [hId, hFound, HealthTracker.remove]
      · simp [hId, HealthTracker.remove]

/-- Its cell stays if an admission is out on it. -/
theorem cell?_deregister :
    (router.deregister id).1.limiter.cell? party key =
      if party = .deployment ∧ key = id ∧ router.registry.contains key = true then
        (router.limiter.cell? party key).filter fun cell => decide (cell.holders ≠ 0)
      else router.limiter.cell? party key := by
  unfold deregister Registry.deregister Registry.contains Table.contains
  cases hFound : router.registry.records.get? id with
  | none =>
      by_cases hKey : key = id
      · simp [hKey, hFound]
      · simp [hKey]
  | some record =>
      simp only [Limiter.forget_cell?]
      by_cases hKey : key = id
      · simp [hKey, hFound]
      · simp [hKey]

end Deregistering

/-- Nothing changes but which deployments are registered, their health records and their cells. -/
structure OnlyDeployments (router after : Router) : Prop where
  setup : after =
    { router with registry := after.registry, health := after.health, limiter := after.limiter }
  aliases : after.registry.aliases = router.registry.aliases
  health : after.health = { router.health with records := after.health.records }
  limiter : after.limiter = { router.limiter with deployments := after.limiter.deployments }

namespace OnlyDeployments

variable {router middle after : Router}

theorem refl (router : Router) : OnlyDeployments router router := ⟨rfl, rfl, rfl, rfl⟩

theorem trans (first : OnlyDeployments router middle) (second : OnlyDeployments middle after) :
    OnlyDeployments router after where
  setup := by rw [second.setup, first.setup]
  aliases := second.aliases.trans first.aliases
  health := by rw [second.health, first.health]
  limiter := by rw [second.limiter, first.limiter]

theorem foldl {γ : Type} {step : Router → γ → Router}
    (hStep : ∀ router item, OnlyDeployments router (step router item)) (items : List γ)
    (router : Router) : OnlyDeployments router (items.foldl step router) := by
  induction items generalizing router with
  | nil => exact refl router
  | cons item rest ih => exact (hStep router item).trans (ih (step router item))

theorem put (router : Router) (deployment : Deployment) :
    OnlyDeployments router (router.put deployment) := ⟨rfl, rfl, rfl, rfl⟩

theorem forget_eq (limiter : Limiter) (id : String) :
    (limiter.forget id).1 = { limiter with deployments := (limiter.forget id).1.deployments } := by
  unfold Limiter.forget
  split
  · split <;> rfl
  · rfl

/-- To take one out changes nothing but what is kept of deployments. -/
theorem deregister (router : Router) (id : String) :
    OnlyDeployments router (router.deregister id).1 := by
  unfold Router.deregister Registry.deregister
  cases router.registry.records.get? id with
  | none => exact refl router
  | some record => exact ⟨rfl, rfl, rfl, forget_eq router.limiter id⟩

theorem replaceDeployments (router : Router) (deployments : List Deployment) :
    OnlyDeployments router (router.replaceDeployments deployments) :=
  (foldl put deployments router).trans (foldl deregister _ _)

end OnlyDeployments

section Replacing

variable (router : Router) (deployments : List Deployment) (ids : List String) (other : String)
  (party : Party) (key : String)

/-- With the deployments that are taken out their health goes. -/
theorem healthRecord_deregisterAll :
    (router.deregisterAll ids).health.records.get? other =
      if other ∈ ids ∧ router.registry.contains other = true then none
      else router.health.records.get? other := by
  induction ids generalizing router with
  | nil => simp [deregisterAll]
  | cons id rest ih =>
      change ((router.deregister id).1.deregisterAll rest).health.records.get? other = _
      rw [ih, contains_deregister, healthRecord_deregister]
      by_cases hId : other = id <;> simp [hId]

/-- Their cells go if nobody holds a place in them. -/
theorem cell?_deregisterAll :
    (router.deregisterAll ids).limiter.cell? party key =
      if party = .deployment ∧ key ∈ ids ∧ router.registry.contains key = true then
        (router.limiter.cell? party key).filter fun cell => decide (cell.holders ≠ 0)
      else router.limiter.cell? party key := by
  induction ids generalizing router with
  | nil => simp [deregisterAll]
  | cons id rest ih =>
      change ((router.deregister id).1.deregisterAll rest).limiter.cell? party key = _
      rw [ih, contains_deregister, cell?_deregister]
      by_cases hKey : key = id <;> simp [hKey]

/-- Registering touches neither the health nor the places of any deployment. -/
theorem liveState_foldl_put :
    (deployments.foldl put router).health = router.health ∧
      (deployments.foldl put router).limiter = router.limiter := by
  induction deployments generalizing router with
  | nil => exact ⟨rfl, rfl⟩
  | cons deployment rest ih => exact ih (router.put deployment)

theorem contains_foldl_put_of_not_mem (h : other ∉ deployments.map (·.id)) :
    (deployments.foldl put router).registry.contains other = router.registry.contains other := by
  rw [registry_foldl_put, Registry.contains, Registry.contains, Table.contains, Table.contains,
    Registry.get?_foldl_put, Registry.lastOf_eq_none h, Option.none_or]

/-- The deployments that go are those that were registered and are not on the list. -/
theorem mem_stale_foldl_put :
    other ∈ (deployments.foldl put router).registry.stale deployments ↔
      router.registry.contains other = true ∧ other ∉ deployments.map (·.id) := by
  rw [Registry.mem_stale, ← Option.isSome_iff_exists]
  refine and_congr_left fun hAbsent => ?_
  rw [← contains_foldl_put_of_not_mem router deployments other hAbsent]
  rfl

/-- A reload takes out what was registered and is not on the list. -/
theorem goes_iff :
    (other ∈ (deployments.foldl put router).registry.stale deployments ∧
        (deployments.foldl put router).registry.contains other = true) ↔
      router.registry.contains other = true ∧ other ∉ deployments.map (·.id) := by
  rw [mem_stale_foldl_put]
  refine ⟨And.left, fun hGoes => ⟨hGoes, ?_⟩⟩
  rw [contains_foldl_put_of_not_mem router deployments other hGoes.2]
  exact hGoes.1

/-- A reload takes the health of those away and no other. -/
theorem healthRecord_replaceDeployments :
    (router.replaceDeployments deployments).health.records.get? other =
      if router.registry.contains other = true ∧ other ∉ deployments.map (·.id) then none
      else router.health.records.get? other := by
  rw [replaceDeployments, healthRecord_deregisterAll]
  simp only [goes_iff, (liveState_foldl_put router deployments).1]

/-- It takes their cells away unless a place is held in them. -/
theorem cell?_replaceDeployments :
    (router.replaceDeployments deployments).limiter.cell? party key =
      if party = .deployment ∧ router.registry.contains key = true ∧
          key ∉ deployments.map (·.id) then
        (router.limiter.cell? party key).filter fun cell => decide (cell.holders ≠ 0)
      else router.limiter.cell? party key := by
  rw [replaceDeployments, cell?_deregisterAll]
  simp only [goes_iff, (liveState_foldl_put router deployments).2]

/-- The ids of a registry are those that it contains. -/
theorem mem_deployments_iff (registry : Registry) (id : String) :
    id ∈ registry.deployments ↔ registry.contains id = true := by
  rw [Registry.deployments, Table.mem_keys, ← Option.isSome_iff_exists]
  rfl

end Replacing

variable {router : Router} {deployments : List Deployment}

/-- The check stops at the first fault and changes nothing. -/
theorem run_forM_check_of_fault {fault : SetupError}
    (h : deployments.findSome? (·.fault?) = some fault) (router : Router) :
    (deployments.forM checkInPlace).run router = (.error fault, router) := by
  induction deployments with
  | nil => cases h
  | cons deployment rest ih =>
      rw [List.findSome?_cons] at h
      rw [List.forM]
      cases hFault : deployment.fault? with
      | some first =>
          rw [hFault] at h
          cases h
          rw [InPlace.run_bind, checkInPlace, hFault]
          rfl
      | none =>
          rw [hFault] at h
          have hFirst : (checkInPlace deployment).run router = (.ok (), router) := by
            rw [checkInPlace, hFault]
            rfl
          rw [InPlace.run_bind_ok hFirst]
          exact ih h

/-- Piece by piece or all at once, a reload comes to the same. -/
theorem run_reloadInPlace (router : Router) (deployments : List Deployment) :
    (reloadInPlace deployments).run router =
      match router.reload deployments with
      | .ok after => (.ok (), after)
      | .error fault => (.error fault, router) := by
  cases hFault : deployments.findSome? (·.fault?) with
  | some fault =>
      rw [reload, hFault, reloadInPlace, InPlace.run_bind, run_forM_check_of_fault hFault]
  | none =>
      have hSound := List.findSome?_eq_none_iff.mp hFault
      rw [run_reloadInPlace_of_sound hSound, reload_of_sound hSound]

/-- A router after a list of deployments has taken the place of those that it had. The log is the
history of its limiter, which tells what is out. -/
structure Reloaded (router after : Router) (log : Limiter.Log) (deployments : List Deployment) :
    Prop where
  registered : ∀ id, id ∈ after.registry.deployments ↔ id ∈ deployments.map (·.id)
  record : ∀ id, after.registry.get? id = (deployments.filter (·.id == id)).getLast?
  /-- Whether it was registered before or not, what is on the list keeps what it had. -/
  kept : ∀ id ∈ deployments.map (·.id),
    after.health.records.get? id = router.health.records.get? id ∧
      after.limiter.cell? .deployment id = router.limiter.cell? .deployment id
  removed : ∀ id ∈ router.registry.deployments, id ∉ deployments.map (·.id) →
    after.health.records.get? id = none ∧
      (after.limiter.cell? .deployment id = none ↔ log.outOn .deployment id = 0) ∧
      (log.outOn .deployment id ≠ 0 →
        after.limiter.cell? .deployment id = router.limiter.cell? .deployment id)
  strangers : ∀ id ∉ router.registry.deployments,
    after.health.records.get? id = router.health.records.get? id ∧
      after.limiter.cell? .deployment id = router.limiter.cell? .deployment id
  elsewhere : OnlyDeployments router after

/-- A cell is dropped exactly if nothing is out on it, and else stays as it was. -/
theorem filter_holders {limiter : Limiter} {log : Limiter.Log}
    (h : Limiter.Accounts limiter log.out) (id : String) :
    (((limiter.cell? .deployment id).filter fun cell => decide (cell.holders ≠ 0)) = none ↔
        log.outOn .deployment id = 0) ∧
      (log.outOn .deployment id ≠ 0 →
        ((limiter.cell? .deployment id).filter fun cell => decide (cell.holders ≠ 0)) =
          limiter.cell? .deployment id) := by
  cases hCell : limiter.cell? .deployment id with
  | none =>
      have hNone : log.outOn .deployment id = 0 := h.countOn_of_none hCell
      simp [hNone]
  | some cell =>
      have hHolders : cell.holders = log.outOn .deployment id := h.holders hCell
      simp [Option.filter, hHolders]

/-- What a reload of sound deployments leaves, whatever the limiter has gone through. -/
theorem reloaded_replaceDeployments {log : Limiter.Log} (h : log.Sound)
    (hLimiter : log.limiter = router.limiter) (deployments : List Deployment) :
    Reloaded router (router.replaceDeployments deployments) log deployments := by
  have hRecord : ∀ id, (router.replaceDeployments deployments).registry.get? id =
      Registry.lastOf deployments id := by
    intro id
    rw [registry_replaceDeployments]
    exact router.registry.get?_replaceRecords deployments id
  refine ⟨fun id => ?_, hRecord, fun id hListed => ?_, fun id hRegistered hAbsent => ?_,
    fun id hStranger => ?_, .replaceDeployments router deployments⟩
  · rw [mem_deployments_iff]
    change ((router.replaceDeployments deployments).registry.get? id).isSome = true ↔ _
    rw [hRecord, Registry.lastOf_isSome_iff]
  · rw [healthRecord_replaceDeployments, cell?_replaceDeployments,
      if_neg fun hGoes => hGoes.2 hListed, if_neg fun hGoes => hGoes.2.2 hListed]
    exact ⟨rfl, rfl⟩
  · have hGoes := (mem_deployments_iff router.registry id).mp hRegistered
    rw [healthRecord_replaceDeployments, cell?_replaceDeployments, if_pos ⟨hGoes, hAbsent⟩,
      if_pos ⟨rfl, hGoes, hAbsent⟩]
    exact ⟨rfl, filter_holders (hLimiter ▸ h.accounts) id⟩
  · rw [mem_deployments_iff] at hStranger
    rw [healthRecord_replaceDeployments, cell?_replaceDeployments,
      if_neg fun hGoes => hStranger hGoes.1, if_neg fun hGoes => hStranger hGoes.2.1]
    exact ⟨rfl, rfl⟩

/-- A reload fails exactly at the first faulty record of its list, and then the router is as it
was. Otherwise the router is left with the last record of each id on the list, and with all health
and all counts but those of deployments that go. Their health goes with them, and so do their
counts, as far as no admission is out on them. This holds in every state of registry and health,
after every run of the limiter with whatever is still out. -/
theorem reload_all_or_nothing (router : Router) (window : Duration) (moves : List Limiter.Move)
    (hLimiter : (Limiter.Log.run window moves).limiter = router.limiter)
    (deployments : List Deployment) :
    match (reloadInPlace deployments).run router with
    | (.error fault, after) =>
        router.reload deployments = .error fault ∧
          deployments.findSome? (·.fault?) = some fault ∧ after = router
    | (.ok _, after) =>
        router.reload deployments = .ok after ∧
          (∀ deployment ∈ deployments, deployment.fault? = none) ∧
          Reloaded router after (Limiter.Log.run window moves) deployments := by
  cases hFault : deployments.findSome? (·.fault?) with
  | some fault =>
      have hReload : router.reload deployments = .error fault := by rw [reload, hFault]
      rw [run_reloadInPlace, hReload]
      exact ⟨rfl, rfl, rfl⟩
  | none =>
      have hSound := List.findSome?_eq_none_iff.mp hFault
      rw [run_reloadInPlace, reload_of_sound hSound]
      have hReloaded := reloaded_replaceDeployments (Limiter.Log.sound_run window moves) hLimiter
        deployments
      exact ⟨rfl, hSound, hReloaded⟩

/-- Two deployments on which no place is out, and before them one on which a place is out. -/
def drainingMoves : List Limiter.Move :=
  [.reserve 0 .deployment "d1" {} 5 0, .reserve 1 .deployment "d2" {} 5 10,
    .reserve 2 .deployment "d3" {} 5 20, .settle 1 .deployment 7 30, .settle 2 .deployment 9 40]

def drainingRouter : Router :=
  { Router.new {} with
    registry := ([pairDeployment "d1", pairDeployment "d2", pairDeployment "d3"]).foldl
      Registry.put {}
    health := { records := Table.ofList [("d1", { successes := 1 }), ("d2", { failures := 2 }),
      ("d3", { consecutiveFailures := 3 })] }
    limiter := (Limiter.Log.run Limiter.defaultWindow drainingMoves).limiter }

/-- A list that has the third deployment twice and a new one between. -/
def drainingList : List Deployment :=
  [pairDeployment "d3", pairDeployment "d4", { pairDeployment "d3" with tier := 1 }]

/-- The first two deployments go. The first one keeps its cell until its call is back, and the
second one loses it. The third one gets its last record and keeps the rest. -/
theorem reload_all_or_nothing_draining :
    (Limiter.Log.run Limiter.defaultWindow drainingMoves).limiter = drainingRouter.limiter ∧
      ∃ after, (reloadInPlace drainingList).run drainingRouter = (.ok (), after) ∧
        (∀ id, id ∈ after.registry.deployments ↔ id ∈ ["d3", "d4", "d3"]) ∧
        (after.registry.get? "d3").map (·.tier) = some 1 ∧
        after.health.records.get? "d3" = some { consecutiveFailures := 3 } ∧
        after.health.records.get? "d1" = none ∧ after.health.records.get? "d2" = none ∧
        (after.limiter.cell? .deployment "d1").map Cell.holders = some 1 ∧
        after.limiter.cell? .deployment "d2" = none ∧
        (after.limiter.cell? .deployment "d3").map Cell.holders = some 0 := by
  have hSound : ∀ deployment ∈ drainingList, deployment.fault? = none := by
    simp only [drainingList, List.forall_mem_cons, List.not_mem_nil, false_implies, implies_true,
      and_true]
    exact ⟨rfl, rfl, rfl⟩
  have hRun := run_reloadInPlace_of_sound hSound drainingRouter
  have hReload := reload_all_or_nothing drainingRouter Limiter.defaultWindow drainingMoves rfl
    drainingList
  rw [hRun] at hReload
  obtain ⟨_, _, hReloaded⟩ := hReload
  obtain ⟨hHealth, hCell⟩ := hReloaded.kept "d3" (by decide)
  obtain ⟨hFirst, _, hHeld⟩ := hReloaded.removed "d1" (by decide) (by decide)
  obtain ⟨hSecond, hDropped, _⟩ := hReloaded.removed "d2" (by decide) (by decide)
  refine ⟨rfl, _, hRun, hReloaded.registered, ?_, hHealth, hFirst, hSecond, ?_,
    hDropped.mpr (by decide), ?_⟩
  · rw [hReloaded.record]
    rfl
  · rw [hHeld (by decide)]
    rfl
  · rw [hCell]
    rfl

end Router

end DeploymentRouting
