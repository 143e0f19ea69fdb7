import DeploymentRouting.Config.Apply
import DeploymentRouting.Proofs.Registry.Records
/-!
The operations that replace all that a router has, at once and without their checks. Since all
checks are made first, this is what the operations come to whenever they succeed.
-/
namespace DeploymentRouting

namespace Router

variable {deployments : List Deployment}

/-- A router with one more record, or with another one in the place of an old one. -/
def put (router : Router) (deployment : Deployment) : Router :=
  { router with registry := router.registry.put deployment }

/-- A deployment without a fault is registered. -/
theorem register_of_sound {deployment : Deployment} (router : Router)
    (h : deployment.fault? = none) : router.register deployment = .ok (router.put deployment) := by
  rw [register, router.registry.register_of_sound h]
  rfl

/-- Records without a fault are all registered. -/
theorem registerAll_of_sound (h : ∀ deployment ∈ deployments, deployment.fault? = none)
    (router : Router) : router.registerAll deployments = .ok (deployments.foldl put router) := by
  induction deployments generalizing router with
  | nil => rfl
  | cons deployment rest ih =>
      rw [registerAll, router.register_of_sound (h deployment List.mem_cons_self)]
      exact ih (fun other hOther => h other (List.mem_cons_of_mem deployment hOther)) _

/-- Takes some deployments out. -/
def deregisterAll (router : Router) (ids : List String) : Router :=
  ids.foldl (fun router id => (router.deregister id).1) router

/-- A router with all deployments of a list in their place and no others. -/
def replaceDeployments (router : Router) (deployments : List Deployment) : Router :=
  let router := deployments.foldl put router
  router.deregisterAll (router.registry.stale deployments)

/-- A list of them is taken over as a whole. -/
theorem reload_of_sound (h : ∀ deployment ∈ deployments, deployment.fault? = none)
    (router : Router) : router.reload deployments = .ok (router.replaceDeployments deployments) := by
  rw [reload, List.findSome?_eq_none_iff.mpr h]
  simp only
  rw [router.registerAll_of_sound h]
  rfl

theorem registry_foldl_put (deployments : List Deployment) (router : Router) :
    (deployments.foldl put router).registry = deployments.foldl Registry.put router.registry := by
  induction deployments generalizing router with
  | nil => rfl
  | cons deployment rest ih => exact ih (router.put deployment)

theorem registry_deregister (router : Router) (id : String) :
    (router.deregister id).1.registry = (router.registry.deregister id).1 := by
  unfold deregister Registry.deregister
  cases router.registry.records.get? id <;> rfl

theorem registry_deregisterAll (router : Router) (ids : List String) :
    (router.deregisterAll ids).registry = router.registry.deregisterAll ids := by
  induction ids generalizing router with
  | nil => rfl
  | cons id rest ih =>
      refine (ih (router.deregister id).1).trans ?_
      rw [registry_deregister]
      rfl

/-- What a reload does to the registry is to replace its records. -/
theorem registry_replaceDeployments (router : Router) (deployments : List Deployment) :
    (router.replaceDeployments deployments).registry =
      router.registry.replaceRecords deployments := by
  rw [replaceDeployments, registry_deregisterAll, registry_foldl_put]
  rfl

end Router

namespace ConfiguredDeployment

variable {configured : ConfiguredDeployment} {record : Deployment}

/-- A record that is built of a configuration has its fields, with the limits converted, and no
fault. -/
theorem exists_limits_of_deployment (h : configured.deployment = .ok record) :
    ∃ limits, configured.limits.limits configured.id = .ok limits ∧
      record =
        { id := configured.id
          modelNames := configured.servedModels
          provider := configured.provider
          model := configured.model
          apiBase := configured.apiBase
          apiKeyEnv := configured.apiKeyEnv
          weight := configured.weight
          tier := configured.tier
          limits
          timeout := configured.timeoutSecs.map Duration.ofSeconds
          tags := configured.tags } ∧
      record.fault? = none := by
  unfold ConfiguredDeployment.deployment at h
  cases hLimits : configured.limits.limits configured.id with
  | error fault =>
      rw [hLimits] at h
      cases h
  | ok limits =>
      rw [hLimits] at h
      simp only [bind, Except.bind] at h
      split at h
      next => cases h
      next hSound =>
        cases h
        exact ⟨limits, rfl, rfl, hSound⟩

/-- So what is built is sound. -/
theorem sound_of_deployment (h : configured.deployment = .ok record) : record.fault? = none := by
  obtain ⟨_, _, _, hSound⟩ := exists_limits_of_deployment h
  exact hSound

end ConfiguredDeployment

namespace Config

theorem sound_of_mapM {deployments : List ConfiguredDeployment} {records : List Deployment}
    (h : deployments.mapM ConfiguredDeployment.deployment = .ok records) :
    ∀ record ∈ records, record.fault? = none := by
  induction deployments generalizing records with
  | nil =>
      cases h
      intro record hRecord
      cases hRecord
  | cons configured rest ih =>
      rw [List.mapM_cons] at h
      cases hFirst : configured.deployment with
      | error fault =>
          rw [hFirst] at h
          cases h
      | ok first =>
          rw [hFirst] at h
          cases hRest : rest.mapM ConfiguredDeployment.deployment with
          | error fault =>
              rw [hRest] at h
              cases h
          | ok others =>
              rw [hRest] at h
              cases h
              intro record hRecord
              rcases List.mem_cons.mp hRecord with rfl | hOther
              · exact ConfiguredDeployment.sound_of_deployment hFirst
              · exact ih hRest record hOther

/-- Records that are read from a configuration have no fault. -/
theorem sound_of_records {config : Config} {records : List Deployment}
    (h : config.records = .ok records) : ∀ record ∈ records, record.fault? = none :=
  sound_of_mapM h

/-- The registry that is built of a configuration. -/
theorem registry_of_records {config : Config} {records : List Deployment}
    (h : config.records = .ok records) :
    config.registry = .ok { records.foldl Registry.put {} with aliases := config.aliases } := by
  rw [registry, h]
  change Except.bind (records.foldlM (fun registry record =>
    (registry.register record).map Prod.fst) ({} : Registry)) _ = _
  rw [Registry.foldlM_register_of_sound (sound_of_records h)]
  change Except.ok _ = Except.ok _
  rw [Registry.foldl_addAlias, Registry.aliases_foldl_put,
    Table.foldl_insert_entries fun _ _ => rfl]

/-- All that can be faulty in a configuration: its records and the limits of its callers. -/
def parts (config : Config) : Except SetupError (List Deployment × Table Limits) := do
  let records ← config.records
  let callerLimits ← config.limitsOfCallers
  return (records, callerLimits)

/-- The parts of a configuration are its records and the limits of its callers. -/
theorem records_of_parts {config : Config} {records : List Deployment}
    {callerLimits : Table Limits} (h : config.parts = .ok (records, callerLimits)) :
    config.records = .ok records ∧ config.limitsOfCallers = .ok callerLimits := by
  unfold parts at h
  cases hRecords : config.records with
  | error fault =>
      rw [hRecords] at h
      cases h
  | ok found =>
      rw [hRecords] at h
      cases hLimits : config.limitsOfCallers with
      | error fault =>
          rw [hLimits] at h
          cases h
      | ok limits =>
          rw [hLimits] at h
          cases h
          exact ⟨rfl, rfl⟩

end Config

namespace Router

/-- A router with the parts of a configuration in the place of its own. -/
def takeOver (router : Router) (config : Config) (records : List Deployment)
    (callerLimits : Table Limits) : Router :=
  let replaced := router.replaceDeployments records
  { replaced with
    fallbacks := ⟨config.fallbacks⟩
    registry := { replaced.registry with aliases := config.aliases }
    callerLimits }

/-- A configuration is taken over if all its parts can be built, and is refused else. -/
theorem apply_eq (router : Router) (config : Config) :
    router.apply config =
      match config.parts with
      | .ok (records, callerLimits) => .ok (router.takeOver config records callerLimits)
      | .error fault => .error (.deployment fault) := by
  unfold apply Config.parts
  cases hRecords : config.records with
  | error fault => rfl
  | ok records =>
      cases hLimits : config.limitsOfCallers with
      | error fault => rfl
      | ok callerLimits =>
          change (((router.reload records).mapError GatewayError.deployment).bind _) = _
          rw [reload_of_sound (Config.sound_of_records hRecords)]
          change Except.ok _ = Except.ok _
          rw [Registry.replaceAliases_eq]
          rfl

end Router

end DeploymentRouting
