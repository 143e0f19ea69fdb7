import DeploymentRouting.Proofs.Router.Reload
import Mathlib.Data.List.Forall2
/-!
Routers and registries of configurations without a fault. Checks, conversions and registrations are
made apart from each other and each looks at the same records again. A configuration that passes
the check never fails in what follows, and nothing of what it says of its deployments and callers
is lost on the way.
-/
namespace DeploymentRouting

universe u v w

section Conversions

variable {α : Type u} {β : Type v} {ε : Type w} {f : α → Except ε β} {items : List α}

/-- Where every item has a value the whole list has. -/
theorem mapM_of_forall (h : ∀ item ∈ items, ∃ value, f item = .ok value) :
    ∃ values, items.mapM f = .ok values := by
  induction items with
  | nil => exact ⟨[], rfl⟩
  | cons item rest ih =>
      obtain ⟨value, hValue⟩ := h item List.mem_cons_self
      obtain ⟨values, hValues⟩ := ih fun other hOther => h other (List.mem_cons_of_mem item hOther)
      refine ⟨value :: values, ?_⟩
      rw [List.mapM_cons, hValue, hValues]
      rfl

theorem forall₂_of_mapM {values : List β} (h : items.mapM f = .ok values) :
    List.Forall₂ (fun item value => f item = .ok value) items values := by
  induction items generalizing values with
  | nil =>
      cases h
      exact .nil
  | cons item rest ih =>
      rw [List.mapM_cons] at h
      cases hValue : f item with
      | error fault =>
          rw [hValue] at h
          cases h
      | ok value =>
          rw [hValue] at h
          cases hRest : rest.mapM f with
          | error fault =>
              rw [hRest] at h
              cases h
          | ok others =>
              rw [hRest] at h
              cases h
              exact .cons hValue (ih hRest)

theorem map_eq_of_forall₂ {γ : Type w} {R : α → β → Prop} {values : List β} {f : α → γ} {g : β → γ}
    (h : List.Forall₂ R items values) (hSame : ∀ item value, R item value → f item = g value) :
    items.map f = values.map g := by
  induction h with
  | nil => rfl
  | cons hFirst hRest ih => exact congrArg₂ List.cons (hSame _ _ hFirst) ih

end Conversions

namespace ConfiguredLimits

/-- Limits that say the same as those of a configuration. Of calls at one time no more are counted
than fit into 32 bits. A negative limit converts to nothing. -/
structure ConvertsTo (configured : ConfiguredLimits) (limits : Limits) : Prop where
  requests : limits.requests.map Int.ofNat = configured.rpm
  tokens : limits.tokens.map Int.ofNat = configured.tpm
  parallel : limits.parallel.map Int.ofNat =
    configured.maxParallelRequests.map fun most => if 4294967295 < most then 4294967295 else most

variable {configured : ConfiguredLimits} {owner : String} {limits : Limits}

/-- A limit that passes its check is taken over as it is. -/
theorem checked_eq_ok {limit : LimitName} {value : Option Int} {checkedValue : Option Nat}
    (h : checked owner limit value = .ok checkedValue) :
    checkedValue.map Int.ofNat = value := by
  cases value with
  | none =>
      cases h
      rfl
  | some value =>
      rw [checked] at h
      split at h
      next => cases h
      next hNotNegative =>
        cases h
        exact congrArg some (Int.toNat_of_nonneg (Int.not_lt.mp hNotNegative))

/-- So are all limits of an owner. -/
theorem convertsTo_of_limits (h : configured.limits owner = .ok limits) :
    configured.ConvertsTo limits := by
  unfold ConfiguredLimits.limits at h
  cases hRequests : checked owner .rpm configured.rpm with
  | error fault =>
      rw [hRequests] at h
      cases h
  | ok requests =>
      rw [hRequests] at h
      cases hTokens : checked owner .tpm configured.tpm with
      | error fault =>
          rw [hTokens] at h
          cases h
      | ok tokens =>
          rw [hTokens] at h
          cases hParallel : checked owner .maxParallelRequests configured.maxParallelRequests with
          | error fault =>
              rw [hParallel] at h
              cases h
          | ok parallel =>
              rw [hParallel] at h
              cases h
              refine ⟨checked_eq_ok hRequests, checked_eq_ok hTokens, ?_⟩
              rw [← checked_eq_ok hParallel]
              cases parallel with
              | none => rfl
              | some most =>
                  simp only [Option.map_some, Counter.top32, Option.some.injEq,
                    Int.ofNat_eq_natCast]
                  omega

end ConfiguredLimits

namespace ConfiguredDeployment

/-- A record that says the same as a deployment of a configuration. -/
structure Describes (configured : ConfiguredDeployment) (record : Deployment) : Prop where
  id : record.id = configured.id
  tier : record.tier = configured.tier
  weight : record.weight = configured.weight
  limits : configured.limits.ConvertsTo record.limits
  distinctNames : record.modelNames.Nodup
  names : ∀ name, name ∈ record.modelNames ↔
    configured.modelName = some name ∨ name ∈ configured.modelNames
  provider : record.provider = configured.provider
  model : record.model = configured.model
  apiBase : record.apiBase = configured.apiBase
  apiKeyEnv : record.apiKeyEnv = configured.apiKeyEnv
  timeout : record.timeout = configured.timeoutSecs.map Duration.ofSeconds
  tags : record.tags = configured.tags

variable {configured : ConfiguredDeployment} {record : Deployment}

/-- Names that are added one by one, each one only if it is new. -/
theorem foldl_addNew (names served : List String) (h : served.Nodup) :
    (names.foldl (fun names name => if names.contains name then names else names ++ [name])
        served).Nodup ∧
      ∀ name, name ∈ names.foldl (fun names name =>
          if names.contains name then names else names ++ [name]) served ↔
        name ∈ served ∨ name ∈ names := by
  induction names generalizing served with
  | nil => exact ⟨h, fun name => by simp⟩
  | cons first rest ih =>
      rw [List.foldl_cons]
      split
      next hServed =>
        obtain ⟨hNodup, hMem⟩ := ih served h
        refine ⟨hNodup, fun name => ?_⟩
        rw [hMem, List.mem_cons]
        constructor
        · exact Or.imp_right Or.inr
        · rintro (hOld | rfl | hRest)
          · exact Or.inl hOld
          · exact Or.inl (List.contains_iff_mem.mp hServed)
          · exact Or.inr hRest
      next hNew =>
        have hLonger : (served ++ [first]).Nodup :=
          List.nodup_append.mpr ⟨h, List.pairwise_singleton _ first, fun name hMem last hLast => by
            rw [List.mem_singleton.mp hLast]
            rintro rfl
            exact hNew (List.contains_iff_mem.mpr hMem)⟩
        obtain ⟨hNodup, hMem⟩ := ih (served ++ [first]) hLonger
        refine ⟨hNodup, fun name => ?_⟩
        rw [hMem, List.mem_append, List.mem_singleton, List.mem_cons, or_assoc]

/-- A deployment is served under its own model name and under all others it lists. -/
theorem mem_servedModels {name : String} :
    name ∈ configured.servedModels ↔
      configured.modelName = some name ∨ name ∈ configured.modelNames := by
  rw [servedModels, (foldl_addNew _ [] List.nodup_nil).2]
  simp [Option.mem_toList]

/-- The record that is built has the fields of what was configured. -/
theorem describes_of_deployment (h : configured.deployment = .ok record) :
    configured.Describes record := by
  obtain ⟨limits, hLimits, rfl, _⟩ := exists_limits_of_deployment h
  exact {
    id := rfl
    tier := rfl
    weight := rfl
    limits := ConfiguredLimits.convertsTo_of_limits hLimits
    distinctNames := (foldl_addNew _ [] List.nodup_nil).1
    names := fun name => mem_servedModels
    provider := rfl
    model := rfl
    apiBase := rfl
    apiKeyEnv := rfl
    timeout := rfl
    tags := rfl }

/-- A deployment without a fault has a record. -/
theorem deployment_of_fault? (h : configured.fault? = none) :
    ∃ record, configured.deployment = .ok record := by
  unfold ConfiguredDeployment.fault? at h
  split at h
  next => cases h
  next =>
    cases hRecord : configured.deployment with
    | error fault =>
        rw [hRecord] at h
        cases h
    | ok record => exact ⟨record, rfl⟩

end ConfiguredDeployment

/-- Where no two records have one id, each of them is the last one with its own. -/
theorem Registry.lastOf_of_nodup {deployments : List Deployment} {record : Deployment}
    (h : (deployments.map (·.id)).Nodup) (hRecord : record ∈ deployments) :
    lastOf deployments record.id = some record := by
  induction deployments with
  | nil => cases hRecord
  | cons first rest ih =>
      obtain ⟨hOwn, hRest⟩ := List.nodup_cons.mp h
      rw [lastOf_cons]
      rcases List.mem_cons.mp hRecord with rfl | hLater
      · rw [lastOf_eq_none hOwn, if_pos rfl]
        rfl
      · rw [ih hRest hLater]
        rfl

namespace Config

variable {config : Config}

/-- A list without a fault has none in its first deployment, whose id does not come again. -/
theorem deploymentFault?_cons {seen : List String} {configured : ConfiguredDeployment}
    {rest : List ConfiguredDeployment}
    (h : deploymentFault? seen (configured :: rest) = none) :
    configured.id ∉ seen ∧ configured.fault? = none ∧
      deploymentFault? (configured.id :: seen) rest = none := by
  simp only [deploymentFault?] at h
  by_cases hSeen : seen.contains configured.id = true
  · rw [if_pos hSeen] at h
    cases h
  · rw [if_neg hSeen] at h
    exact ⟨fun hMem => hSeen (List.contains_iff_mem.mpr hMem), Option.or_eq_none_iff.mp h⟩

/-- Deployments without a fault have ids of their own, and each of them has a record. -/
theorem of_deploymentFault? {seen : List String} {deployments : List ConfiguredDeployment}
    (h : deploymentFault? seen deployments = none) :
    (∀ configured ∈ deployments, configured.id ∉ seen) ∧
      (deployments.map (·.id)).Nodup ∧
      ∀ configured ∈ deployments, ∃ record, configured.deployment = .ok record := by
  induction deployments generalizing seen with
  | nil => exact ⟨List.forall_mem_nil _, List.nodup_nil, List.forall_mem_nil _⟩
  | cons configured rest ih =>
      obtain ⟨hNew, hFault, hRest⟩ := deploymentFault?_cons h
      obtain ⟨hUnseen, hDistinct, hRecords⟩ := ih hRest
      have hOwn : configured.id ∉ rest.map (·.id) := fun hMem => by
        obtain ⟨other, hOther, hSame⟩ := List.mem_map.mp hMem
        exact hUnseen other hOther (hSame ▸ List.mem_cons_self)
      exact ⟨List.forall_mem_cons.mpr ⟨hNew, fun other hOther hSeen =>
          hUnseen other hOther (List.mem_cons_of_mem _ hSeen)⟩,
        List.nodup_cons.mpr ⟨hOwn, hDistinct⟩,
        List.forall_mem_cons.mpr ⟨ConfiguredDeployment.deployment_of_fault? hFault, hRecords⟩⟩

/-- A configuration that is valid has no fault of any kind. -/
theorem faults_of_validate (h : config.validate = .ok ()) :
    config.settings.fault?.map SetupError.message = none ∧ config.loggingFault? = none ∧
      deploymentFault? [] config.deployments = none ∧ config.fallbackFault? = none ∧
      config.aliasFault? = none ∧ config.callerFault? = none := by
  have hFault : config.fault? = none := by
    unfold validate at h
    cases hFault : config.fault? with
    | none => rfl
    | some fault =>
        rw [hFault] at h
        cases h
  simpa only [fault?, Option.or_eq_none_iff] using hFault

/-- Limits of callers without a fault are all converted. -/
theorem limitsOfCallers_of_fault? (h : config.callerFault? = none) :
    ∃ callers, config.limitsOfCallers = .ok callers := by
  unfold callerFault? at h
  cases hLimits : config.limitsOfCallers with
  | error fault =>
      rw [hLimits] at h
      cases h
  | ok callers => exact ⟨callers, rfl⟩

theorem findEntry_rel {α : Type u} {β : Type v} {R : α → β → Prop}
    {entries : List (String × α)} {others : List (String × β)}
    (h : List.Forall₂ (fun entry other => other.1 = entry.1 ∧ R entry.2 other.2) entries others)
    (name : String) :
    Option.Rel R (Table.findEntry name entries) (Table.findEntry name others) := by
  induction h with
  | nil => exact .none
  | @cons entry other rest others hFirst hRest ih =>
      rw [Table.findEntry, Table.findEntry, hFirst.1]
      split
      · exact .some hFirst.2
      · exact ih

/-- The limits of callers that were converted are those of all callers, under their names. -/
theorem rel_limitsOfCallers {callers : Table Limits} (h : config.limitsOfCallers = .ok callers)
    (caller : String) :
    Option.Rel ConfiguredLimits.ConvertsTo (config.callerLimits.get? caller)
      (callers.get? caller) := by
  unfold limitsOfCallers at h
  generalize hConverted : config.callerLimits.entries.mapM (fun entry =>
    (entry.2.limits entry.1).map fun limits => (entry.1, limits)) = converted at h
  cases converted with
  | error fault => cases h
  | ok entries =>
      cases h
      have hRel : List.Forall₂ (fun (entry : String × ConfiguredLimits) (other : String × Limits) =>
          other.1 = entry.1 ∧ entry.2.ConvertsTo other.2) config.callerLimits.entries entries := by
        refine (forall₂_of_mapM hConverted).imp fun entry other hOther => ?_
        cases hLimits : entry.2.limits entry.1 with
        | error fault =>
            rw [hLimits] at hOther
            cases hOther
        | ok limits =>
            rw [hLimits] at hOther
            cases hOther
            exact ⟨rfl, ConfiguredLimits.convertsTo_of_limits hLimits⟩
      -- No name is converted, so the table is filled in the order of the old one.
      have hNames : config.callerLimits.entries.map Prod.fst = entries.map Prod.fst :=
        map_eq_of_forall₂ hRel fun _ _ hEntry => hEntry.1.symm
      have hAscending : entries.Pairwise fun a b => a.1 < b.1 :=
        List.pairwise_map.mp (hNames ▸ config.callerLimits.ascending_keys)
      rw [Table.ofList, Table.get?_foldl_insert hAscending, Table.get?_empty, Option.or_none]
      exact findEntry_rel hRel caller

/-- A registry that holds exactly one record for each deployment of a configuration, which says the
same as the deployment and is found under its models. -/
structure Holds (config : Config) (registry : Registry) : Prop where
  ids : registry.deployments.Perm (config.deployments.map (·.id))
  size : registry.size = config.deployments.length
  records : ∀ configured ∈ config.deployments,
    ∃ record, registry.get? configured.id = some record ∧ configured.Describes record
  indexed : registry.Indexed

/-- Records stand in the order of the deployments that they are built of. -/
theorem describes_of_records {records : List Deployment} (h : config.records = .ok records) :
    List.Forall₂ ConfiguredDeployment.Describes config.deployments records :=
  (forall₂_of_mapM h).imp fun _ _ => ConfiguredDeployment.describes_of_deployment

theorem exists_mem_of_forall₂ {deployments : List ConfiguredDeployment}
    {records : List Deployment}
    (h : List.Forall₂ ConfiguredDeployment.Describes deployments records) :
    ∀ configured ∈ deployments, ∃ record ∈ records, configured.Describes record := by
  induction h with
  | nil => exact List.forall_mem_nil _
  | @cons configured record rest others hFirst hRest ih =>
      refine List.forall_mem_cons.mpr ⟨⟨record, List.mem_cons_self, hFirst⟩, fun other hOther => ?_⟩
      obtain ⟨found, hFound, hDescribes⟩ := ih other hOther
      exact ⟨found, List.mem_cons_of_mem record hFound, hDescribes⟩

/-- A registry whose records are those of a configuration with different ids holds them all. -/
theorem holds_of_records {records : List Deployment} {registry : Registry}
    (hRecords : config.records = .ok records)
    (hDistinct : (config.deployments.map (·.id)).Nodup)
    (hGet : ∀ id, registry.records.get? id = Registry.lastOf records id)
    (hIndexed : registry.Indexed) : config.Holds registry := by
  have hDescribes := describes_of_records hRecords
  have hIds : config.deployments.map (·.id) = records.map (·.id) :=
    map_eq_of_forall₂ hDescribes fun _ _ hSays => hSays.id.symm
  have hKeys : registry.deployments.Nodup := by
    refine registry.records.ascending_keys.imp fun {a b} hLess hSame => ?_
    exact String.lt_irrefl b (hSame ▸ hLess)
  have hPerm : registry.deployments.Perm (config.deployments.map (·.id)) := by
    refine (List.perm_ext_iff_of_nodup hKeys hDistinct).mpr fun id => ?_
    rw [Registry.deployments, Table.mem_keys, hGet, hIds, ← Option.isSome_iff_exists,
      Registry.lastOf_isSome_iff]
  exact {
    ids := hPerm
    size := by
      rw [Registry.size, Table.size, ← List.length_map Prod.fst]
      exact hPerm.length_eq.trans (List.length_map _)
    records := fun configured hConfigured => by
      obtain ⟨record, hRecord, hSays⟩ := exists_mem_of_forall₂ hDescribes configured hConfigured
      refine ⟨record, ?_, hSays⟩
      rw [Registry.get?, hGet, ← hSays.id]
      exact Registry.lastOf_of_nodup (hIds ▸ hDistinct) hRecord
    indexed := hIndexed }

/-- A configuration that passes the check is built without a fault: its records, the limits of its
callers, its registry and its router. The registry, alone or in the router, has one record for each
deployment and no others, and every caller with limits has them converted. -/
theorem builds_of_validate (h : config.validate = .ok ()) :
    ∃ records callers built router,
      config.records = .ok records ∧ config.limitsOfCallers = .ok callers ∧
      config.registry = .ok built ∧ Router.ofConfig config = .ok router ∧
      List.Forall₂ ConfiguredDeployment.Describes config.deployments records ∧
      config.Holds built ∧ config.Holds router.registry ∧
      (∀ caller, Option.Rel ConfiguredLimits.ConvertsTo (config.callerLimits.get? caller)
        (callers.get? caller)) ∧
      router.callerLimits = callers := by
  obtain ⟨-, -, hDeployments, -, -, hCallers⟩ := faults_of_validate h
  obtain ⟨-, hDistinct, hEach⟩ := of_deploymentFault? hDeployments
  obtain ⟨records, hRecords⟩ : ∃ records, config.records = .ok records := mapM_of_forall hEach
  obtain ⟨callers, hLimits⟩ := limitsOfCallers_of_fault? hCallers
  have hRouter : Router.ofConfig config =
      .ok ((Router.new config.settings).takeOver config records callers) := by
    rw [Router.ofConfig, h]
    exact (Router.apply_eq _ config).trans (by rw [parts, hRecords, hLimits]; rfl)
  refine ⟨records, callers, _, _, hRecords, hLimits, registry_of_records hRecords, hRouter,
    describes_of_records hRecords, ?_, ?_, rel_limitsOfCallers hLimits, rfl⟩
  · refine holds_of_records hRecords hDistinct (fun id => ?_)
      ((Registry.indexed_empty.foldl_put records).withAliases _)
    exact (Registry.get?_foldl_put records {} id).trans (Option.or_none)
  · refine holds_of_records hRecords hDistinct (fun id => ?_) ?_
    · rw [Router.takeOver, Router.registry_replaceDeployments]
      exact Registry.get?_replaceRecords _ records id
    · rw [Router.takeOver, Router.registry_replaceDeployments]
      exact (Registry.indexed_empty.replaceRecords records).withAliases _

/-- Two deployments, one of which names a model twice, another one that is blank, and more calls
at one time than can be counted, and a caller. -/
def repeatedNames : Config where
  deployments :=
    [{ id := "d1", modelName := some "a", modelNames := ["b", "a", " "], model := "m", weight := 2.5
       limits := { rpm := some 60, maxParallelRequests := some 1099511627776 } },
      { id := "d2", modelNames := ["b"], model := "m", tier := 1 }]
  callerLimits := Table.ofList [("c", { tpm := some 1000 })]

/-- Its registry has a record for each of the two, the first with every name once and with as many
calls at one time as can be counted. -/
theorem builds_of_validate_repeatedNames :
    repeatedNames.validate = .ok () ∧
      ∃ registry, repeatedNames.registry = .ok registry ∧
        registry.deployments.Perm ["d1", "d2"] ∧
        ∃ record, registry.get? "d1" = some record ∧ record.modelNames.Perm ["a", "b", " "] ∧
          record.limits.requests = some 60 ∧ record.limits.parallel = some 4294967295 := by
  have hValid : repeatedNames.validate = .ok () := rfl
  obtain ⟨records, callers, built, router, -, -, hBuilt, -, -, hHolds, -, -, -⟩ :=
    builds_of_validate hValid
  obtain ⟨record, hRecord, hSays⟩ := hHolds.records _ List.mem_cons_self
  have hNames : record.modelNames.Perm ["a", "b", " "] := by
    refine (List.perm_ext_iff_of_nodup hSays.distinctNames (by decide)).mpr fun name => ?_
    rw [hSays.names]
    simp only [Option.some.injEq, List.mem_cons, List.not_mem_nil, or_false]
    grind
  have hRequests : record.limits.requests.map Int.ofNat = some 60 := hSays.limits.requests
  have hParallel : record.limits.parallel.map Int.ofNat = some 4294967295 := hSays.limits.parallel
  refine ⟨hValid, built, hBuilt, hHolds.ids, record, hRecord, hNames, ?_, ?_⟩
  · exact Option.map_injective (fun _ _ => Int.ofNat.inj) hRequests
  · exact Option.map_injective (fun _ _ => Int.ofNat.inj) hParallel

end Config

end DeploymentRouting
