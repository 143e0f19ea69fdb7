import DeploymentRouting.Proofs.Registry.Index
/-!
Whole lists of records. When a list takes the place of all that was registered, then under
each id the last record of the list with that id is left, whatever was there before.
-/
namespace DeploymentRouting.Registry

variable {registry : Registry}

/-- The last record of a list with an id. -/
def lastOf (deployments : List Deployment) (id : String) : Option Deployment :=
  (deployments.filter (·.id == id)).getLast?

/-- Of several records of one id the last one counts. -/
theorem lastOf_cons (deployment : Deployment) (rest : List Deployment) (id : String) :
    lastOf (deployment :: rest) id =
      (lastOf rest id).or (if id = deployment.id then some deployment else none) := by
  unfold lastOf
  by_cases hId : deployment.id = id
  · rw [List.filter_cons_of_pos (by simpa using hId), List.getLast?_cons, if_pos hId.symm]
    cases (rest.filter (·.id == id)).getLast? <;> rfl
  · rw [List.filter_cons_of_neg (by simpa using hId), if_neg (Ne.symm hId), Option.or_none]

theorem lastOf_eq_none {deployments : List Deployment} {id : String}
    (h : id ∉ deployments.map (·.id)) : lastOf deployments id = none := by
  rw [lastOf, List.getLast?_eq_none_iff, List.filter_eq_nil_iff]
  intro deployment hDeployment hId
  exact h (List.mem_map.mpr ⟨deployment, hDeployment, eq_of_beq hId⟩)

theorem lastOf_isSome {deployments : List Deployment} {id : String}
    (h : id ∈ deployments.map (·.id)) : (lastOf deployments id).isSome = true := by
  obtain ⟨deployment, hDeployment, rfl⟩ := List.mem_map.mp h
  rw [lastOf, Option.isSome_iff_ne_none, Ne, List.getLast?_eq_none_iff]
  exact List.ne_nil_of_mem (List.mem_filter.mpr ⟨hDeployment, beq_self_eq_true _⟩)

/-- There is one exactly if the id is on the list. -/
theorem lastOf_isSome_iff {deployments : List Deployment} {id : String} :
    (lastOf deployments id).isSome = true ↔ id ∈ deployments.map (·.id) := by
  refine ⟨fun hSome => Decidable.byContradiction fun hAbsent => ?_, lastOf_isSome⟩
  rw [lastOf_eq_none hAbsent] at hSome
  cases hSome

/-- Records without a fault are all registered. -/
theorem foldlM_register_of_sound {deployments : List Deployment}
    (h : ∀ deployment ∈ deployments, deployment.fault? = none) (registry : Registry) :
    deployments.foldlM (fun registry deployment =>
      (registry.register deployment).map Prod.fst) registry =
        .ok (deployments.foldl put registry) := by
  induction deployments generalizing registry with
  | nil => rfl
  | cons deployment rest ih =>
      rw [List.foldlM_cons, register_of_sound registry (h deployment List.mem_cons_self)]
      exact ih (fun other hOther => h other (List.mem_cons_of_mem deployment hOther)) _

theorem aliases_foldl_put (deployments : List Deployment) (registry : Registry) :
    (deployments.foldl put registry).aliases = registry.aliases := by
  induction deployments generalizing registry with
  | nil => rfl
  | cons deployment rest ih => exact ih (registry.put deployment)

/-- Records that are put in one after the other are found as the last of their id. -/
theorem get?_foldl_put (deployments : List Deployment) (registry : Registry) (id : String) :
    (deployments.foldl put registry).records.get? id =
      (lastOf deployments id).or (registry.records.get? id) := by
  induction deployments generalizing registry with
  | nil => rfl
  | cons deployment rest ih =>
      rw [List.foldl_cons, ih, lastOf_cons, Option.or_assoc]
      simp only [put, Table.get?_insert]
      split <;> rfl

/-- The index goes along with them. -/
theorem Indexed.foldl_put (h : registry.Indexed) (deployments : List Deployment) :
    (deployments.foldl Registry.put registry).Indexed := by
  induction deployments generalizing registry with
  | nil => exact h
  | cons deployment rest ih => exact ih (h.put deployment)

def deregisterAll (registry : Registry) (ids : List String) : Registry :=
  ids.foldl (fun registry id => (registry.deregister id).1) registry

/-- Records that are taken out are not found, and all others are. -/
theorem get?_deregisterAll (registry : Registry) (ids : List String) (other : String) :
    (registry.deregisterAll ids).records.get? other =
      if other ∈ ids then none else registry.records.get? other := by
  induction ids generalizing registry with
  | nil => rfl
  | cons id rest ih =>
      change ((registry.deregister id).1.deregisterAll rest).records.get? other = _
      rw [ih, get?_deregister]
      by_cases hOther : other = id
      · simp [hOther]
      · simp [hOther]

/-- The index goes along with that too. -/
theorem Indexed.deregisterAll (h : registry.Indexed) (ids : List String) :
    (registry.deregisterAll ids).Indexed := by
  induction ids generalizing registry with
  | nil => exact h
  | cons id rest ih => exact ih (h.deregister id)

/-- The registered deployments that a list does not have. -/
def stale (registry : Registry) (deployments : List Deployment) : List String :=
  registry.deployments.filter (!(deployments.map (·.id)).contains ·)

/-- Stale is what has a record and is not on the list. -/
theorem mem_stale {deployments : List Deployment} {id : String} :
    id ∈ registry.stale deployments ↔
      (∃ record, registry.records.get? id = some record) ∧ id ∉ deployments.map (·.id) := by
  rw [stale, List.mem_filter, Registry.deployments, Table.mem_keys, Bool.not_eq_true',
    ← Bool.not_eq_true, List.contains_iff_mem]

/-- A registry with all records of a list in their place and no others. -/
def replaceRecords (registry : Registry) (deployments : List Deployment) : Registry :=
  let registry := deployments.foldl put registry
  registry.deregisterAll (registry.stale deployments)

/-- Nothing that was registered before is left. -/
theorem get?_replaceRecords (registry : Registry) (deployments : List Deployment)
    (id : String) :
    (registry.replaceRecords deployments).records.get? id = lastOf deployments id := by
  rw [replaceRecords, get?_deregisterAll]
  -- An id of the list is never stale, and every other one that is registered is.
  by_cases hId : id ∈ deployments.map (·.id)
  · rw [if_neg fun hStale => (mem_stale.mp hStale).2 hId, get?_foldl_put]
    exact Option.or_of_isSome (lastOf_isSome hId)
  · rw [lastOf_eq_none hId]
    split
    next => rfl
    next hKept =>
      refine Option.eq_none_iff_forall_ne_some.mpr fun record hRecord => ?_
      exact hKept (mem_stale.mpr ⟨⟨record, hRecord⟩, hId⟩)

/-- A whole list that is taken over leaves an index that agrees with it. -/
theorem Indexed.replaceRecords (h : registry.Indexed) (deployments : List Deployment) :
    (registry.replaceRecords deployments).Indexed :=
  (h.foldl_put deployments).deregisterAll _

end DeploymentRouting.Registry
