import DeploymentRouting.Registry
/-!
The index of a registry. It lists a deployment under a model if and only if the record of the
deployment serves that model, and lists it once. Registering, removing and renaming keep it so,
whatever the names of a new record have in common with those of the record it replaces.
-/
namespace DeploymentRouting.Registry

/-- The deployments that an index lists under a model. -/
def listed (index : Table (List String)) (model : String) : List String :=
  (index.get? model).getD []

/-- No model has an entry without deployments. -/
def NoEmptyEntry (index : Table (List String)) : Prop :=
  ∀ model, index.get? model ≠ some []

variable {index : Table (List String)} {id : String}

/-- To take an id out of an entry leaves all other ids and entries. -/
theorem listed_unindex (id : String) (index : Table (List String)) (model name : String) :
    listed (unindex id index model) name =
      if name = model then (listed index name).filter (· != id) else listed index name := by
  unfold unindex listed
  cases hEntry : index.get? model with
  | none =>
      simp only
      split
      next hName =>
        rw [hName, hEntry]
        rfl
      next => rfl
  | some ids =>
      simp only
      split
      next hEmpty =>
        rw [Table.get?_erase]
        split
        next hName =>
          rw [hName, hEntry]
          exact (List.isEmpty_iff.mp hEmpty).symm
        next => rfl
      next =>
        rw [Table.get?_insert]
        split
        next hName =>
          rw [hName, hEntry]
          rfl
        next => rfl

/-- An entry goes with its last id. -/
theorem NoEmptyEntry.unindex (h : NoEmptyEntry index) (id model : String) :
    NoEmptyEntry (unindex id index model) := by
  intro name
  unfold Registry.unindex
  split
  next => exact h name
  next ids hEntry =>
    simp only
    split
    next =>
      rw [Table.get?_erase]
      split
      · nofun
      · exact h name
    next hRest =>
      rw [Table.get?_insert]
      split
      · intro hEmpty
        rw [Option.some.inj hEmpty] at hRest
        exact hRest rfl
      · exact h name

/-- An id that is put into an entry stands behind the others, once. -/
theorem listed_enter (id : String) (index : Table (List String)) (model name : String) :
    listed (enter id index model) name =
      if name = model ∧ id ∉ listed index name then listed index name ++ [id]
      else listed index name := by
  unfold enter
  simp only
  split
  next hListed =>
    rw [if_neg]
    rintro ⟨rfl, hNew⟩
    exact hNew (List.contains_iff_mem.mp hListed)
  next hNew =>
    rw [listed, Table.get?_insert]
    by_cases hName : name = model
    · subst hName
      rw [if_pos rfl, if_pos ⟨rfl, fun hMem => hNew (List.contains_iff_mem.mpr hMem)⟩]
      rfl
    · rw [if_neg hName, if_neg fun hBoth => hName hBoth.1]
      rfl

/-- An entry that is made has an id. -/
theorem NoEmptyEntry.enter (h : NoEmptyEntry index) (id model : String) :
    NoEmptyEntry (enter id index model) := by
  intro name
  unfold Registry.enter
  simp only
  split
  next => exact h name
  next =>
    rw [Table.get?_insert]
    split
    · intro hEmpty
      exact List.append_ne_nil_of_right_ne_nil _ (List.cons_ne_nil id []) (Option.some.inj hEmpty)
    · exact h name

/-- A deployment that is taken out of the entries of some models. -/
theorem listed_foldl_unindex (id : String) (models : List String)
    (index : Table (List String)) (name : String) :
    listed (models.foldl (unindex id) index) name =
      if name ∈ models then (listed index name).filter (· != id) else listed index name := by
  induction models generalizing index with
  | nil => rfl
  | cons model rest ih =>
      rw [List.foldl_cons, ih, listed_unindex]
      by_cases hModel : name = model
      · simp [hModel]
      · simp [hModel]

theorem NoEmptyEntry.foldl_unindex (h : NoEmptyEntry index) (id : String)
    (models : List String) : NoEmptyEntry (models.foldl (Registry.unindex id) index) := by
  induction models generalizing index with
  | nil => exact h
  | cons model rest ih => exact ih (h.unindex id model)

/-- A deployment that is put into the entries of some models. -/
theorem listed_foldl_enter (id : String) (models : List String)
    (index : Table (List String)) (name : String) :
    listed (models.foldl (enter id) index) name =
      if name ∈ models ∧ id ∉ listed index name then listed index name ++ [id]
      else listed index name := by
  induction models generalizing index with
  | nil => rfl
  | cons model rest ih =>
      rw [List.foldl_cons, ih, listed_enter]
      by_cases hModel : name = model
      · by_cases hListed : id ∈ listed index name
        · simp [hListed]
        · subst hModel
          simp [hListed]
      · simp [hModel]

theorem NoEmptyEntry.foldl_enter (h : NoEmptyEntry index) (id : String)
    (models : List String) : NoEmptyEntry (models.foldl (Registry.enter id) index) := by
  induction models generalizing index with
  | nil => exact h
  | cons model rest ih => exact ih (h.enter id model)

/-- The names that a new record does not take over from the one it replaces. -/
def goneNames (registry : Registry) (deployment : Deployment) : List String :=
  ((registry.records.get? deployment.id).map (·.modelNames)).getD []
    |>.filter (!deployment.serves ·)

/-- The index without a deployment in the entries of the names that are gone. -/
def indexWithoutGone (registry : Registry) (deployment : Deployment) : Table (List String) :=
  (registry.goneNames deployment).foldl (unindex deployment.id) registry.index

/-- A registry with one more record, or with another one in the place of an old one. Nobody
looks for faults. -/
def put (registry : Registry) (deployment : Deployment) : Registry :=
  { registry with
    records := registry.records.insert deployment.id deployment
    index := deployment.modelNames.foldl (enter deployment.id)
      (registry.indexWithoutGone deployment) }

/-- A record with a fault is refused. -/
theorem register_of_fault {deployment : Deployment} {fault : SetupError}
    (registry : Registry) (h : deployment.fault? = some fault) :
    registry.register deployment = .error fault := by
  rw [register, h]

/-- A record without one is put in the place of the one with its id. -/
theorem register_of_sound {deployment : Deployment} (registry : Registry)
    (h : deployment.fault? = none) :
    registry.register deployment =
      .ok (registry.put deployment, registry.records.get? deployment.id) := by
  rw [register, h]
  rfl

/-- What can be done to a registry. -/
inductive Change where
  | register (deployment : Deployment)
  | deregister (id : String)
  | addAlias (name target : String)
  | replaceAliases (aliases : Table String)

/-- The registry after a change. A record that is refused leaves everything as it is. -/
def Change.perform (registry : Registry) : Change → Registry
  | .register deployment =>
      match registry.register deployment with
      | .ok (after, _) => after
      | .error _ => registry
  | .deregister id => (registry.deregister id).1
  | .addAlias name target => registry.addAlias name target
  | .replaceAliases aliases => registry.replaceAliases aliases

/-- Records stand under their own ids, and the index agrees with them. -/
structure Indexed (registry : Registry) : Prop where
  own : ∀ id record, registry.records.get? id = some record → record.id = id
  mem_listed : ∀ id model, id ∈ listed registry.index model ↔
    ∃ record, registry.records.get? id = some record ∧ record.serves model = true
  distinct : ∀ model, (listed registry.index model).Nodup
  noEmpty : NoEmptyEntry registry.index

variable {registry : Registry}

/-- An empty registry has an index that agrees with it. -/
theorem indexed_empty : ({} : Registry).Indexed where
  own id record hRecord := by cases hRecord
  mem_listed id model := by simp [listed]
  distinct model := List.nodup_nil
  noEmpty model hEmpty := by cases hEmpty

/-- Aliases have no part in the index. -/
theorem Indexed.withAliases (h : registry.Indexed) (aliases : Table String) :
    ({ registry with aliases } : Registry).Indexed :=
  ⟨h.own, h.mem_listed, h.distinct, h.noEmpty⟩

/-- Once the names that are gone have been dealt with, a new record is not listed under any name
that it does not serve. -/
theorem Indexed.not_mem_indexWithoutGone (h : registry.Indexed) {deployment : Deployment}
    {name : String} (hServes : deployment.serves name = false) :
    deployment.id ∉ listed (registry.indexWithoutGone deployment) name := by
  rw [indexWithoutGone, listed_foldl_unindex]
  split
  next => simp
  next hKept =>
    intro hListed
    obtain ⟨record, hRecord, hName⟩ := (h.mem_listed deployment.id name).mp hListed
    apply hKept
    simp only [Deployment.serves] at hServes hName
    rw [goneNames, hRecord]
    simpa [Deployment.serves, ← hServes] using hName

/-- A record that is put in is listed under the models it serves and no others. -/
theorem Indexed.mem_listed_put (h : registry.Indexed) (deployment : Deployment)
    (id name : String) :
    id ∈ listed (registry.put deployment).index name ↔
      if id = deployment.id then deployment.serves name = true
      else id ∈ listed registry.index name := by
  have hServed : name ∈ deployment.modelNames ↔ deployment.serves name = true :=
    List.contains_iff_mem.symm
  rw [Registry.put, listed_foldl_enter]
  by_cases hOwn : id = deployment.id
  · subst hOwn
    rw [if_pos rfl]
    cases hServes : deployment.serves name with
    | true =>
        split
        next => simp
        next hListed =>
          rw [hServed] at hListed
          simpa [hServes] using hListed
    | false =>
        -- The record that is replaced may have served the name. Then the name is gone.
        rw [if_neg fun hBoth => by simp [hServed.mp hBoth.1] at hServes]
        simpa using h.not_mem_indexWithoutGone hServes
  · rw [if_neg hOwn, indexWithoutGone, listed_foldl_unindex]
    split <;> split <;> simp [hOwn]

/-- So the index goes on to agree with the records. -/
theorem Indexed.put (h : registry.Indexed) (deployment : Deployment) :
    (registry.put deployment).Indexed where
  own id record hRecord := by
    simp only [Registry.put, Table.get?_insert] at hRecord
    split at hRecord
    next hId => rw [hId, Option.some.inj hRecord]
    next => exact h.own id record hRecord
  mem_listed id model := by
    rw [h.mem_listed_put]
    simp only [Registry.put, Table.get?_insert]
    split
    next => simp
    next => exact h.mem_listed id model
  distinct model := by
    have hUnindexed : (listed (registry.indexWithoutGone deployment) model).Nodup := by
      rw [indexWithoutGone, listed_foldl_unindex]
      split
      · exact (h.distinct model).filter _
      · exact h.distinct model
    rw [Registry.put, listed_foldl_enter]
    split
    next hNew =>
      refine List.nodup_append.mpr ⟨hUnindexed, List.pairwise_singleton _ _, ?_⟩
      rintro id hId other hOther rfl
      rw [List.mem_singleton.mp hOther] at hId
      exact hNew.2 hId
    next => exact hUnindexed
  noEmpty := (h.noEmpty.foldl_unindex _ _).foldl_enter _ _

/-- A record that is taken out is listed nowhere. -/
theorem Indexed.mem_listed_deregister (h : registry.Indexed) (id other name : String) :
    other ∈ listed (registry.deregister id).1.index name ↔
      other ≠ id ∧ other ∈ listed registry.index name := by
  unfold deregister
  cases hRecord : registry.records.get? id with
  | none =>
      refine ⟨fun hListed => ⟨?_, hListed⟩, And.right⟩
      rintro rfl
      obtain ⟨record, hFound, _⟩ := (h.mem_listed other name).mp hListed
      rw [hRecord] at hFound
      cases hFound
  | some record =>
      simp only
      rw [listed_foldl_unindex]
      split
      next => simp [and_comm]
      next hGone =>
        refine ⟨fun hListed => ⟨?_, hListed⟩, And.right⟩
        rintro rfl
        obtain ⟨found, hFound, hServes⟩ := (h.mem_listed other name).mp hListed
        rw [hRecord] at hFound
        cases hFound
        exact hGone (List.contains_iff_mem.mp hServes)

/-- It is not found any more, and all others are. -/
theorem get?_deregister (registry : Registry) (id other : String) :
    (registry.deregister id).1.records.get? other =
      if other = id then none else registry.records.get? other := by
  unfold deregister
  split
  next hNone =>
    split
    next hId => rw [hId, hNone]
    next => rfl
  next => exact Table.get?_erase _ _ _

/-- The index agrees with the records that are left. -/
theorem Indexed.deregister (h : registry.Indexed) (id : String) :
    (registry.deregister id).1.Indexed where
  own other record hRecord := by
    rw [get?_deregister] at hRecord
    split at hRecord
    next => cases hRecord
    next => exact h.own other record hRecord
  mem_listed other model := by
    rw [h.mem_listed_deregister, get?_deregister, h.mem_listed]
    split
    next hId => simp [hId]
    next hId => simp [hId]
  distinct model := by
    unfold Registry.deregister
    split
    next => exact h.distinct model
    next =>
      simp only
      rw [listed_foldl_unindex]
      split
      · exact (h.distinct model).filter _
      · exact h.distinct model
  noEmpty := by
    unfold Registry.deregister
    split
    next => exact h.noEmpty
    next => exact h.noEmpty.foldl_unindex _ _

theorem foldl_addAlias (entries : List (String × String)) (registry : Registry) :
    entries.foldl (fun registry entry => registry.addAlias entry.1 entry.2) registry =
      { registry with
        aliases := entries.foldl (fun table entry => table.insert entry.1 entry.2)
          registry.aliases } := by
  induction entries generalizing registry with
  | nil => rfl
  | cons entry rest ih => exact ih (registry.addAlias entry.1 entry.2)

/-- Whatever aliases there were, none but the new ones are left. -/
theorem replaceAliases_eq (registry : Registry) (aliases : Table String) :
    registry.replaceAliases aliases = { registry with aliases } := by
  rw [replaceAliases, foldl_addAlias, Table.foldl_insert_entries]
  intro name hAbsent
  rw [Table.get?_filter, Table.contains, hAbsent]
  cases registry.aliases.get? name <;> rfl

/-- Every change keeps the index and the records in agreement. -/
theorem Indexed.perform (h : registry.Indexed) (change : Change) :
    (change.perform registry).Indexed := by
  cases change with
  | register deployment =>
      cases hFault : deployment.fault? with
      | some fault =>
          rw [Change.perform, register_of_fault registry hFault]
          exact h
      | none =>
          rw [Change.perform, register_of_sound registry hFault]
          exact h.put deployment
  | deregister id => exact h.deregister id
  | addAlias name target => exact h.withAliases _
  | replaceAliases aliases =>
      rw [Change.perform, replaceAliases_eq]
      exact h.withAliases aliases

end DeploymentRouting.Registry
