import DeploymentRouting.Proofs.Registry.Tiers
import Mathlib.Data.List.Induction
/-!
Registries and the changes that made them. After any changes, in any order, the registered
records are the latest of each id and the aliases the latest of each name, and these alone decide
every answer of the registry: nothing of the way on which it came about is left in its index.
-/
namespace DeploymentRouting.Registry

universe u

/-- The registry after some changes, from an empty one. -/
def ofChanges (changes : List Change) : Registry := changes.foldl Change.perform {}

theorem ofChanges_concat (changes : List Change) (change : Change) :
    ofChanges (changes ++ [change]) = change.perform (ofChanges changes) := by
  rw [ofChanges, List.foldl_append]
  rfl

/-- After any changes the index agrees with the records. -/
theorem indexed_ofChanges (changes : List Change) : (ofChanges changes).Indexed := by
  induction changes using List.reverseRecOn with
  | nil => exact indexed_empty
  | append_singleton changes change ih =>
      rw [ofChanges_concat]
      exact ih.perform change

/-- What a change makes of the record of an id, if it touches it. A record with a fault touches
nothing. -/
def Change.recordOf? (id : String) : Change → Option (Option Deployment)
  | .register deployment =>
      if deployment.id = id ∧ deployment.fault?.isNone = true then some (some deployment) else none
  | .deregister other => if other = id then some none else none
  | .addAlias _ _ | .replaceAliases _ => none

/-- What a change makes of the alias of a name, if it touches it. Aliases that are replaced are
all touched. -/
def Change.aliasOf? (name : String) : Change → Option (Option String)
  | .addAlias other target => if other = name then some (some target) else none
  | .replaceAliases aliases => some (aliases.get? name)
  | .register _ | .deregister _ => none

/-- What the last change that touches something has made of it. -/
def latest {γ : Type u} (touched : Change → Option (Option γ)) (changes : List Change) :
    Option γ :=
  (changes.filterMap touched).getLast?.getD none

/-- The last change that touches something has the last word on it. -/
theorem latest_concat {γ : Type u} (touched : Change → Option (Option γ))
    (changes : List Change) (change : Change) :
    latest touched (changes ++ [change]) = (touched change).getD (latest touched changes) := by
  cases hTouched : touched change with
  | none => simp [latest, hTouched]
  | some made => simp [latest, hTouched]

/-- A change puts in or takes out its own record and leaves all others. -/
theorem get?_perform (registry : Registry) (change : Change) (id : String) :
    (change.perform registry).get? id = (change.recordOf? id).getD (registry.get? id) := by
  cases change with
  | register deployment =>
      cases hFault : deployment.fault? with
      | some fault =>
          rw [Change.perform, register_of_fault registry hFault]
          simp [Change.recordOf?, hFault]
      | none =>
          rw [Change.perform, register_of_sound registry hFault]
          by_cases hId : id = deployment.id
          · simp [Change.recordOf?, Registry.get?, put, hFault, hId]
          · simp [Change.recordOf?, Registry.get?, put, hId, Ne.symm hId]
  | deregister other =>
      rw [Change.perform, Registry.get?, get?_deregister]
      by_cases hId : id = other
      · simp [Change.recordOf?, hId]
      · simp [Change.recordOf?, hId, Ne.symm hId, Registry.get?]
  | addAlias name target => rfl
  | replaceAliases aliases =>
      rw [Change.perform, replaceAliases_eq]
      rfl

theorem aliases_register (registry : Registry) (deployment : Deployment) :
    ((Change.register deployment).perform registry).aliases = registry.aliases := by
  cases hFault : deployment.fault? with
  | some fault => rw [Change.perform, register_of_fault registry hFault]
  | none => rw [Change.perform, register_of_sound registry hFault]; rfl

theorem aliases_deregister (registry : Registry) (id : String) :
    (registry.deregister id).1.aliases = registry.aliases := by
  unfold Registry.deregister
  split <;> rfl

/-- It sets or drops the aliases that it is about. -/
theorem get?_aliases_perform (registry : Registry) (change : Change) (name : String) :
    (change.perform registry).aliases.get? name =
      (change.aliasOf? name).getD (registry.aliases.get? name) := by
  cases change with
  | register deployment => rw [aliases_register]; rfl
  | deregister id => rw [Change.perform, aliases_deregister]; rfl
  | addAlias other target =>
      rw [Change.perform, addAlias, Table.get?_insert]
      by_cases hName : name = other
      · simp [Change.aliasOf?, hName]
      · simp [Change.aliasOf?, hName, Ne.symm hName]
  | replaceAliases aliases =>
      rw [Change.perform, replaceAliases_eq]
      rfl

/-- A record is what the latest change of it has left. -/
theorem get?_ofChanges (changes : List Change) (id : String) :
    (ofChanges changes).get? id = latest (Change.recordOf? id) changes := by
  induction changes using List.reverseRecOn with
  | nil => rfl
  | append_singleton changes change ih =>
      rw [ofChanges_concat, get?_perform, ih, latest_concat]

/-- So is an alias. -/
theorem get?_aliases_ofChanges (changes : List Change) (name : String) :
    (ofChanges changes).aliases.get? name = latest (Change.aliasOf? name) changes := by
  induction changes using List.reverseRecOn with
  | nil => rfl
  | append_singleton changes change ih =>
      rw [ofChanges_concat, get?_aliases_perform, ih, latest_concat]

variable {registry : Registry}

/-- An index that agrees with the records tells which names are served. -/
theorem Indexed.mem_models (h : registry.Indexed) {name : String} :
    name ∈ registry.models ↔
      ∃ id record, registry.get? id = some record ∧ record.serves name = true := by
  rw [Registry.mem_models]
  exact exists_congr fun id => h.mem_listed id name

/-- No deployment serves a model twice. -/
theorem Indexed.nodup_serving (h : registry.Indexed) (model : String) :
    ((registry.serving model).map (·.id)).Nodup := by
  rw [h.map_id_serving]
  exact h.distinct model

/-- A model is served by the records that name it. -/
theorem Indexed.mem_serving (h : registry.Indexed) {model : String} {deployment : Deployment} :
    deployment ∈ registry.serving model ↔
      registry.get? deployment.id = some deployment ∧ deployment.serves model = true := by
  rw [serving, List.mem_filterMap]
  constructor
  · rintro ⟨id, _, hFound⟩
    obtain ⟨hRecord, hServes⟩ := Option.filter_eq_some_iff.mp hFound
    exact ⟨by rwa [h.own id deployment hRecord], hServes⟩
  · rintro ⟨hRecord, hServes⟩
    exact ⟨deployment.id, (h.mem_listed _ _).mpr ⟨deployment, hRecord, hServes⟩,
      Option.filter_eq_some_iff.mpr ⟨hRecord, hServes⟩⟩

/-- The candidates for a name are the registered deployments that serve what it stands for. -/
theorem Indexed.mem_candidates (h : registry.Indexed) {name : String} {deployment : Deployment} :
    deployment ∈ (registry.candidates name).flatten ↔
      registry.get? deployment.id = some deployment ∧
        deployment.serves (registry.resolve name) = true := by
  rw [candidates_eq, mem_flatten_tiers, h.mem_serving]

theorem Indexed.nodup_candidates (h : registry.Indexed) (name : String) :
    ((registry.candidates name).flatten.map (·.id)).Nodup := by
  rw [candidates_eq]
  exact ((flatten_tiers_perm (h.nodup_serving _)).map _).nodup_iff.mpr (h.nodup_serving _)

/-- The candidates stand in tiers from the lowest on, each in the order of ids. -/
theorem Indexed.tiered_candidates (h : registry.Indexed) (name : String) :
    Tiered (registry.candidates name) := by
  rw [candidates_eq]
  exact tiered_tiers (h.nodup_serving _)

/-- After any changes the index lists an id under a model if and only if the latest record of the
id serves it, once, and has no empty entry. So the models are the served names in order, and the
candidates for a name are the deployments that serve what it stands for, each once, by tiers and
ids. Changes that end in the same latest records and aliases end in the same answers, in
whatever order they came, and a registration that fails leaves everything as it was. -/
theorem ofChanges_determined (changes : List Change) :
    (∀ id model, id ∈ listed (ofChanges changes).index model ↔
      ∃ record, latest (Change.recordOf? id) changes = some record ∧
        record.serves model = true) ∧
    (∀ id model, id ∈ listed (ofChanges changes).index model →
      (listed (ofChanges changes).index model).count id = 1) ∧
    (∀ model, (ofChanges changes).index.get? model ≠ some []) ∧
    (ofChanges changes).models.Pairwise (· < ·) ∧
    (∀ name, name ∈ (ofChanges changes).models ↔
      ∃ id record, latest (Change.recordOf? id) changes = some record ∧
        record.serves name = true) ∧
    (∀ name, (ofChanges changes).resolve name =
      (latest (Change.aliasOf? name) changes).getD name) ∧
    (∀ name deployment, deployment ∈ ((ofChanges changes).candidates name).flatten ↔
      latest (Change.recordOf? deployment.id) changes = some deployment ∧
        deployment.serves ((ofChanges changes).resolve name) = true) ∧
    (∀ name, (((ofChanges changes).candidates name).flatten.map (·.id)).Nodup ∧
      Tiered ((ofChanges changes).candidates name)) ∧
    (∀ others,
      (∀ id, latest (Change.recordOf? id) changes = latest (Change.recordOf? id) others) →
      (∀ name, latest (Change.aliasOf? name) changes = latest (Change.aliasOf? name) others) →
      (ofChanges changes).SameAnswers (ofChanges others)) ∧
    ∀ deployment fault, (ofChanges changes).register deployment = .error fault →
      ofChanges (changes ++ [.register deployment]) = ofChanges changes := by
  have hIndexed := indexed_ofChanges changes
  refine ⟨fun id model => ?_, fun id model hListed => ?_, hIndexed.noEmpty,
    Table.ascending_keys _, fun name => ?_, fun name => ?_, fun name deployment => ?_,
    fun name => ⟨hIndexed.nodup_candidates name, hIndexed.tiered_candidates name⟩,
    fun others hRecords hAliases => ?_, fun deployment fault hFailed => ?_⟩
  · rw [← get?_ofChanges]
    exact hIndexed.mem_listed id model
  · exact List.count_eq_one_of_mem (hIndexed.distinct model) hListed
  · rw [hIndexed.mem_models]
    simp only [get?_ofChanges]
  · rw [Registry.resolve, get?_aliases_ofChanges]
  · rw [hIndexed.mem_candidates, get?_ofChanges]
  · refine hIndexed.sameAnswers (indexed_ofChanges others)
      (Table.ext_get? fun id => ?_) (Table.ext_get? fun name => ?_)
    · exact (get?_ofChanges changes id).trans ((hRecords id).trans (get?_ofChanges others id).symm)
    · rw [get?_aliases_ofChanges, hAliases, get?_aliases_ofChanges]
  · rw [ofChanges_concat, Change.perform, hFailed]

/-- A deployment that serves `a`, which its record says twice, and `b`. -/
def doubleRecord : Deployment :=
  { id := "d1", modelNames := ["a", "a", "b"], provider := .openai, model := "m" }

/-- A deployment of a higher tier that serves `b`. -/
def spareRecord : Deployment :=
  { id := "d2", modelNames := ["b"], provider := .openai, model := "m", tier := 1 }

/-- A record that takes the place of the first one. -/
def movedRecord : Deployment := { doubleRecord with modelNames := ["b", "c"] }

/-- A record without an id. -/
def blankRecord : Deployment := { doubleRecord with id := " " }

/-- Records that move between models, come late and go, one with a fault, and two aliases. -/
def movedChanges : List Change :=
  [.addAlias "x" "a", .register doubleRecord, .register spareRecord, .register blankRecord,
    .deregister "d2", .register movedRecord, .register spareRecord, .addAlias "x" "b"]

/-- The same records and aliases at once. -/
def settledChanges : List Change :=
  [.register spareRecord, .addAlias "x" "b", .register movedRecord]

/-- The changes come to the registry that holds the last records at once, whatever came between. -/
theorem ofChanges_determined_moved :
    ((ofChanges movedChanges).candidates "x").map (·.map (·.id)) = [["d1"], ["d2"]] ∧
      (ofChanges movedChanges).models = ["b", "c"] ∧
      (ofChanges movedChanges).register blankRecord = .error .emptyId ∧
      ofChanges (movedChanges ++ [.register blankRecord]) = ofChanges movedChanges ∧
      (ofChanges movedChanges).SameAnswers (ofChanges settledChanges) := by
  have hFaulty : (ofChanges movedChanges).register blankRecord = .error .emptyId := rfl
  obtain ⟨_, _, _, _, _, _, _, _, hAlone, hKept⟩ := ofChanges_determined movedChanges
  refine ⟨rfl, rfl, hFaulty, hKept _ _ hFaulty, hAlone _ (fun id => ?_) (fun name => ?_)⟩
  · by_cases hFirst : id = "d1"
    · rw [hFirst]; rfl
    by_cases hSecond : id = "d2"
    · rw [hSecond]; rfl
    have hBlank : blankRecord.fault?.isNone = false := rfl
    have hDouble : doubleRecord.id = "d1" := rfl
    have hMoved : movedRecord.id = "d1" := rfl
    have hSpare : spareRecord.id = "d2" := rfl
    simp [latest, movedChanges, settledChanges, Change.recordOf?, List.findSome?_cons, hBlank,
      hDouble, hMoved, hSpare, Ne.symm hFirst, Ne.symm hSecond]
  · by_cases hName : name = "x"
    · rw [hName]; rfl
    · simp [latest, movedChanges, settledChanges, Change.aliasOf?, List.findSome?_cons,
        Ne.symm hName]

end DeploymentRouting.Registry
