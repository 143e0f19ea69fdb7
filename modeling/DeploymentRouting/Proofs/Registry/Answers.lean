import DeploymentRouting.Proofs.Registry.Index
import DeploymentRouting.Proofs.Sorting
/-!
What a registry answers. The records and the aliases alone determine it: in which order they
came, and what there was before them, leaves no trace.
-/
namespace DeploymentRouting.Registry

/-- Two registries that nobody who asks them can tell apart. -/
structure SameAnswers (registry other : Registry) : Prop where
  get? : ∀ id, registry.get? id = other.get? id
  deployments : registry.deployments = other.deployments
  models : registry.models = other.models
  candidates : ∀ name, registry.candidates name = other.candidates name
  resolve : ∀ name, registry.resolve name = other.resolve name

theorem nodup_eraseDups (numbers : List Nat) : numbers.eraseDups.Nodup := by
  induction hLength : numbers.length using Nat.strongRecOn generalizing numbers with
  | ind length ih =>
      cases numbers with
      | nil => exact List.nodup_nil
      | cons number rest =>
          rw [List.eraseDups_cons]
          refine List.nodup_cons.mpr ⟨by simp, ih _ ?_ _ rfl⟩
          have hFilter := List.length_filter_le (fun other => !other == number) rest
          rw [List.length_cons] at hLength
          omega

/-- The numbers of the tiers do not depend on the order of the deployments. -/
theorem tierNumbers_eq_of_perm {deployments other : List Deployment}
    (h : deployments.Perm other) :
    Sorting.sortBy (fun a b => decide (a ≤ b)) (deployments.map (·.tier)).eraseDups =
      Sorting.sortBy (fun a b => decide (a ≤ b)) (other.map (·.tier)).eraseDups := by
  have hPerm : (deployments.map (·.tier)).eraseDups.Perm (other.map (·.tier)).eraseDups := by
    refine (List.perm_ext_iff_of_nodup (nodup_eraseDups _) (nodup_eraseDups _)).mpr fun number => ?_
    rw [List.mem_eraseDups, List.mem_eraseDups]
    exact (h.map _).mem_iff
  refine Sorting.sortBy_key_eq_of_perm id ?_ hPerm
  rw [List.map_id]
  exact nodup_eraseDups _

/-- Nor does what is in them, when no two deployments have one id. -/
theorem tiers_eq_of_perm {deployments other : List Deployment}
    (hDistinct : (deployments.map (·.id)).Nodup) (h : deployments.Perm other) :
    tiers deployments = tiers other := by
  unfold tiers
  simp only
  rw [tierNumbers_eq_of_perm h]
  refine List.map_congr_left fun number _ => ?_
  have hKept : ((deployments.filter (·.tier == number)).map (·.id)).Nodup :=
    hDistinct.sublist (List.filter_sublist.map _)
  exact Sorting.sortBy_key_eq_of_perm (fun deployment : Deployment => deployment.id) hKept
    (h.filter _)

variable {registry other : Registry}

theorem mem_models {name : String} :
    name ∈ registry.models ↔ ∃ id, id ∈ listed registry.index name := by
  rw [models, Table.mem_keys, listed]
  constructor
  · rintro ⟨ids, hIds⟩
    rw [Table.get?_filter, Option.filter_eq_some_iff, Bool.not_eq_true',
      List.isEmpty_eq_false_iff] at hIds
    rw [hIds.1]
    exact List.exists_mem_of_ne_nil ids hIds.2
  · rintro ⟨id, hId⟩
    cases hEntry : registry.index.get? name with
    | none =>
        rw [hEntry] at hId
        cases hId
    | some ids =>
        rw [hEntry] at hId
        refine ⟨ids, ?_⟩
        rw [Table.get?_filter, hEntry, Option.filter_eq_some_iff, Bool.not_eq_true',
          List.isEmpty_eq_false_iff]
        exact ⟨rfl, List.ne_nil_of_mem hId⟩

/-- Two indices that agree with the same records list the same deployments. -/
theorem Indexed.listed_perm (h : registry.Indexed) (hOther : other.Indexed)
    (hRecords : registry.records = other.records) (model : String) :
    (listed registry.index model).Perm (listed other.index model) := by
  refine (List.perm_ext_iff_of_nodup (h.distinct model) (hOther.distinct model)).mpr fun id => ?_
  rw [h.mem_listed, hOther.mem_listed, hRecords]

/-- The deployments that serve a model, in the order in which the index has them. -/
def serving (registry : Registry) (model : String) : List Deployment :=
  (listed registry.index model).filterMap fun id =>
    (registry.records.get? id).filter (·.serves model)

theorem candidates_eq (registry : Registry) (name : String) :
    registry.candidates name = tiers (registry.serving (registry.resolve name)) := rfl

/-- Every deployment that an index lists has a record of its own id. -/
theorem Indexed.map_id_serving (h : registry.Indexed) (model : String) :
    (registry.serving model).map (·.id) = listed registry.index model := by
  have hListed : ∀ id ∈ listed registry.index model,
      ((registry.records.get? id).filter (·.serves model)).map (·.id) = some id := by
    intro id hId
    obtain ⟨record, hRecord, hServes⟩ := (h.mem_listed id model).mp hId
    rw [hRecord, Option.filter_some, if_pos hServes, Option.map_some, h.own id record hRecord]
  rw [serving, List.map_filterMap]
  exact (List.filterMap_congr hListed).trans List.filterMap_some

/-- Two registries of the same records and aliases answer alike. -/
theorem Indexed.sameAnswers (h : registry.Indexed) (hOther : other.Indexed)
    (hRecords : registry.records = other.records) (hAliases : registry.aliases = other.aliases) :
    registry.SameAnswers other where
  get? id := by rw [Registry.get?, Registry.get?, hRecords]
  deployments := by rw [Registry.deployments, Registry.deployments, hRecords]
  models := by
    apply Table.keys_eq_of_mem_iff
    intro name
    change name ∈ registry.models ↔ name ∈ other.models
    rw [mem_models, mem_models]
    exact exists_congr fun id => (h.listed_perm hOther hRecords name).mem_iff
  candidates name := by
    rw [candidates_eq, candidates_eq, Registry.resolve, Registry.resolve, hAliases]
    apply tiers_eq_of_perm
    · rw [h.map_id_serving]
      exact h.distinct _
    · rw [serving, serving, hRecords]
      exact (h.listed_perm hOther hRecords _).filterMap _
  resolve name := by rw [Registry.resolve, Registry.resolve, hAliases]

end DeploymentRouting.Registry
