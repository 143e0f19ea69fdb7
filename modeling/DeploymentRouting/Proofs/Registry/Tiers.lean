import DeploymentRouting.Proofs.Registry.Answers
/-!
Deployments by tier. Whatever the order in which they come, grouping them loses none and repeats
none, and the groups stand in the order of their tiers, each in the order of its ids.
-/
namespace DeploymentRouting.Registry

/-- Groups that are in order: none is empty, all deployments of a group are of one tier, each
group is of a higher tier than those before it, and in a group the ids ascend. -/
structure Tiered (groups : List (List Deployment)) : Prop where
  filled : ∀ group ∈ groups, group ≠ []
  level : ∀ group ∈ groups, ∀ a ∈ group, ∀ b ∈ group, a.tier = b.tier
  ascending : groups.Pairwise fun lower upper => ∀ a ∈ lower, ∀ b ∈ upper, a.tier < b.tier
  ordered : ∀ group ∈ groups, group.Pairwise fun a b => a.id < b.id

/-- The numbers of the tiers of some deployments, in order. -/
def tierNumbers (deployments : List Deployment) : List Nat :=
  Sorting.sortBy (fun a b => decide (a ≤ b)) (deployments.map (·.tier)).eraseDups

/-- The deployments of one tier in the order of their ids. -/
def tierOf (deployments : List Deployment) (number : Nat) : List Deployment :=
  Sorting.sortBy (fun a b => decide (a.id ≤ b.id)) (deployments.filter (·.tier == number))

variable {deployments : List Deployment}

theorem tiers_eq_map (deployments : List Deployment) :
    tiers deployments = (tierNumbers deployments).map (tierOf deployments) := rfl

theorem mem_tierNumbers {number : Nat} :
    number ∈ tierNumbers deployments ↔ ∃ deployment ∈ deployments, deployment.tier = number := by
  rw [tierNumbers, Sorting.mem_sortBy, List.mem_eraseDups, List.mem_map]

theorem mem_tierOf {deployment : Deployment} {number : Nat} :
    deployment ∈ tierOf deployments number ↔
      deployment ∈ deployments ∧ deployment.tier = number := by
  rw [tierOf, Sorting.mem_sortBy, List.mem_filter, beq_iff_eq]

theorem ascending_tierNumbers (deployments : List Deployment) :
    (tierNumbers deployments).Pairwise (· < ·) := by
  refine Sorting.ascending_sortBy_key id ?_
  rw [List.map_id]
  exact nodup_eraseDups _

/-- Where no two deployments have one id, those of a tier ascend strictly. -/
theorem ordered_tierOf (hDistinct : (deployments.map (·.id)).Nodup) (number : Nat) :
    (tierOf deployments number).Pairwise fun a b => a.id < b.id := by
  have hKept : ((deployments.filter (·.tier == number)).map (·.id)).Nodup :=
    hDistinct.sublist (List.filter_sublist.map _)
  exact Sorting.ascending_sortBy_key (fun deployment : Deployment => deployment.id) hKept

theorem level_of_mem_tiers {group : List Deployment} (hGroup : group ∈ tiers deployments)
    {a b : Deployment} (hA : a ∈ group) (hB : b ∈ group) : a.tier = b.tier := by
  rw [tiers_eq_map] at hGroup
  obtain ⟨number, _, rfl⟩ := List.mem_map.mp hGroup
  exact (mem_tierOf.mp hA).2.trans (mem_tierOf.mp hB).2.symm

theorem ascending_tiers (deployments : List Deployment) :
    (tiers deployments).Pairwise fun lower upper =>
      ∀ a ∈ lower, ∀ b ∈ upper, a.tier < b.tier := by
  rw [tiers_eq_map]
  refine List.pairwise_map.mpr ((ascending_tierNumbers deployments).imp ?_)
  intro lower upper hLess a hA b hB
  rw [(mem_tierOf.mp hA).2, (mem_tierOf.mp hB).2]
  exact hLess

theorem tiered_tiers (hDistinct : (deployments.map (·.id)).Nodup) :
    Tiered (tiers deployments) where
  filled := by
    rw [tiers_eq_map]
    intro group hGroup
    obtain ⟨number, hNumber, rfl⟩ := List.mem_map.mp hGroup
    obtain ⟨deployment, hDeployment⟩ := mem_tierNumbers.mp hNumber
    exact List.ne_nil_of_mem (mem_tierOf.mpr hDeployment)
  level group hGroup a hA b hB := level_of_mem_tiers hGroup hA hB
  ascending := ascending_tiers deployments
  ordered := by
    rw [tiers_eq_map]
    intro group hGroup
    obtain ⟨number, _, rfl⟩ := List.mem_map.mp hGroup
    exact ordered_tierOf hDistinct number

theorem mem_flatten_tiers {deployment : Deployment} :
    deployment ∈ (tiers deployments).flatten ↔ deployment ∈ deployments := by
  rw [tiers_eq_map, List.mem_flatten]
  constructor
  · rintro ⟨group, hGroup, hMem⟩
    obtain ⟨number, _, rfl⟩ := List.mem_map.mp hGroup
    exact (mem_tierOf.mp hMem).1
  · intro hMem
    exact ⟨_, List.mem_map_of_mem (mem_tierNumbers.mpr ⟨deployment, hMem, rfl⟩),
      mem_tierOf.mpr ⟨hMem, rfl⟩⟩

/-- No deployment stands in two groups, nor twice in one. -/
theorem Tiered.nodup_flatten {groups : List (List Deployment)} (h : Tiered groups) :
    groups.flatten.Nodup := by
  refine List.pairwise_flatten.mpr ⟨fun group hGroup => ?_, h.ascending.imp ?_⟩
  · refine (h.ordered group hGroup).imp fun {a b} hLess hEq => ?_
    exact String.lt_irrefl b.id (hEq ▸ hLess)
  · rintro lower upper hLess a hA b hB rfl
    exact Nat.lt_irrefl _ (hLess a hA a hB)

/-- Grouping is a rearrangement. -/
theorem flatten_tiers_perm (hDistinct : (deployments.map (·.id)).Nodup) :
    (tiers deployments).flatten.Perm deployments :=
  (List.perm_ext_iff_of_nodup (tiered_tiers hDistinct).nodup_flatten
    (List.Nodup.of_map _ hDistinct)).mpr fun _ => mem_flatten_tiers

end DeploymentRouting.Registry
