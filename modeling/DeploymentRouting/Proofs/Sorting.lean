import DeploymentRouting.Sorting
import Mathlib.Data.List.Nodup
/-!
Sorting by a key. Where no two elements have one key there is just one way to put them in order,
so sorting forgets everything but which elements there are.
-/
namespace DeploymentRouting.Sorting

universe u v

variable {α : Type u} {κ : Type v} [LE κ] [DecidableLE κ] [Std.IsLinearOrder κ]

theorem key_trans (key : α → κ) (a b c : α) (hFirst : decide (key a ≤ key b) = true)
    (hSecond : decide (key b ≤ key c) = true) : decide (key a ≤ key c) = true :=
  decide_eq_true (Std.le_trans (of_decide_eq_true hFirst) (of_decide_eq_true hSecond))

theorem key_total (key : α → κ) (a b : α) :
    decide (key a ≤ key b) = true ∨ decide (key b ≤ key a) = true := by
  rw [decide_eq_true_eq, decide_eq_true_eq]
  exact Std.le_total

theorem sortBy_key_eq_of_perm (key : α → κ) {items other : List α}
    (hDistinct : (items.map key).Nodup) (h : items.Perm other) :
    sortBy (fun a b => decide (key a ≤ key b)) items =
      sortBy (fun a b => decide (key a ≤ key b)) other := by
  refine sortBy_eq_of_perm _ (key_trans key) (key_total key) (fun a hA b hB hLe hGe => ?_) h
  have hKey : key a = key b := Std.le_antisymm (of_decide_eq_true hLe) (of_decide_eq_true hGe)
  exact List.inj_on_of_nodup_map hDistinct hA hB hKey

/-- The keys ascend strictly. -/
theorem ascending_sortBy_key [LT κ] [Std.LawfulOrderLT κ] (key : α → κ) {items : List α}
    (hDistinct : (items.map key).Nodup) :
    (sortBy (fun a b => decide (key a ≤ key b)) items).Pairwise fun a b => key a < key b := by
  have hSorted := pairwise_sortBy _ (key_trans key) (key_total key) items
  have hOther : (sortBy (fun a b => decide (key a ≤ key b)) items).Pairwise
      fun a b => key a ≠ key b :=
    (List.pairwise_map.mp hDistinct).perm (perm_sortBy _ items).symm fun hNe => hNe.symm
  refine (hSorted.and hOther).imp fun {a b} hBoth => ?_
  exact Std.lt_of_le_of_ne (of_decide_eq_true hBoth.1) hBoth.2

end DeploymentRouting.Sorting
