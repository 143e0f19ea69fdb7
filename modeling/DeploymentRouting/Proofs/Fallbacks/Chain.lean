import DeploymentRouting.Fallbacks
/-!
Chains of models. A chain is put together in one go, model by model, and it ends where its depth is
used up. It turns out to be the model itself and the first of the distinct others of its list, so
it has no model twice and a greater depth only makes it longer.
-/
namespace DeploymentRouting.Fallbacks

/-- A chain goes on with the models of the rest that are not in it yet, each where it first
stands, as far as there is room. -/
theorem extend_eq (depth : Nat) (chain rest : List String) :
    extend depth chain rest =
      chain ++ (rest.filter (· ∉ chain)).eraseDups.take (depth + 1 - chain.length) := by
  induction rest generalizing chain with
  | nil => simp [extend]
  | cons model rest ih =>
      unfold extend
      split
      next hFull =>
        rw [Nat.sub_eq_zero_of_le (Nat.succ_le_of_lt hFull), List.take_zero, List.append_nil]
      next hRoom =>
        split
        next hKnown =>
          rw [ih, List.filter_cons_of_neg (by simpa using hKnown)]
        next hNew =>
          have hRest : (rest.filter (· ∉ chain)).filter (!· == model) =
              rest.filter (· ∉ chain ++ [model]) := by
            rw [List.filter_filter]
            refine List.filter_congr fun other _ => Bool.eq_iff_iff.mpr ?_
            simp [and_comm]
          have hLeft : depth + 1 - chain.length = depth + 1 - (chain ++ [model]).length + 1 := by
            rw [List.length_append, List.length_singleton]
            omega
          rw [ih, List.filter_cons_of_pos (by simpa using hNew), List.eraseDups_cons, hRest, hLeft,
            List.take_succ_cons, List.append_assoc]
          rfl

theorem nodup_extend (depth : Nat) {chain : List String} (hDistinct : chain.Nodup)
    (rest : List String) : (extend depth chain rest).Nodup := by
  induction rest generalizing chain with
  | nil => exact hDistinct
  | cons model rest ih =>
      unfold extend
      split
      next => exact hDistinct
      next =>
        split
        next => exact ih hDistinct
        next hNew =>
          refine ih (List.nodup_append.mpr ⟨hDistinct, List.pairwise_singleton _ model, ?_⟩)
          intro other hOther last hLast hSame
          rw [List.mem_singleton.mp hLast] at hSame
          exact hNew (List.contains_iff_mem.mpr (hSame ▸ hOther))

/-- The models that can follow a model in its chain: those of its list other than itself, each
where it first stands. -/
def others (fallbacks : Fallbacks) (model : String) : List String :=
  ((fallbacks.list model).filter (· ≠ model)).eraseDups

variable (fallbacks : Fallbacks) (model : String) (depth : Nat)

theorem chain_eq_take : fallbacks.chain model depth =
    model :: (fallbacks.others model).take depth := by
  rw [chain, extend_eq]
  simp [others]

theorem chain_eq_cons : fallbacks.chain model depth =
    model :: (fallbacks.chain model depth).tail := by
  rw [chain_eq_take, List.tail_cons]

theorem length_chain_le : (fallbacks.chain model depth).length ≤ depth + 1 := by
  rw [chain_eq_take, List.length_cons]
  exact Nat.succ_le_succ (List.length_take_le depth _)

theorem nodup_chain : (fallbacks.chain model depth).Nodup :=
  nodup_extend depth (List.pairwise_singleton _ model) _

/-- A model that has the list itself, or stands further up in it already, might as well be left
out. -/
theorem others_of_repeated {repeated : String} {before : List String}
    (hRepeated : repeated = model ∨ repeated ∈ before) (after : List String) :
    (fallbacks.set model (before ++ repeated :: after)).others model =
      (fallbacks.set model (before ++ after)).others model := by
  rw [others, others, list_set, list_set, List.filter_append, List.filter_append]
  by_cases hSelf : repeated = model
  · rw [List.filter_cons_of_neg (by simpa using hSelf)]
  · have hBefore : repeated ∈ before.filter (· ≠ model) :=
      List.mem_filter.mpr ⟨hRepeated.resolve_left hSelf, by simpa using hSelf⟩
    rw [List.filter_cons_of_pos (by simpa using hSelf), List.eraseDups_append,
      List.eraseDups_append, List.cons_removeAll, if_neg (by simpa using hBefore)]

/-- The chain of a model is the model itself and then, as far as the depth allows, the distinct
other models of its list, in the order in which they first stand there. So it begins with the
model, has no model twice and at most one more than the depth, and a greater depth only makes it
longer. The model itself and repetitions in the list take no place from another. -/
theorem chain_distinct_prefix :
    fallbacks.chain model depth =
        model :: ((fallbacks.list model).filter (· ≠ model)).eraseDups.take depth ∧
      (fallbacks.chain model depth).head? = some model ∧
      (fallbacks.chain model depth).Nodup ∧
      (fallbacks.chain model depth).length ≤ 1 + depth ∧
      (∀ before repeated after, repeated = model ∨ repeated ∈ before →
        (fallbacks.set model (before ++ repeated :: after)).chain model depth =
          (fallbacks.set model (before ++ after)).chain model depth) ∧
      fallbacks.chain model depth <+: fallbacks.chain model (depth + 1) := by
  refine ⟨chain_eq_take .., ?_, nodup_chain .., ?_, ?_, ?_⟩
  · rw [chain_eq_cons, List.head?_cons]
  · rw [Nat.add_comm]
    exact length_chain_le ..
  · intro before repeated after hRepeated
    rw [chain_eq_take, chain_eq_take, others_of_repeated fallbacks model hRepeated]
  · rw [chain_eq_take, chain_eq_take, List.cons_prefix_cons]
    exact ⟨rfl, List.take_prefix_take_left (Nat.le_succ depth)⟩

/-- In a list in which "m" and "n" stand more than once, one "n" less makes no difference. -/
theorem chain_distinct_prefix_repeated :
    let fallbacks : Fallbacks := {}
    ("n" = "m" ∨ "n" ∈ ["m", "n", "m"]) ∧
      (fallbacks.set "m" ["m", "n", "m", "n", "o", "p"]).chain "m" 2 =
        (fallbacks.set "m" ["m", "n", "m", "o", "p"]).chain "m" 2 ∧
      (fallbacks.set "m" ["m", "n", "m", "o", "p"]).chain "m" 2 = ["m", "n", "o"] := by
  intro fallbacks
  have hRepeated : "n" = "m" ∨ "n" ∈ ["m", "n", "m"] := by decide
  obtain ⟨-, -, -, -, hDropped, -⟩ := fallbacks.chain_distinct_prefix "m" 2
  exact ⟨hRepeated, hDropped ["m", "n", "m"] "n" ["o", "p"] hRepeated, rfl⟩

end DeploymentRouting.Fallbacks
