/-!
Sorting by insertion. Elements that compare alike keep the order in which they
came.
-/
namespace DeploymentRouting.Sorting

universe u

variable {α : Type u} (le : α → α → Bool)

/-- Puts an element before the first one that does not have to stand before it. -/
def insertBy (a : α) : List α → List α
  | [] => [a]
  | b :: rest => if le a b then a :: b :: rest else b :: insertBy a rest

def sortBy : List α → List α
  | [] => []
  | a :: rest => insertBy le a (sortBy rest)

theorem perm_insertBy (a : α) (items : List α) : (insertBy le a items).Perm (a :: items) := by
  induction items with
  | nil => exact List.Perm.refl _
  | cons b rest ih =>
      unfold insertBy
      split
      · exact List.Perm.refl _
      · exact (List.Perm.cons b ih).trans (List.Perm.swap a b rest)

theorem perm_sortBy (items : List α) : (sortBy le items).Perm items := by
  induction items with
  | nil => exact List.Perm.refl _
  | cons a rest ih => exact (perm_insertBy le a _).trans (List.Perm.cons a ih)

@[simp] theorem mem_sortBy {a : α} {items : List α} : a ∈ sortBy le items ↔ a ∈ items :=
  (perm_sortBy le items).mem_iff

theorem pairwise_insertBy (hTrans : ∀ a b c, le a b = true → le b c = true → le a c = true)
    (hTotal : ∀ a b, le a b = true ∨ le b a = true) (a : α) {items : List α}
    (h : items.Pairwise (fun x y => le x y = true)) :
    (insertBy le a items).Pairwise (fun x y => le x y = true) := by
  induction items with
  | nil => simp [insertBy]
  | cons b rest ih =>
      obtain ⟨hHead, hRest⟩ := List.pairwise_cons.mp h
      unfold insertBy
      split
      next hLe =>
        refine List.pairwise_cons.mpr ⟨fun c hc => ?_, h⟩
        rcases List.mem_cons.mp hc with rfl | hc
        · exact hLe
        · exact hTrans a b c hLe (hHead c hc)
      next hNot =>
        refine List.pairwise_cons.mpr ⟨fun c hc => ?_, ih hRest⟩
        rcases List.mem_cons.mp ((perm_insertBy le a rest).mem_iff.mp hc) with rfl | hc
        · exact (hTotal c b).resolve_left hNot
        · exact hHead c hc

theorem pairwise_sortBy (hTrans : ∀ a b c, le a b = true → le b c = true → le a c = true)
    (hTotal : ∀ a b, le a b = true ∨ le b a = true) (items : List α) :
    (sortBy le items).Pairwise (fun x y => le x y = true) := by
  induction items with
  | nil => exact List.Pairwise.nil
  | cons a rest ih => exact pairwise_insertBy le hTrans hTotal a ih

/-- Where no two elements compare alike, sorting forgets the order in which they came. -/
theorem sortBy_eq_of_perm (hTrans : ∀ a b c, le a b = true → le b c = true → le a c = true)
    (hTotal : ∀ a b, le a b = true ∨ le b a = true) {items other : List α}
    (hAlike : ∀ a ∈ items, ∀ b ∈ items, le a b = true → le b a = true → a = b)
    (h : items.Perm other) : sortBy le items = sortBy le other := by
  have hPerm : (sortBy le items).Perm (sortBy le other) :=
    (perm_sortBy le items).trans (h.trans (perm_sortBy le other).symm)
  refine hPerm.eq_of_pairwise (fun a b hA hB hLe hGe => ?_)
    (pairwise_sortBy le hTrans hTotal items) (pairwise_sortBy le hTrans hTotal other)
  have hB : b ∈ items := h.mem_iff.mpr ((mem_sortBy le).mp hB)
  exact hAlike a ((mem_sortBy le).mp hA) b hB hLe hGe

end DeploymentRouting.Sorting
