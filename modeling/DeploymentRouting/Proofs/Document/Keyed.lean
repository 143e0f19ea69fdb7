import DeploymentRouting.Document.Decode
import Mathlib.Data.List.Perm.Basic
/-!
Lists of named values in which no name comes twice. What stands under a name does not depend on
the order of such a list, nor does the table that is made of it.
-/
namespace DeploymentRouting

namespace Table

variable {α : Type} {entries others : List (String × α)} {name : String} {value : α}

theorem findEntry_eq_none (h : name ∉ entries.map Prod.fst) : findEntry name entries = none := by
  induction entries with
  | nil => rfl
  | cons entry rest ih =>
      rw [List.map_cons, List.mem_cons, not_or] at h
      rw [findEntry, if_neg h.1]
      exact ih h.2

/-- Where no name comes twice an entry is found if and only if it is there. -/
theorem findEntry_eq_some_iff (hDistinct : (entries.map Prod.fst).Nodup) :
    findEntry name entries = some value ↔ (name, value) ∈ entries := by
  refine ⟨mem_of_findEntry, fun hMem => ?_⟩
  induction entries with
  | nil => cases hMem
  | cons entry rest ih =>
      rw [List.map_cons, List.nodup_cons] at hDistinct
      rcases List.mem_cons.mp hMem with rfl | hRest
      · exact if_pos rfl
      · have hNe : name ≠ entry.1 := fun hName =>
          hDistinct.1 (hName ▸ List.mem_map_of_mem (f := Prod.fst) hRest)
        rw [findEntry, if_neg hNe]
        exact ih hDistinct.2 hRest

/-- Then the order of entries does not matter. -/
theorem findEntry_perm (hPerm : entries.Perm others) (hDistinct : (others.map Prod.fst).Nodup) :
    findEntry name entries = findEntry name others := by
  apply Option.ext
  intro value
  rw [findEntry_eq_some_iff ((hPerm.map Prod.fst).nodup_iff.mpr hDistinct),
    findEntry_eq_some_iff hDistinct, hPerm.mem_iff]

/-- Nor does it matter when they are put into a table. -/
theorem get?_foldl_insert_of_distinct (hDistinct : (entries.map Prod.fst).Nodup)
    (table : Table α) :
    (entries.foldl (fun table entry => table.insert entry.1 entry.2) table).get? name =
      (findEntry name entries).or (table.get? name) := by
  induction entries generalizing table with
  | nil => rfl
  | cons entry rest ih =>
      rw [List.map_cons, List.nodup_cons] at hDistinct
      rw [List.foldl_cons, ih hDistinct.2, get?_insert, findEntry]
      split
      next hName =>
        subst hName
        rw [findEntry_eq_none hDistinct.1]
        rfl
      next => rfl

/-- No name comes twice in a table. -/
theorem distinct_keys (table : Table α) : (table.entries.map Prod.fst).Nodup := by
  refine table.ascending_keys.imp fun {a b} hLess hSame => ?_
  exact String.lt_irrefl b (hSame ▸ hLess)

/-- The entries of a table make it up again in any order. -/
theorem ofList_of_perm {table : Table α} (hPerm : entries.Perm table.entries) :
    ofList entries = table := by
  apply ext_get?
  intro name
  have hDistinct := (hPerm.map Prod.fst).nodup_iff.mpr table.distinct_keys
  rw [ofList, get?_foldl_insert_of_distinct hDistinct, get?_empty, Option.or_none,
    findEntry_perm hPerm table.distinct_keys]
  rfl

end Table

namespace Document.Fields

@[simp] theorem find?_nil (name : String) : find? [] name = none := rfl

@[simp] theorem find?_cons (key name : String) (document : Document) (rest : Fields) :
    find? ((key, document) :: rest) name =
      if name = key then some document else find? rest name := by
  rw [find?, List.find?_cons]
  by_cases hName : name = key
  · simp [hName]
  · rw [if_neg hName, show (key == name) = false from beq_false_of_ne (Ne.symm hName)]
    rfl

@[simp] theorem find?_append (fields others : Fields) (name : String) :
    find? (fields ++ others) name = (fields.find? name).or (others.find? name) := by
  rw [find?, List.find?_append, Option.map_or]
  rfl

theorem find?_eq_findEntry (fields : Fields) (name : String) :
    fields.find? name = Table.findEntry name fields := by
  induction fields with
  | nil => rfl
  | cons field rest ih => rw [find?_cons, Table.findEntry, ih]

end Document.Fields

end DeploymentRouting
