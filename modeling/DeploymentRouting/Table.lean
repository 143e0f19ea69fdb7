/-!
Finite maps from names to values, listed in the order of their names. Names are
ordered by code point. A table holds each name once, and two tables that answer
every look-up alike list the same entries, so nothing of the order in which
entries came is left in it.
-/
namespace DeploymentRouting

universe u v

/-- Entries in strictly ascending order of their names. -/
structure Table (α : Type u) where
  entries : List (String × α)
  ascending : entries.Pairwise (fun a b => a.1 < b.1)

namespace Table

variable {α : Type u} {β : Type v}

instance : EmptyCollection (Table α) := ⟨⟨[], List.Pairwise.nil⟩⟩

instance : Inhabited (Table α) := ⟨∅⟩

instance [BEq α] : BEq (Table α) := ⟨fun left right => left.entries == right.entries⟩

def isEmpty (table : Table α) : Bool := table.entries.isEmpty

def size (table : Table α) : Nat := table.entries.length

/-- The names of a table in ascending order. -/
def keys (table : Table α) : List String := table.entries.map Prod.fst

/-- The values of a table in the order of their names. -/
def values (table : Table α) : List α := table.entries.map Prod.snd

/-- The value of the first entry with a name. -/
def findEntry (name : String) : List (String × α) → Option α
  | [] => none
  | entry :: rest => if name = entry.1 then some entry.2 else findEntry name rest

/-- The value stored under a name. -/
def get? (table : Table α) (name : String) : Option α := findEntry name table.entries

def contains (table : Table α) (key : String) : Bool := (table.get? key).isSome

/-- Puts an entry in its place, over an older one of the same name. -/
def insertEntry (key : String) (value : α) : List (String × α) → List (String × α)
  | [] => [(key, value)]
  | entry :: rest =>
      if key < entry.1 then (key, value) :: entry :: rest
      else if key = entry.1 then (key, value) :: rest
      else entry :: insertEntry key value rest

theorem mem_insertEntry {key : String} {value : α} {entries : List (String × α)}
    {entry : String × α} (h : entry ∈ insertEntry key value entries) :
    entry = (key, value) ∨ entry ∈ entries := by
  induction entries with
  | nil => simpa [insertEntry] using h
  | cons head rest ih =>
      unfold insertEntry at h
      split at h
      · simpa using h
      · split at h
        · rcases List.mem_cons.mp h with h | h
          · exact Or.inl h
          · exact Or.inr (List.mem_cons_of_mem _ h)
        · rcases List.mem_cons.mp h with h | h
          · exact Or.inr (h ▸ List.mem_cons_self)
          · exact (ih h).imp_right (List.mem_cons_of_mem _)

theorem lt_of_not_lt_of_ne {a b : String} (hNot : ¬ a < b) (hNe : a ≠ b) : b < a := by
  rcases String.le_total a b with h | h
  · exact absurd (String.le_antisymm h (String.not_lt.1 hNot)) hNe
  · exact String.not_le.1 fun h' => hNe (String.le_antisymm h' h)

theorem ascending_insertEntry {key : String} {value : α} {entries : List (String × α)}
    (h : entries.Pairwise (fun a b => a.1 < b.1)) :
    (insertEntry key value entries).Pairwise (fun a b => a.1 < b.1) := by
  induction entries with
  | nil => simp [insertEntry]
  | cons head rest ih =>
      obtain ⟨hHead, hRest⟩ := List.pairwise_cons.mp h
      unfold insertEntry
      split
      next hLess =>
        refine List.pairwise_cons.mpr ⟨fun entry hEntry => ?_, h⟩
        rcases List.mem_cons.mp hEntry with rfl | hEntry
        · exact hLess
        · exact String.lt_trans hLess (hHead entry hEntry)
      next hNot =>
        split
        next hEq =>
          exact List.pairwise_cons.mpr ⟨fun entry hEntry => hEq ▸ hHead entry hEntry, hRest⟩
        next hNe =>
          refine List.pairwise_cons.mpr ⟨fun entry hEntry => ?_, ih hRest⟩
          rcases mem_insertEntry hEntry with rfl | hEntry
          · exact lt_of_not_lt_of_ne hNot hNe
          · exact hHead entry hEntry

/-- A table with one more entry, which replaces an older one of the same name. -/
def insert (table : Table α) (key : String) (value : α) : Table α :=
  ⟨insertEntry key value table.entries, ascending_insertEntry table.ascending⟩

/-- A table of the entries that pass a test. -/
def filter (table : Table α) (keep : String → α → Bool) : Table α :=
  ⟨table.entries.filter (fun entry => keep entry.1 entry.2), table.ascending.filter _⟩

/-- A table without the entry of a name. -/
def erase (table : Table α) (key : String) : Table α :=
  table.filter fun name _ => name != key

/-- The same names, each with the image of its value. -/
def mapValues (table : Table α) (f : String → α → β) : Table β :=
  ⟨table.entries.map (fun entry => (entry.1, f entry.1 entry.2)),
    List.pairwise_map.mpr table.ascending⟩

/-- Changes the value of a name, if it has one. -/
def modify (table : Table α) (key : String) (f : α → α) : Table α :=
  match table.get? key with
  | some value => table.insert key (f value)
  | none => table

/-- The table of a list of entries. Of two entries with one name the later stays. -/
def ofList (entries : List (String × α)) : Table α :=
  entries.foldl (fun table entry => table.insert entry.1 entry.2) ∅

@[simp] theorem get?_empty (key : String) : (∅ : Table α).get? key = none := rfl

theorem findEntry_insertEntry (key name : String) (value : α) (entries : List (String × α)) :
    findEntry name (insertEntry key value entries) =
      if name = key then some value else findEntry name entries := by
  induction entries with
  | nil => simp [insertEntry, findEntry]
  | cons head rest ih => grind [insertEntry, findEntry]

@[simp] theorem get?_insert (table : Table α) (key name : String) (value : α) :
    (table.insert key value).get? name = if name = key then some value else table.get? name :=
  findEntry_insertEntry key name value table.entries

/-- A name that stands below every name of a list has no entry in it. -/
theorem findEntry_eq_none_of_lt {name : String} {entries : List (String × α)}
    (h : ∀ entry ∈ entries, name < entry.1) : findEntry name entries = none := by
  induction entries with
  | nil => rfl
  | cons head rest ih =>
      have hNe : name ≠ head.1 := fun hEq =>
        String.lt_irrefl name (hEq ▸ h head List.mem_cons_self)
      simp [findEntry, hNe, ih fun entry hEntry => h entry (List.mem_cons_of_mem _ hEntry)]

theorem findEntry_filter (name : String) (keep : String → α → Bool)
    {entries : List (String × α)} (h : entries.Pairwise (fun a b => a.1 < b.1)) :
    findEntry name (entries.filter fun entry => keep entry.1 entry.2) =
      (findEntry name entries).filter (keep name) := by
  induction entries with
  | nil => rfl
  | cons head rest ih =>
      obtain ⟨hHead, hRest⟩ := List.pairwise_cons.mp h
      by_cases hName : name = head.1
      · subst hName
        by_cases hKeep : keep head.1 head.2 = true
        · simp [hKeep, findEntry, Option.filter]
        · have hAbsent := ih hRest
          rw [findEntry_eq_none_of_lt hHead] at hAbsent
          simpa [List.filter_cons, hKeep, findEntry, Option.filter] using hAbsent
      · by_cases hKeep : keep head.1 head.2 = true
        · simp [hKeep, findEntry, hName, ih hRest]
        · simp [hKeep, findEntry, hName, ih hRest]

@[simp] theorem get?_filter (table : Table α) (keep : String → α → Bool) (name : String) :
    (table.filter keep).get? name = (table.get? name).filter (keep name) :=
  findEntry_filter name keep table.ascending

@[simp] theorem get?_erase (table : Table α) (key name : String) :
    (table.erase key).get? name = if name = key then none else table.get? name := by
  by_cases h : name = key
  · subst h; cases hValue : table.get? name <;> simp [erase, hValue, Option.filter]
  · cases hValue : table.get? name <;> simp [erase, hValue, Option.filter, h]

@[simp] theorem get?_mapValues (table : Table α) (f : String → α → β) (name : String) :
    (table.mapValues f).get? name = (table.get? name).map (f name) := by
  obtain ⟨entries, _⟩ := table
  simp only [get?, mapValues]
  induction entries with
  | nil => rfl
  | cons head rest ih =>
      by_cases h : name = head.1
      · subst h; simp [findEntry]
      · simp_all [findEntry]

theorem mem_of_findEntry {name : String} {value : α} {entries : List (String × α)}
    (h : findEntry name entries = some value) : (name, value) ∈ entries := by
  induction entries with
  | nil => cases h
  | cons head rest ih =>
      unfold findEntry at h
      split at h
      next hName =>
        rw [hName, ← Option.some.inj h]
        exact List.mem_cons_self
      next => exact List.mem_cons_of_mem head (ih h)

theorem findEntry_of_mem {name : String} {value : α} {entries : List (String × α)}
    (hAscending : entries.Pairwise (fun a b => a.1 < b.1)) (h : (name, value) ∈ entries) :
    findEntry name entries = some value := by
  induction entries with
  | nil => cases h
  | cons head rest ih =>
      obtain ⟨hHead, hRest⟩ := List.pairwise_cons.mp hAscending
      rcases List.mem_cons.mp h with rfl | hMem
      · exact if_pos rfl
      · have hNe : name ≠ head.1 := fun hEq =>
          String.lt_irrefl name (hEq ▸ hHead (name, value) hMem)
        rw [findEntry, if_neg hNe]
        exact ih hRest hMem

/-- The entries of a table are its look-ups. -/
theorem mem_entries {table : Table α} {name : String} {value : α} :
    (name, value) ∈ table.entries ↔ table.get? name = some value :=
  ⟨findEntry_of_mem table.ascending, mem_of_findEntry⟩

theorem mem_keys {table : Table α} {name : String} :
    name ∈ table.keys ↔ ∃ value, table.get? name = some value := by
  rw [keys, List.mem_map]
  constructor
  · rintro ⟨entry, hEntry, rfl⟩
    exact ⟨entry.2, mem_entries.mp hEntry⟩
  · rintro ⟨value, hValue⟩
    exact ⟨(name, value), mem_entries.mpr hValue, rfl⟩

theorem ascending_keys (table : Table α) : table.keys.Pairwise (· < ·) :=
  List.pairwise_map.mpr table.ascending

theorem nodup_of_ascending {entries : List (String × α)}
    (h : entries.Pairwise (fun a b => a.1 < b.1)) : entries.Nodup := by
  refine h.imp fun {a b} hLess hEq => ?_
  rw [hEq] at hLess
  exact String.lt_irrefl b.1 hLess

/-- A table is determined by its look-ups. -/
theorem ext_get? {left right : Table α} (h : ∀ name, left.get? name = right.get? name) :
    left = right := by
  have hPerm : left.entries.Perm right.entries :=
    (List.perm_ext_iff_of_nodup (nodup_of_ascending left.ascending)
      (nodup_of_ascending right.ascending)).mpr fun entry => by
        rw [show entry = (entry.1, entry.2) from rfl, mem_entries, mem_entries, h]
  have hEntries : left.entries = right.entries := by
    refine hPerm.eq_of_pairwise (fun a b _ _ hLess hMore => ?_) left.ascending right.ascending
    exact absurd (String.lt_trans hLess hMore) (String.lt_irrefl a.1)
  cases left
  cases right
  cases hEntries
  rfl

/-- Two tables with the same names list them alike. -/
theorem keys_eq_of_mem_iff {left : Table α} {right : Table β}
    (h : ∀ name, name ∈ left.keys ↔ name ∈ right.keys) : left.keys = right.keys := by
  have hDistinct : ∀ {names : List String}, names.Pairwise (· < ·) → names.Nodup := by
    intro names hAscending
    refine hAscending.imp fun {a b} hLess hEq => ?_
    exact String.lt_irrefl b (hEq ▸ hLess)
  have hPerm : left.keys.Perm right.keys :=
    (List.perm_ext_iff_of_nodup (hDistinct left.ascending_keys)
      (hDistinct right.ascending_keys)).mpr h
  refine hPerm.eq_of_pairwise (fun a b _ _ hLess hMore => ?_) left.ascending_keys
    right.ascending_keys
  exact absurd (String.lt_trans hLess hMore) (String.lt_irrefl a)

/-- Entries that are put into a table one by one, all under different names. -/
theorem get?_foldl_insert {entries : List (String × α)}
    (hAscending : entries.Pairwise (fun a b => a.1 < b.1)) (table : Table α) (name : String) :
    (entries.foldl (fun table entry => table.insert entry.1 entry.2) table).get? name =
      (findEntry name entries).or (table.get? name) := by
  induction entries generalizing table with
  | nil => rfl
  | cons head rest ih =>
      obtain ⟨hHead, hRest⟩ := List.pairwise_cons.mp hAscending
      rw [List.foldl_cons, ih hRest, get?_insert, findEntry]
      split
      next hName =>
        rw [hName, findEntry_eq_none_of_lt hHead]
        rfl
      next => rfl

/-- All entries of a table over some older ones of the same names make up the table again. -/
theorem foldl_insert_entries {table old : Table α}
    (hOld : ∀ name, table.get? name = none → old.get? name = none) :
    table.entries.foldl (fun table entry => table.insert entry.1 entry.2) old = table := by
  apply ext_get?
  intro name
  rw [get?_foldl_insert table.ascending]
  change (table.get? name).or (old.get? name) = table.get? name
  cases hValue : table.get? name with
  | none => exact hOld name hValue
  | some value => rfl

end Table

end DeploymentRouting
