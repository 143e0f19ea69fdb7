import DeploymentRouting.Proofs.Document.Keyed
import Mathlib.Data.List.Forall2
/-!
What can come back of a document that was written as text. A notation may leave quotes out where
the text still reads as what was written, and put the entries of a mapping into another order.
Nothing else is lost: every scalar reads as what it was written as, and every sequence and mapping
has all that is in it. A reader gives back a value if it does so on every such document.
-/
namespace DeploymentRouting

/-- A scalar reads as what another one was written as. -/
def Scalar.ReadsAs : Scalar → Scalar → Prop
  | .plain content, read => read = .plain content
  | .text content, read => read.text? = some content ∧ read.isNull = false
  | .null, read => read.isNull = true
  | .bool value, read => read.bool? = some value ∧ read.isNull = false
  | .integer value, read =>
      read.integer? = some value ∧ read.natural? = value.toNat? ∧ read.isNull = false
  | .float value, read => read.float? = some value ∧ read.isNull = false

/-- Every scalar reads as itself. -/
theorem Scalar.readsAs_self (scalar : Scalar) : scalar.ReadsAs scalar := by
  cases scalar with
  | plain content => exact rfl
  | text content => exact ⟨rfl, rfl⟩
  | null => exact rfl
  | bool value => exact ⟨rfl, rfl⟩
  | integer value => exact ⟨rfl, rfl, rfl⟩
  | float value => exact ⟨rfl, rfl⟩

namespace Document

mutual

/-- A document holds all that was written, with the entries of its mappings in any order. -/
inductive Carries : Document → Document → Prop where
  | scalar {written read : Scalar} (hReads : written.ReadsAs read) :
      Carries (.scalar written) (.scalar read)
  | sequence {written read : List Document} (hItems : List.Forall₂ Carries written read) :
      Carries (.sequence written) (.sequence read)
  | mapping {written entries read : List (Document × Document)}
      (hEntries : CarriesEntries written entries) (hOrder : entries.Perm read) :
      Carries (.mapping written) (.mapping read)

/-- Each entry holds all that was written of the one in its place. -/
inductive CarriesEntries : List (Document × Document) → List (Document × Document) → Prop where
  | nil : CarriesEntries [] []
  | cons {key value key' value' : Document} {written read : List (Document × Document)}
      (hKey : Carries key key') (hValue : Carries value value')
      (hRest : CarriesEntries written read) :
      CarriesEntries ((key, value) :: written) ((key', value') :: read)

end

mutual

/-- A document itself holds all that was written. -/
theorem carries_self : (document : Document) → document.Carries document
  | .scalar value => .scalar value.readsAs_self
  | .sequence items => .sequence (carries_items items)
  | .mapping entries => .mapping (carries_entries entries) (List.Perm.refl entries)

theorem carries_items : (items : List Document) → List.Forall₂ Carries items items
  | [] => .nil
  | item :: rest => .cons (carries_self item) (carries_items rest)

theorem carries_entries : (entries : List (Document × Document)) → CarriesEntries entries entries
  | [] => .nil
  | (key, value) :: rest => .cons (carries_self key) (carries_self value) (carries_entries rest)

end

variable {α : Type}

/-- A reader finds a value in every document that holds what was written. -/
def Gives (read : Document → Option α) (written : Document) (value : α) : Prop :=
  ∀ document, written.Carries document → read document = some value

/-- No document that holds what was written reads as one that is absent. -/
def NeverNull (written : Document) : Prop :=
  ∀ document, written.Carries document → document.isNull = false

/-- A text is never taken for nothing. -/
theorem neverNull_ofText (text : String) : (ofText text).NeverNull := by
  intro document hCarries
  cases hCarries with
  | scalar hReads => exact hReads.2

/-- Nor is a number. -/
theorem neverNull_ofInt (value : Int) : (ofInt value).NeverNull := by
  intro document hCarries
  cases hCarries with
  | scalar hReads => exact hReads.2.2

theorem gives_text (text : String) : Gives text? (ofText text) text := by
  intro document hCarries
  cases hCarries with
  | scalar hReads => exact hReads.1

theorem gives_bool (value : Bool) : Gives bool? (ofBool value) value := by
  intro document hCarries
  cases hCarries with
  | scalar hReads => exact hReads.1

theorem gives_float (value : Float) : Gives float? (ofFloat value) value := by
  intro document hCarries
  cases hCarries with
  | scalar hReads => exact hReads.1

/-- A natural number is read back if it is not too great. -/
theorem gives_natural {most value : Nat} (h : value ≤ most) :
    Gives (natural? most) (ofNat value) value := by
  intro document hCarries
  cases hCarries with
  | @scalar _ read hReads =>
      have hValue : read.natural? = some value := hReads.2.1
      change read.natural?.filter (· ≤ most) = some value
      rw [hValue, Option.filter_some, if_pos (decide_eq_true h)]

/-- An integer is read back if it fits 64 bits. -/
theorem gives_integer {value : Int} (hLeast : -9223372036854775808 ≤ value)
    (hMost : value ≤ 9223372036854775807) : Gives integer? (ofInt value) value := by
  intro document hCarries
  cases hCarries with
  | @scalar _ read hReads =>
      have hValue : read.integer? = some value := hReads.1
      change read.integer?.filter (fun value =>
        -9223372036854775808 ≤ value && value ≤ 9223372036854775807) = some value
      rw [hValue, Option.filter_some, decide_eq_true hLeast, decide_eq_true hMost]
      rfl

/-- The name of a choice is read back as that choice. -/
theorem gives_choice (dialect : Dialect) {ofName? : String → Option α} {name : String} {value : α}
    (h : ofName? name = some value) : Gives (choice? dialect ofName?) (ofText name) value := by
  intro document hCarries
  cases hCarries with
  | @scalar _ read hReads =>
      change read.text?.bind ofName? = some value
      rw [hReads.1]
      exact h

/-- The items of a list are read one by one. -/
theorem mapM_eq_some {β : Type} {read : β → Option α} {values : List α} {items : List β}
    (h : List.Forall₂ (fun value item => read item = some value) values items) :
    items.mapM read = some values := by
  induction h with
  | nil => rfl
  | cons hFirst hRest ih =>
      rw [List.mapM_cons, hFirst, ih]
      rfl

/-- A list is read back if all its items are. -/
theorem gives_list {read : Document → Option α} {write : α → Document} {values : List α}
    (h : ∀ value ∈ values, Gives read (write value) value) :
    Gives (list? read) (.sequence (values.map write)) values := by
  intro document hCarries
  cases hCarries with
  | sequence hItems =>
      have hEach := (List.forall₂_and_left _ _).mpr ⟨h, List.forall₂_map_left_iff.mp hItems⟩
      exact mapM_eq_some (hEach.imp fun value item ⟨hGives, hItem⟩ => hGives item hItem)

theorem gives_texts (texts : List String) : Gives (list? text?) (ofTexts texts) texts :=
  gives_list fun text _ => gives_text text

/-- An entry of a mapping holds a member that was written. -/
def Holds (member : String × Document) (entry : Document × Document) : Prop :=
  entry.1.text? = some member.1 ∧ member.2.Carries entry.2

/-- Members that are carried are held under their names, in order. -/
theorem CarriesEntries.holds {members : List (String × Document)}
    {entries : List (Document × Document)}
    (h : CarriesEntries (members.map fun member => (ofText member.1, member.2)) entries) :
    List.Forall₂ Holds members entries := by
  induction members generalizing entries with
  | nil =>
      cases h
      exact .nil
  | cons member rest ih =>
      cases h with
      | cons hKey hValue hRest => exact .cons ⟨gives_text member.1 _ hKey, hValue⟩ (ih hRest)

/-- Members that are written for some items come back in any order of the items. -/
theorem holds_of_carries {items : List α} {member : α → String × Document} {document : Document}
    (h : (ofMembers (items.map member)).Carries document) :
    ∃ entries shuffled, document = .mapping entries ∧ shuffled.Perm items ∧
      List.Forall₂ (fun item entry => Holds (member item) entry) shuffled entries := by
  cases h with
  | @mapping _ _ entries hEntries hOrder =>
      have hItems := List.forall₂_map_left_iff.mp hEntries.holds
      obtain ⟨shuffled, hShuffled, hPerm⟩ := List.perm_comp_forall₂ hOrder.symm hItems.flip
      exact ⟨entries, shuffled, rfl, hPerm, hShuffled.flip⟩

/-- A table is read back if all its values are. -/
theorem gives_table {read : Document → Option α} {write : α → Document} {table : Table α}
    (h : ∀ entry ∈ table.entries, Gives read (write entry.2) entry.2) :
    Gives (table? read) (ofTable write table) table := by
  intro document hCarries
  obtain ⟨entries, shuffled, rfl, hPerm, hHolds⟩ := holds_of_carries hCarries
  have hGives : ∀ member ∈ shuffled, Gives read (write member.2) member.2 :=
    fun member hMem => h member (hPerm.mem_iff.mp hMem)
  have hEach := (List.forall₂_and_left _ _).mpr ⟨hGives, hHolds⟩
  rw [table?, mapM_eq_some (hEach.imp fun member entry ⟨hGives, hKey, hValue⟩ => ?_),
    Option.map_some, Table.ofList_of_perm hPerm]
  rw [hKey, Option.bind_some, hGives entry.2 hValue]
  rfl

namespace Fields

/-- Under each name there is a field that holds what was written there, or neither is there. -/
def CarriedBy (members fields : Fields) : Prop :=
  ∀ name, Option.Rel Carries (members.find? name) (fields.find? name)

/-- The entries of a mapping are read as fields that hold their members. -/
theorem exists_of_holds {members : Fields} {entries : List (Document × Document)}
    (h : List.Forall₂ Holds members entries) :
    ∃ fields : Fields,
      entries.mapM (fun entry : Document × Document => entry.1.text?.map (·, entry.2)) =
          some fields ∧
        fields.map Prod.fst = members.map Prod.fst ∧
        ∀ name, Option.Rel Carries (members.find? name) (fields.find? name) := by
  induction h with
  | nil => exact ⟨[], rfl, rfl, fun name => .none⟩
  | @cons member entry members entries hFirst _ ih =>
      obtain ⟨fields, hRead, hNames, hFields⟩ := ih
      refine ⟨(member.1, entry.2) :: fields, ?_, ?_, fun name => ?_⟩
      · rw [List.mapM_cons, hFirst.1, hRead]
        rfl
      · rw [List.map_cons, List.map_cons, hNames]
      · have hRest := hFields name
        simp only [find?_eq_findEntry, Table.findEntry] at hRest ⊢
        split
        · exact .some hFirst.2
        · exact hRest

end Fields

/-- What was written of a record can be read field by field. -/
theorem fields_of_carries (dialect : Dialect) {names : List String} {members : Fields}
    {document : Document} (hCarries : (ofMembers members).Carries document)
    (hNames : members.map Prod.fst ⊆ names) (hDistinct : (members.map Prod.fst).Nodup) :
    ∃ fields, document.fields? dialect names = some fields ∧ members.CarriedBy fields := by
  rw [← List.map_id members] at hCarries
  obtain ⟨entries, shuffled, rfl, hPerm, hHolds⟩ := holds_of_carries hCarries
  obtain ⟨fields, hRead, hSame, hFields⟩ := Fields.exists_of_holds hHolds
  have hShuffledNames := hPerm.map Prod.fst
  have hKnown : fields.filter (fun field => names.contains field.1) = fields := by
    refine List.filter_eq_self.mpr fun field hField => List.contains_iff_mem.mpr ?_
    have hName := List.mem_map_of_mem (f := Prod.fst) hField
    rw [hSame, hShuffledNames.mem_iff] at hName
    exact hNames hName
  refine ⟨fields, ?_, fun name => ?_⟩
  · rw [fields?, hRead]
    simp only [bind, Option.bind, hKnown]
    rw [if_pos (hSame ▸ hShuffledNames.nodup_iff.mpr hDistinct)]
  · have hFound := hFields name
    rwa [Fields.find?_eq_findEntry shuffled, Table.findEntry_perm hPerm hDistinct,
      ← Fields.find?_eq_findEntry members] at hFound

namespace Fields.CarriedBy

variable {members fields : Fields} {name : String} {written : Document}

/-- What a member holds is found in every document that carries it. -/
theorem found (h : members.CarriedBy fields) (hFound : members.find? name = some written) :
    ∃ document, fields.find? name = some document ∧ written.Carries document := by
  have hName := h name
  rw [hFound] at hName
  generalize fields.find? name = found at hName
  cases hName with
  | some hCarries => exact ⟨_, rfl, hCarries⟩

/-- What no member holds is not found there. -/
theorem missing (h : members.CarriedBy fields) (hMissing : members.find? name = none) :
    fields.find? name = none := by
  have hName := h name
  rw [hMissing] at hName
  generalize fields.find? name = found at hName
  cases hName
  rfl

/-- So a field that is required is read back. -/
theorem required (h : members.CarriedBy fields) (hFound : members.find? name = some written)
    {read : Document → Option α} {value : α} (hGives : Gives read written value) :
    fields.required name read = some value := by
  obtain ⟨document, hDocument, hCarries⟩ := h.found hFound
  rw [Fields.required, hDocument]
  exact hGives document hCarries

/-- So is a field with a default that was written. -/
theorem withDefault (h : members.CarriedBy fields) (hFound : members.find? name = some written)
    {read : Document → Option α} {value default : α} (hGives : Gives read written value) :
    fields.withDefault name default read = some value := by
  obtain ⟨document, hDocument, hCarries⟩ := h.found hFound
  rw [Fields.withDefault, hDocument]
  exact hGives document hCarries

/-- A member that is left out if its value is absent. -/
theorem optional (h : members.CarriedBy fields) {read : Document → Option α}
    {write : α → Document} {value : Option α} (hFound : members.find? name = value.map write)
    (hGives : ∀ a ∈ value, Gives read (write a) a) (hNull : ∀ a, (write a).NeverNull) :
    fields.optional name read = some value := by
  cases value with
  | none =>
      rw [Fields.optional, Fields.withDefault, h.missing hFound]
      rfl
  | some a =>
      refine h.withDefault hFound fun document hCarries => ?_
      rw [optional?, hNull a document hCarries, hGives a rfl document hCarries]
      rfl

/-- A member that is left out if its list is empty. -/
theorem texts (h : members.CarriedBy fields) {texts : List String}
    (hFound : members.find? name = if texts.isEmpty then none else some (ofTexts texts)) :
    fields.withDefault name [] (list? text?) = some texts := by
  cases texts with
  | nil =>
      rw [Fields.withDefault, h.missing hFound]
      rfl
  | cons text rest => exact h.withDefault hFound (gives_texts (text :: rest))

end Fields.CarriedBy

end Document

end DeploymentRouting
