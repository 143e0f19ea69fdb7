import DeploymentRouting.Document.Scalar
/-!
Reading typed values out of a document. A reader takes a document and says which
value it is, or that it is none. Records are read by the names of their fields:
a field that is known may come once, and fields that are not known are passed over.
-/
namespace DeploymentRouting

universe u

/-- What a notation allows in a document besides the usual forms. -/
structure Dialect where
  /-- A record may be a sequence of its fields in their order; those at the end may be missing. -/
  sequenceRecords : Bool
  /-- A name out of a fixed list may stand as the only key of a mapping, with nothing as its
  value. -/
  mappingChoices : Bool

namespace Dialect

def json : Dialect := ⟨true, true⟩

def yaml : Dialect := ⟨false, false⟩

end Dialect

namespace Document

def scalar? : Document → Option Scalar
  | .scalar value => some value
  | _ => none

def isNull (document : Document) : Bool := document.scalar?.any Scalar.isNull

/-- A plain scalar without any text stands for an empty sequence, mapping or record as well. -/
def isBlank : Document → Bool
  | .scalar (.plain text) => text.isEmpty
  | _ => false

def text? (document : Document) : Option String := document.scalar?.bind Scalar.text?

def bool? (document : Document) : Option Bool := document.scalar?.bind Scalar.bool?

/-- A whole number from zero to a greatest one. -/
def natural? (most : Nat) (document : Document) : Option Nat :=
  (document.scalar?.bind Scalar.natural?).filter (· ≤ most)

/-- A whole number of 64 bits with a sign. -/
def integer? (document : Document) : Option Int :=
  (document.scalar?.bind Scalar.integer?).filter fun value =>
    -9223372036854775808 ≤ value && value ≤ 9223372036854775807

def float? (document : Document) : Option Float := document.scalar?.bind Scalar.float?

section

variable {α : Type u}

/-- A value that may be absent. -/
def optional? (read : Document → Option α) (document : Document) : Option (Option α) :=
  if document.isNull then some none else (read document).map some

def list? (read : Document → Option α) (document : Document) : Option (List α) :=
  match document with
  | .sequence items => items.mapM read
  | _ => if document.isBlank then some [] else none

/-- A table. All values of a name are read, and the last of them stays. -/
def table? (read : Document → Option α) (document : Document) : Option (Table α) :=
  match document with
  | .mapping entries =>
      (entries.mapM fun entry : Document × Document =>
        entry.1.text?.bind fun key => (read entry.2).map (key, ·)).map Table.ofList
  | _ => if document.isBlank then some ∅ else none

/-- One of a fixed list of names. -/
def choice? (dialect : Dialect) (ofName? : String → Option α) : Document → Option α
  | .mapping [(key, .scalar .null)] =>
      if dialect.mappingChoices then key.text?.bind ofName? else none
  | document => document.text?.bind ofName?

end

/-- The fields of a record that are there. -/
abbrev Fields := List (String × Document)

/-- The fields of a record with these names. -/
def fields? (dialect : Dialect) (names : List String) (document : Document) : Option Fields :=
  match document with
  | .mapping entries => do
      let fields ← entries.mapM fun entry : Document × Document => entry.1.text?.map (·, entry.2)
      let known := fields.filter fun field => names.contains field.1
      if (known.map Prod.fst).Nodup then some known else none
  | .sequence items =>
      if dialect.sequenceRecords && items.length ≤ names.length then some (names.zip items)
      else none
  | .scalar _ => if document.isBlank then some [] else none

namespace Fields

variable {α : Type u}

def find? (fields : Fields) (name : String) : Option Document :=
  (List.find? (fun field => field.1 == name) fields).map Prod.snd

/-- A field that has to be there. -/
def required (fields : Fields) (name : String) (read : Document → Option α) : Option α :=
  (fields.find? name).bind read

/-- A field, or a value in its place if it is not there. -/
def withDefault (fields : Fields) (name : String) (default : α) (read : Document → Option α) :
    Option α :=
  (fields.find? name).elim (some default) read

/-- A field that may be absent. -/
def optional (fields : Fields) (name : String) (read : Document → Option α) : Option (Option α) :=
  fields.withDefault name none (optional? read)

end Fields

end Document

end DeploymentRouting
