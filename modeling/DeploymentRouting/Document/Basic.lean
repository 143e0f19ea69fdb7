import DeploymentRouting.Json.Basic
/-!
The tree that a configuration document holds, whatever notation it is written in.
Its leaves are scalars. A plain scalar is text without quotes, and what it stands
for depends on what is expected in its place; every other scalar says itself what
it is.
-/
namespace DeploymentRouting

inductive Scalar where
  | plain (text : String)
  /-- Text that cannot be taken for anything else. -/
  | text (text : String)
  | null
  | bool (value : Bool)
  | integer (value : Int)
  | float (value : Float)

inductive Document where
  | scalar (value : Scalar)
  | sequence (items : List Document)
  /-- Entries in the order of the document. A key may come more than once. -/
  | mapping (entries : List (Document × Document))
deriving Inhabited

namespace Document

def ofText (text : String) : Document := .scalar (.text text)

def ofBool (value : Bool) : Document := .scalar (.bool value)

def ofNat (value : Nat) : Document := .scalar (.integer value)

def ofInt (value : Int) : Document := .scalar (.integer value)

def ofFloat (value : Float) : Document := .scalar (.float value)

/-- The sequence of some texts. -/
def ofTexts (texts : List String) : Document := .sequence (texts.map ofText)

/-- The mapping of a list of named members. -/
def ofMembers (members : List (String × Document)) : Document :=
  .mapping (members.map fun member => (ofText member.1, member.2))

/-- The mapping of a table, in the order of its names. -/
def ofTable {α : Type} (write : α → Document) (table : Table α) : Document :=
  ofMembers (table.entries.map fun entry => (entry.1, write entry.2))

mutual

/-- The tree of a JSON value. Its strings are never anything but text. -/
def ofJson : Json → Document
  | .null => .scalar .null
  | .bool value => .scalar (.bool value)
  | .integer value => .scalar (.integer value)
  | .float value => .scalar (.float value)
  | .string value => .scalar (.text value)
  | .array items => .sequence (ofJsonItems items)
  | .object members => .mapping (ofJsonMembers members)

def ofJsonItems : List Json → List Document
  | [] => []
  | item :: rest => ofJson item :: ofJsonItems rest

def ofJsonMembers : List (String × Json) → List (Document × Document)
  | [] => []
  | (name, value) :: rest => (ofText name, ofJson value) :: ofJsonMembers rest

end

end Document

end DeploymentRouting
