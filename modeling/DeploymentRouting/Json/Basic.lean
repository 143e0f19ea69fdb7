import DeploymentRouting.Decimal.Style
import DeploymentRouting.Table
/-!
JSON values and their compact text. Whole numbers and floating-point numbers are
told apart, since they are written differently. The members of an object stand in
the order of their names, each name once.
-/
namespace DeploymentRouting

inductive Json where
  | null
  | bool (value : Bool)
  | integer (value : Int)
  | float (value : Float)
  | string (value : String)
  | array (items : List Json)
  | object (members : List (String × Json))
deriving Inhabited

namespace Json

/-- The object of a list of members. Of two members with one name the later stays. -/
def ofMembers (members : List (String × Json)) : Json :=
  .object (Table.ofList members).entries

/-- The member of an object. Other values have none. -/
def member? (value : Json) (name : String) : Option Json :=
  match value with
  | .object members => Table.findEntry name members
  | _ => none

/-- A character inside a JSON string. -/
def escapeChar (c : Char) : List Char :=
  match c with
  | '"' => ['\\', '"']
  | '\\' => ['\\', '\\']
  | '\n' => ['\\', 'n']
  | '\r' => ['\\', 'r']
  | '\t' => ['\\', 't']
  | '\x08' => ['\\', 'b']
  | '\x0c' => ['\\', 'f']
  | c =>
      if c.toNat < 0x20 then
        let digits := Nat.toDigits 16 c.toNat
        ['\\', 'u'] ++ List.replicate (4 - digits.length) '0' ++ digits
      else [c]

def writeString (text : String) : String :=
  String.ofList ('"' :: (text.toList.flatMap escapeChar ++ ['"']))

mutual

/-- The text of a value without any white space. An infinite number, or one that is none,
is written as null. -/
def write : Json → String
  | .null => "null"
  | .bool true => "true"
  | .bool false => "false"
  | .integer value => toString value
  | .float value => if value.isFinite then Decimal.json.write value else "null"
  | .string value => writeString value
  | .array [] => "[]"
  | .array (first :: rest) => "[" ++ write first ++ writeItems rest ++ "]"
  | .object [] => "\x7b\x7d"
  | .object (first :: rest) => "\x7b" ++ writeMember first ++ writeMembers rest ++ "\x7d"

/-- Further items of an array, each after a comma. -/
def writeItems : List Json → String
  | [] => ""
  | item :: rest => "," ++ write item ++ writeItems rest

def writeMember : String × Json → String
  | (name, value) => writeString name ++ ":" ++ write value

/-- Further members of an object, each after a comma. -/
def writeMembers : List (String × Json) → String
  | [] => ""
  | member :: rest => "," ++ writeMember member ++ writeMembers rest

end

/-- The number of bytes of the compact text in UTF-8. -/
def size (value : Json) : Nat := value.write.utf8ByteSize

end Json

end DeploymentRouting
