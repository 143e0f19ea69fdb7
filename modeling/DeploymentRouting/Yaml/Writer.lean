import DeploymentRouting.Document.Scalar
import DeploymentRouting.Yaml.Characters
/-!
Documents as YAML text in block style. Mappings are indented by two spaces,
sequences not at all, and brackets stand for empty ones only. Text has no quotes as
long as it reads back as the same text without them.
-/
namespace DeploymentRouting.Yaml

/-- Whether plain text is, or may be taken for, anything but text. -/
def isAmbiguous (text : String) : Bool :=
  let plain := Scalar.plain text
  plain.isNull || plain.bool?.isSome || plain.integer?.isSome || plain.float?.isSome
    || Plain.isZeroPadded (match text.toList with
      | '+' :: rest | '-' :: rest => rest
      | rest => rest)

/-- Characters that show in a document as they are, all on one line. -/
def isSimple (c : Char) : Bool :=
  isPrintable c && !isBreak c && c != '\t' && c != '\r' && c.toNat != 0x85

/-- Whether a blank follows, or nothing. -/
def endsToken (rest : List Char) : Bool := rest.head?.all (· == ' ')

/-- Whether some text inside of a plain scalar would end it. -/
def breaksPlain : List Char → Bool
  | [] => false
  | c :: rest =>
      (c == ':' && endsToken rest) || (c == ' ' && rest.head? == some '#') || breaksPlain rest

/-- Whether text may begin a plain scalar. -/
def mayBeginPlain (text : List Char) : Bool :=
  match text with
  | [] => false
  | c :: rest =>
      if c == '-' then !endsToken rest && !(['-', '-'].isPrefixOf rest)
      else if c == '?' || c == ':' then !endsToken rest
      else !(['.', '.', '.'].isPrefixOf text)
        && !([',', '[', ']', '\x7b', '\x7d', '#', '&', '*', '!', '|', '>', '\'', '"', '%', '@',
          '\x60', ' '].contains c)

/-- Whether text reads back as it is without quotes. -/
def readsBackPlain (text : List Char) : Bool :=
  mayBeginPlain text && text.getLast? != some ' ' && text.all isSimple && !breaksPlain text

def singleQuoted (text : List Char) : List Char :=
  '\'' :: (text.flatMap fun c => if c == '\'' then ['\'', '\''] else [c]) ++ ['\'']

/-- An escape of a letter and as many hexadecimal digits as go with it. -/
def numberedEscape (c : Char) : List Char :=
  let digits := (Text.hexDigits c.toNat).map Char.toUpper
  let (letter, width) := (escapeWidth.find? (digits.length ≤ ·.2)).getD ('U', 8)
  '\\' :: letter :: List.replicate (width - digits.length) '0' ++ digits

/-- A character inside of double quotes. -/
def escapeChar (c : Char) : List Char :=
  if isSimple c && c != '"' && c != '\\' then [c]
  else match escapes.find? (·.2 == c.toNat) with
    | some (letter, _) => ['\\', letter]
    | none => numberedEscape c

def doubleQuoted (text : List Char) : List Char := '"' :: text.flatMap escapeChar ++ ['"']

def writeText (text : String) : String :=
  let characters := text.toList
  if readsBackPlain characters && !isAmbiguous text then text
  else if characters.all isSimple then String.ofList (singleQuoted characters)
  else String.ofList (doubleQuoted characters)

def writeScalar : Scalar → String
  | .plain text => text
  | .text text => writeText text
  | .null => "null"
  | .bool true => "true"
  | .bool false => "false"
  | .integer value => toString value
  | .float value => Decimal.document.write value

/-- The text of a key that needs no mark: a scalar of at most 128 bytes. -/
def shortKey? : Document → Option String
  | .scalar value => some (writeScalar value) |>.filter (·.utf8ByteSize ≤ 128)
  | _ => none

/-- The lines of a part of a document, with a mark before the first of them and as much space
before the others. -/
def hang (mark : String) : List String → List String
  | [] => []
  | first :: rest =>
      let space := String.ofList (List.replicate mark.length ' ')
      (mark ++ first) :: rest.map (space ++ ·)

mutual

/-- The lines of a document. -/
def writeLines : Document → List String
  | .scalar value => [writeScalar value]
  | .sequence [] => ["[]"]
  | .sequence (item :: rest) => hang "- " (writeLines item) ++ writeItems rest
  | .mapping [] => ["\x7b\x7d"]
  | .mapping (entry :: rest) => writeEntry entry ++ writeEntries rest

def writeItems : List Document → List String
  | [] => []
  | item :: rest => hang "- " (writeLines item) ++ writeItems rest

/-- The lines of an entry. A value without lines of its own follows its key, and a key that is
not short has a mark. -/
def writeEntry : Document × Document → List String
  | (key, value) =>
      match shortKey? key with
      | some name =>
          match value with
          | .sequence (_ :: _) => (name ++ ":") :: writeLines value
          | .mapping (_ :: _) => (name ++ ":") :: (writeLines value).map ("  " ++ ·)
          | _ => hang (name ++ ": ") (writeLines value)
      | none => hang "? " (writeLines key) ++ hang ": " (writeLines value)

def writeEntries : List (Document × Document) → List String
  | [] => []
  | entry :: rest => writeEntry entry ++ writeEntries rest

end

/-- The text of a document. Every line ends in a line feed. -/
def write (document : Document) : String :=
  String.join ((writeLines document).map (· ++ "\n"))

end DeploymentRouting.Yaml
