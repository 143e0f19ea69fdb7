import DeploymentRouting.Json.Basic
import DeploymentRouting.Text.Digits
import DeploymentRouting.Time
/-!
Reading JSON text. A number without point and exponent is a whole number as long
as it fits into 64 bits, and every other number is a floating-point number. Its
digits are gathered into a 64-bit significand for as long as they fit, and the
significand is multiplied or divided by a power of ten, in floating point.
-/
namespace DeploymentRouting.Json

/-- Blanks between the tokens of JSON. -/
def isGap (c : Char) : Bool := c == ' ' || c == '\t' || c == '\n' || c == '\r'

def skipGap (text : List Char) : List Char := text.dropWhile isGap

/-- Leading digits of a significand that fit into 64 bits, and the number of digits that
came after them. -/
structure Significand where
  value : Nat
  dropped : Nat

/-- Adds the digits before the point. From the first digit that does not fit on, digits
are counted and not added. -/
def Significand.ofWhole (digits : List Char) : Significand :=
  digits.foldl (fun sum digit =>
    let next := sum.value * 10 + (digit.toNat - '0'.toNat)
    if sum.dropped = 0 ∧ next ≤ Counter.top64 then { sum with value := next }
    else { sum with dropped := sum.dropped + 1 }) ⟨0, 0⟩

/-- Adds digits after the point and counts those that were added. From the first digit
that does not fit on, digits have no effect. -/
def addFraction (value count : Nat) : List Char → Nat × Nat
  | [] => (value, count)
  | digit :: rest =>
      let next := value * 10 + (digit.toNat - '0'.toNat)
      if next ≤ Counter.top64 then addFraction next (count + 1) rest else (value, count)

/-- A floating-point number times ten to the `exponent`. There is none when it is too
large. -/
def scaleByTen (number : Float) (exponent : Int) : Option Float :=
  if exponent.natAbs ≤ 308 then
    let power := Float.ofScientific 1 false exponent.natAbs
    if 0 ≤ exponent then
      let product := number * power
      if product.isInf then none else some product
    else some (number / power)
  else if number == 0.0 then some number
  else if 0 ≤ exponent then none
  else scaleByTen (number / Float.ofScientific 1 false 308) (exponent + 308)
termination_by (-exponent).toNat
decreasing_by omega

def takeDigits (text : List Char) : List Char × List Char :=
  (text.takeWhile Char.isDigit, text.dropWhile Char.isDigit)

def digitsValue (digits : List Char) : Nat :=
  digits.foldl (fun sum digit => sum * 10 + (digit.toNat - '0'.toNat)) 0

/-- The power of ten after an exponent mark, which needs a digit. -/
def readExponent (text : List Char) : Option (Int × List Char) :=
  let (negative, text) := match text with
    | '-' :: rest => (true, rest)
    | '+' :: rest => (false, rest)
    | rest => (false, rest)
  match takeDigits text with
  | ([], _) => none
  | (digits, rest) =>
      let size : Int := digitsValue digits
      some (if negative then -size else size, rest)

/-- A number without its sign. -/
def readMagnitude (negative : Bool) (text : List Char) : Option (Json × List Char) := do
  let (digits, rest) := takeDigits text
  if digits.isEmpty ∨ (digits.length > 1 ∧ digits.head? = some '0') then failure
  let whole := Significand.ofWhole digits
  let (fraction, rest) ← match rest with
    | '.' :: rest =>
        match takeDigits rest with
        | ([], _) => failure
        | (digits, rest) => pure (some digits, rest)
    | rest => pure (none, rest)
  let (power, rest) ← match rest with
    | 'e' :: rest | 'E' :: rest => do
        let (power, rest) ← readExponent rest
        pure (some power, rest)
    | rest => pure (none, rest)
  let sign (number : Float) : Float := if negative then -number else number
  if fraction.isNone ∧ power.isNone ∧ whole.dropped = 0 then
    if !negative then return (.integer whole.value, rest)
    else if whole.value = 0 ∨ 9223372036854775808 < whole.value then
      return (.float (-(whole.value.toUInt64.toFloat)), rest)
    else return (.integer (-whole.value), rest)
  else
    let (value, places) := addFraction whole.value 0 (fraction.getD [])
    let exponent : Int := whole.dropped - places + power.getD 0
    let number ← scaleByTen value.toUInt64.toFloat exponent
    return (.float (sign number), rest)

/-- A unit of four hexadecimal digits. -/
def readUnit : List Char → Option (Nat × List Char)
  | a :: b :: c :: d :: rest => do
      let high := ((← Text.hexValue? a) * 16 + (← Text.hexValue? b)) * 16 + (← Text.hexValue? c)
      return (high * 16 + (← Text.hexValue? d), rest)
  | _ => none

/-- The character after the mark of a numbered escape. A character beyond the first plane is
written as two units, and half of such a pair alone is refused. -/
def readNumberedEscape (text : List Char) : Option (Char × List Char) := do
  let (unit, rest) ← readUnit text
  if 0xD800 ≤ unit ∧ unit ≤ 0xDBFF then
    match rest with
    | '\\' :: 'u' :: rest =>
        let (low, rest) ← readUnit rest
        if 0xDC00 ≤ low ∧ low ≤ 0xDFFF then
          return (Char.ofNat (0x10000 + (unit - 0xD800) * 0x400 + (low - 0xDC00)), rest)
        else failure
    | _ => failure
  else if 0xDC00 ≤ unit ∧ unit ≤ 0xDFFF then failure
  else return (Char.ofNat unit, rest)

/-- The characters of a string up to its closing quote. -/
def readCharacters : Nat → List Char → List Char → Option (List Char × List Char)
  | 0, _, _ => none
  | fuel + 1, done, text =>
      match text with
      | [] => none
      | '"' :: rest => some (done.reverse, rest)
      | '\\' :: 'u' :: rest => do
          let (c, rest) ← readNumberedEscape rest
          readCharacters fuel (c :: done) rest
      | '\\' :: mark :: rest => do
          let c ← match mark with
            | '"' => some '"'
            | '\\' => some '\\'
            | '/' => some '/'
            | 'b' => some '\x08'
            | 'f' => some '\x0c'
            | 'n' => some '\n'
            | 'r' => some '\r'
            | 't' => some '\t'
            | _ => none
          readCharacters fuel (c :: done) rest
      | c :: rest => if c.toNat < 0x20 then none else readCharacters fuel (c :: done) rest

/-- A string after its opening quote. -/
def readString (fuel : Nat) (text : List Char) : Option (String × List Char) :=
  (readCharacters fuel [] text).map fun (characters, rest) => (String.ofList characters, rest)

mutual

/-- A value at the start of the text, and the text after it. -/
def readValue : Nat → List Char → Option (Json × List Char)
  | 0, _ => none
  | fuel + 1, text =>
      match skipGap text with
      | 'n' :: 'u' :: 'l' :: 'l' :: rest => some (.null, rest)
      | 't' :: 'r' :: 'u' :: 'e' :: rest => some (.bool true, rest)
      | 'f' :: 'a' :: 'l' :: 's' :: 'e' :: rest => some (.bool false, rest)
      | '"' :: rest => (readString fuel rest).map fun (value, rest) => (.string value, rest)
      | '[' :: rest =>
          match skipGap rest with
          | ']' :: rest => some (.array [], rest)
          | rest => (readItems fuel [] rest).map fun (items, rest) => (.array items, rest)
      | '\x7b' :: rest =>
          match skipGap rest with
          | '\x7d' :: rest => some (.object [], rest)
          | rest => (readMembers fuel [] rest).map fun (members, rest) => (ofMembers members, rest)
      | '-' :: rest => readMagnitude true rest
      | rest => readMagnitude false rest

/-- The items of an array up to its closing bracket. -/
def readItems : Nat → List Json → List Char → Option (List Json × List Char)
  | 0, _, _ => none
  | fuel + 1, done, text => do
      let (item, rest) ← readValue fuel text
      match skipGap rest with
      | ',' :: rest => readItems fuel (item :: done) rest
      | ']' :: rest => some ((item :: done).reverse, rest)
      | _ => none

/-- The members of an object up to its closing brace. -/
def readMembers : Nat → List (String × Json) → List Char →
    Option (List (String × Json) × List Char)
  | 0, _, _ => none
  | fuel + 1, done, text =>
      match skipGap text with
      | '"' :: rest => do
          let (name, rest) ← readString fuel rest
          match skipGap rest with
          | ':' :: rest => do
              let (value, rest) ← readValue fuel rest
              match skipGap rest with
              | ',' :: rest => readMembers fuel ((name, value) :: done) rest
              | '\x7d' :: rest => some (((name, value) :: done).reverse, rest)
              | _ => none
          | _ => none
      | _ => none

end

/-- The value that a text is, with nothing but blanks around it. Reading takes at most two
steps for each character. -/
def parse? (text : String) : Option Json := do
  let characters := text.toList
  let (value, rest) ← readValue (2 * characters.length + 2) characters
  if (skipGap rest).isEmpty then some value else none

end DeploymentRouting.Json
