import DeploymentRouting.Document.Basic
import DeploymentRouting.Limits
import DeploymentRouting.Text.Digits
/-!
What a scalar stands for where a certain kind of value is expected. A plain scalar
is read by its text; the others must be of the kind that is expected, except that
a whole number will do for a floating-point number.
-/
namespace DeploymentRouting

namespace Plain

/-- Several decimal digits of which the first is a zero. They are not read as a number. -/
def isZeroPadded (digits : List Char) : Bool :=
  1 < digits.length && digits.head? == some '0' && digits.all Char.isDigit

/-- A whole number without a sign: hexadecimal, octal or binary after its mark, or decimal. -/
def magnitude? (text : List Char) : Option Nat :=
  match text with
  | '0' :: 'x' :: digits => Text.digits? 16 digits
  | '0' :: 'o' :: digits => Text.digits? 8 digits
  | '0' :: 'b' :: digits => Text.digits? 2 digits
  | digits => if isZeroPadded digits then none else Text.digits? 10 digits

/-- A whole number that is not negative. It may have a plus sign. -/
def natural? (text : String) : Option Nat :=
  match text.toList with
  | '+' :: rest => magnitude? rest
  | rest => magnitude? rest

def integer? (text : String) : Option Int :=
  match text.toList with
  | '-' :: rest => (magnitude? rest).map fun value => -(value : Int)
  | _ => (natural? text).map Int.ofNat

/-- The number of `units` times ten to the `exponent`. There is none if it is too large. -/
def finite? (units : Nat) (exponent : Int) : Option Float :=
  let size := exponent + (Nat.toDigits 10 units).length
  let number :=
    if units = 0 ∨ size < -400 then 0.0
    else if 400 < size then 1.0 / 0.0
    else Float.ofScientific units (exponent < 0) exponent.natAbs
  if number.isFinite then some number else none

/-- The exponent at the end of a decimal number, zero if there is none. -/
def exponent? : List Char → Option Int
  | [] => some 0
  | 'e' :: '-' :: digits | 'E' :: '-' :: digits =>
      (Text.digits? 10 digits).map fun value => -(value : Int)
  | 'e' :: '+' :: digits | 'E' :: '+' :: digits => (Text.digits? 10 digits).map Int.ofNat
  | 'e' :: digits | 'E' :: digits => (Text.digits? 10 digits).map Int.ofNat
  | _ => none

/-- A decimal number without a sign. It needs a digit before or after its point. -/
def decimal? (text : List Char) : Option Float := do
  let whole := text.takeWhile Char.isDigit
  let (fraction, rest) := match text.dropWhile Char.isDigit with
    | '.' :: rest => (rest.takeWhile Char.isDigit, rest.dropWhile Char.isDigit)
    | rest => ([], rest)
  let units ← Text.digits? 10 (whole ++ fraction)
  finite? units ((← exponent? rest) - fraction.length)

/-- The spellings of the numbers that are not finite. -/
def special? (text : String) : Option Float :=
  if [".inf", ".Inf", ".INF", "+.inf", "+.Inf", "+.INF"].contains text then some (1.0 / 0.0)
  else if ["-.inf", "-.Inf", "-.INF"].contains text then some (-1.0 / 0.0)
  else if [".nan", ".NaN", ".NAN"].contains text then some (0.0 / 0.0)
  else none

def float? (text : String) : Option Float :=
  (special? text).or (match text.toList with
    | '+' :: rest => decimal? rest
    | '-' :: rest => (decimal? rest).map (-·)
    | rest => decimal? rest)

end Plain

namespace Scalar

/-- Whether a value that may be absent is absent. -/
def isNull : Scalar → Bool
  | .null => true
  | .plain content => ["", "~", "null", "Null", "NULL"].contains content
  | _ => false

def text? : Scalar → Option String
  | .plain content | .text content => some content
  | _ => none

def bool? : Scalar → Option Bool
  | .bool value => some value
  | .plain content =>
      if ["true", "True", "TRUE"].contains content then some true
      else if ["false", "False", "FALSE"].contains content then some false
      else none
  | _ => none

def natural? : Scalar → Option Nat
  | .integer value => value.toNat?
  | .plain content => Plain.natural? content
  | _ => none

def integer? : Scalar → Option Int
  | .integer value => some value
  | .plain content => Plain.integer? content
  | _ => none

def float? : Scalar → Option Float
  | .float value => some value
  | .integer value =>
      some (if value < 0 then -(floatOfCount value.natAbs) else floatOfCount value.natAbs)
  | .plain content => Plain.float? content
  | _ => none

end Scalar

end DeploymentRouting
