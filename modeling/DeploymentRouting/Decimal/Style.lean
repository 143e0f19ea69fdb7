import DeploymentRouting.Decimal.Shortest
/-!
The written form of floating-point numbers. The digits are always the shortest
ones; a style says where the point stands, when an exponent is written, and how
whole numbers, infinities and the number that is none look. The library writes
numbers in three styles: for messages, for documents and for JSON.
-/
namespace DeploymentRouting.Decimal

structure Style where
  tie : Tie
  /-- Whether a number with its point after that many digits is written without exponent.
  The point of 12.5 stands after two digits, that of 0.05 before one zero, at minus one. -/
  positional : Int → Bool
  /-- What stands before an exponent that is not negative. -/
  plus : String
  /-- What follows the digits of a whole number. -/
  whole : String
  nan : String
  infinity : String

/-- Numbers in messages never have an exponent, and a whole number has no point. -/
def message : Style where
  tie := .up
  positional := fun _ => true
  plus := ""
  whole := ""
  nan := "NaN"
  infinity := "inf"

/-- Numbers in documents have an exponent from 1e16 on and below 1e-5, and a whole number
without one ends in a point and a zero. -/
def document : Style where
  tie := .toEven
  positional := fun point => -5 < point && point ≤ 16
  plus := ""
  whole := ".0"
  nan := ".nan"
  infinity := ".inf"

/-- Numbers in JSON are written as in documents, but for a plus sign before an exponent that is not
negative, and but for those that are not finite. -/
def json : Style :=
  { document with
    plus := "+"
    nan := "null"
    infinity := "null" }

def zeros (count : Nat) : List Char := List.replicate count '0'

/-- Writes a decimal with its point at its place. -/
def Style.fixed (style : Style) (digits : List Char) (point : Int) : String :=
  if point ≤ 0 then String.ofList ('0' :: '.' :: zeros (-point).toNat ++ digits)
  else if digits.length ≤ point.toNat then
    String.ofList (digits ++ zeros (point.toNat - digits.length)) ++ style.whole
  else String.ofList (digits.take point.toNat ++ '.' :: digits.drop point.toNat)

/-- Writes a decimal with one digit before its point and a power of ten. -/
def Style.scientific (style : Style) (digits : List Char) (point : Int) : String :=
  let mantissa := match digits with
    | first :: second :: rest => first :: '.' :: second :: rest
    | few => few
  let exponent := point - 1
  String.ofList mantissa ++ "e" ++ (if 0 ≤ exponent then style.plus else "") ++ toString exponent

def Style.magnitude (style : Style) (mantissa : Nat) (exponent : Int) : String :=
  if mantissa = 0 then "0" ++ style.whole
  else
    let value := shortest style.tie mantissa exponent
    let digits := Nat.toDigits 10 value.units
    let point := value.exponent + digits.length
    if style.positional point then style.fixed digits point else style.scientific digits point

/-- The text of a number. -/
def Style.write (style : Style) (number : Float) : String :=
  match Binary64.ofBits number.toBits with
  | .nan => style.nan
  | .infinity negative => (if negative then "-" else "") ++ style.infinity
  | .finite negative mantissa exponent =>
      (if negative then "-" else "") ++ style.magnitude mantissa exponent

end DeploymentRouting.Decimal
