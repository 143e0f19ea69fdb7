/-!
The shortest decimal of a binary floating-point number. A finite number other
than zero is m times a power of two, and the reals that round to it form an
interval. Its shortest decimal is a number of that interval with the fewest
digits and, of those, the one nearest to it. All arithmetic is on whole numbers.
-/
namespace DeploymentRouting.Decimal

/-- What a 64-bit floating-point number is. -/
inductive Binary64 where
  | nan
  | infinity (negative : Bool)
  /-- Plus or minus `mantissa` times two to the `exponent`. -/
  | finite (negative : Bool) (mantissa : Nat) (exponent : Int)
deriving DecidableEq, Repr

/-- The least power of two of a finite number. -/
def Binary64.leastExponent : Int := -1074

/-- The number of fractions that go with one exponent: two to the power of 52. -/
def Binary64.fractions : Nat := 4503599627370496

/-- Reads sign, exponent and fraction off the bits of a number. The exponent has eleven bits, and
the sign is the bit above them. -/
def Binary64.ofBits (bits : UInt64) : Binary64 :=
  let word := bits.toNat
  let negative := 2048 ≤ word / fractions
  let biased := word / fractions % 2048
  let fraction := word % fractions
  if biased = 2047 then
    if fraction = 0 then .infinity negative else .nan
  else if biased = 0 then .finite negative fraction leastExponent
  else .finite negative (fractions + fraction) (leastExponent + (biased - 1 : Nat))

/-- The number of decimal digits of a number, which is none for zero. -/
def digitCount (n : Nat) : Nat :=
  if n = 0 then 0 else digitCount (n / 10) + 1
termination_by n
decreasing_by omega

/-- A whole number of units of ten to the `exponent`. -/
structure Scaled where
  units : Nat
  exponent : Int
deriving DecidableEq, Repr

/-- The power of ten of the leading digit of a fraction of two positive numbers. -/
def leadingExponent (numerator denominator : Nat) : Int :=
  if denominator ≤ numerator then (digitCount (numerator / denominator) : Int) - 1
  else -(digitCount ((denominator - 1) / numerator) : Int)

/-- What becomes of a number that lies midway between two decimals of the shortest
length: the upper one, or the one with an even last digit. -/
inductive Tie where
  | up
  | toEven
deriving DecidableEq, Repr

/-- The reals that round to `mantissa` times two to the `exponent`, all in units of two
to the `exponent - 2`: the number itself, the lower and the upper end, and whether the ends
belong to them. The gap below a power of two is half of the gap above it. -/
structure Neighbourhood where
  centre : Nat
  lower : Nat
  upper : Nat
  closed : Bool
  exponent : Int

def neighbourhood (mantissa : Nat) (exponent : Int) : Neighbourhood :=
  let narrow := mantissa == Binary64.fractions && exponent != Binary64.leastExponent
  { centre := 4 * mantissa
    lower := 4 * mantissa - (if narrow then 1 else 2)
    upper := 4 * mantissa + 2
    closed := mantissa % 2 == 0
    exponent := exponent - 2 }

namespace Neighbourhood

/-- Ten to the power of `step` and two to the power of the neighbourhood, both cleared of
their denominators: the factors of a decimal and of a binary count of units. -/
def factors (range : Neighbourhood) (step : Int) : Nat × Nat :=
  (Nat.pow 10 step.toNat * Nat.pow 2 (-range.exponent).toNat,
    Nat.pow 2 range.exponent.toNat * Nat.pow 10 (-step).toNat)

/-- Whether `units` times ten to the `step` rounds to the centre. -/
def holds (range : Neighbourhood) (step : Int) (units : Nat) : Bool :=
  let (decimal, binary) := range.factors step
  let value := units * decimal
  let least := range.lower * binary
  let greatest := range.upper * binary
  (least < value && value < greatest) || (range.closed && (value == least || value == greatest))

/-- The decimal of a given step that rounds to the centre, if there is one. Only the two
neighbours of the centre on that grid need a look. -/
def onGrid? (range : Neighbourhood) (tie : Tie) (step : Int) : Option Scaled :=
  let (decimal, binary) := range.factors step
  let centre := range.centre * binary
  let below := centre / decimal
  let twice := 2 * (centre % decimal)
  let chosen :=
    match range.holds step below, range.holds step (below + 1) with
    | true, false => some below
    | false, true => some (below + 1)
    | false, false => none
    | true, true =>
        if twice < decimal then some below
        else if decimal < twice then some (below + 1)
        else match tie with
          | .up => some (below + 1)
          | .toEven => some (below + below % 2)
  chosen.map fun units => ⟨units, step⟩

/-- The first grid with a decimal, from `digits` digits on. Seventeen digits always do. -/
def search (range : Neighbourhood) (tie : Tie) (leading : Int) : Nat → Nat → Option Scaled
  | 0, _ => none
  | fuel + 1, digits =>
      match range.onGrid? tie (leading - digits + 1) with
      | some found => some found
      | none => search range tie leading fuel (digits + 1)

end Neighbourhood

/-- Drops the zeros at the end of a decimal into its exponent. -/
def Scaled.strip (value : Scaled) : Scaled :=
  if value.units ≠ 0 ∧ value.units % 10 = 0 then
    strip ⟨value.units / 10, value.exponent + 1⟩
  else value
termination_by value.units
decreasing_by omega

/-- The shortest decimal of `mantissa` times two to the `exponent`. -/
def shortest (tie : Tie) (mantissa : Nat) (exponent : Int) : Scaled :=
  if mantissa = 0 then ⟨0, 0⟩
  else
    let range := neighbourhood mantissa exponent
    let (decimal, binary) := range.factors 0
    let leading := leadingExponent (range.centre * binary) decimal
    ((range.search tie leading 18 1).getD ⟨0, 0⟩).strip

end DeploymentRouting.Decimal
