import DeploymentRouting.Time
/-!
Random choices from a list of 64-bit words. The list is drawn from its head, and
zeros follow its last word, so that every draw comes to an end.
-/
namespace DeploymentRouting

structure RandomSource where
  words : List UInt64 := []
  /-- Words drawn so far. -/
  drawn : Nat := 0
deriving DecidableEq, Repr, Inhabited

namespace RandomSource

/-- The greatest low half of a product that is accepted when an index below `count` is drawn:
`count` moved up to the highest bit, less one. It makes all indices equally likely. -/
def zone (count : Nat) : Nat := Counter.wrap64 (count <<< (63 - count.log2)) - 1

/-- An index below `count`: the upper half of the product of a word with the count. A word whose
lower half is outside the zone is drawn again. -/
def index (count : Nat) : List UInt64 → Nat → Nat × RandomSource
  | [], drawn => (0, ⟨[], drawn + 1⟩)
  | word :: rest, drawn =>
      let product := word.toNat * count
      if Counter.wrap64 product ≤ zone count then
        (product / (Counter.top64 + 1), ⟨rest, drawn + 1⟩)
      else index count rest (drawn + 1)

/-- The upper 52 bits of a word as a number from zero up to but not one. -/
def unit (word : UInt64) : Float := (word >>> 12).toFloat / 4503599627370496.0

/-- A point from zero up to but not `total`: a number below one times the total. A product that
is rounded up to the total is drawn again. -/
def point (total : Float) : List UInt64 → Nat → Float × RandomSource
  | [], drawn => (0.0, ⟨[], drawn + 1⟩)
  | word :: rest, drawn =>
      let product := unit word * total
      if product < total then (product, ⟨rest, drawn + 1⟩) else point total rest (drawn + 1)

def drawIndex (source : RandomSource) (count : Nat) : Nat × RandomSource :=
  index count source.words source.drawn

def drawPoint (source : RandomSource) (total : Float) : Float × RandomSource :=
  point total source.words source.drawn

end RandomSource

end DeploymentRouting
