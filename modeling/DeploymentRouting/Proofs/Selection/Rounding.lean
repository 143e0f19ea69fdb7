import DeploymentRouting.Selection
import Mathlib
/-!
Bounds on sums and quotients of floats. Where a bound is itself a float, rounding never goes beyond
it. So sums of floats that are small enough stay finite however many of them there are, as long as
their count is a float as well.
-/
namespace DeploymentRouting.Rounding

open Float.Model UnpackedFloat

/-! ## Bits -/

/-- The sign that is packed is the one that is read back. -/
theorem unpackSign_packComponents {spec : Format} {sign : Sign}
    {exponent : BitVec spec.exponentBits} {mantissa : BitVec spec.mantissaBitsWithoutImplicit} :
    unpackSign (packComponents spec sign exponent mantissa) = sign.toBitVec := by
  apply BitVec.eq_of_getLsbD_eq
  intro bit hBit
  obtain rfl : bit = 0 := Nat.lt_one_iff.mp hBit
  simp [unpackSign, packComponents, BitVec.getLsbD_append, BitVec.getElem_append]

theorem ofBitVec_toBitVec (sign : Sign) : Sign.ofBitVec sign.toBitVec = sign := by
  cases sign <;> rfl

/-- Infinity is read back as infinity. -/
theorem unpack_packedInfinity (sign : Sign) :
    UnpackedFloat.unpack .binary64 (packedInfinity .binary64 sign) = .infinity sign := by
  unfold UnpackedFloat.unpack packedInfinity
  simp only [unpackExponent_packComponents, unpackMantissa_packComponents,
    unpackSign_packComponents, ofBitVec_toBitVec]
  rfl

/-- The mantissa with the bit that is not stored. -/
theorem toNat_leading (mantissa : BitVec 52) :
    (1#1 ++ mantissa).toNat = 2 ^ 52 + mantissa.toNat := by
  rw [BitVec.toNat_append, ← Nat.shiftLeft_add_eq_or_of_lt mantissa.isLt]
  rfl

/-- What stands in the bits of a float that is finite. -/
theorem unpack_packComponents (sign : Sign) {exponent : BitVec 11} (mantissa : BitVec 52)
    (hExponent : exponent ≠ -1#11) :
    let unpacked := UnpackedFloat.unpack .binary64
      (packComponents .binary64 sign exponent mantissa)
    exponent = 0#11 ∧
        (unpacked = .zero sign ∨ ∃ h, unpacked = .finite sign mantissa.toNat (-1074) h) ∨
      exponent ≠ 0#11 ∧
        ∃ h, unpacked = .finite sign (2 ^ 52 + mantissa.toNat) (exponent.toNat - 1075) h := by
  unfold UnpackedFloat.unpack
  simp only [unpackExponent_packComponents, unpackMantissa_packComponents,
    unpackSign_packComponents, ofBitVec_toBitVec]
  rw [if_neg hExponent]
  split
  next hZero =>
    subst hZero
    split
    next => exact .inl ⟨rfl, .inl rfl⟩
    next hMantissa =>
      have hPositive : 0 < mantissa.toNat :=
        Nat.pos_of_ne_zero fun hNone => hMantissa (BitVec.eq_of_toNat_eq hNone)
      exact .inl ⟨rfl, .inr ⟨hPositive, rfl⟩⟩
  next hNormal =>
    exact .inr ⟨hNormal, Nat.add_pos_left (Nat.two_pow_pos 52) _,
      (finite.injEq ..).mpr ⟨rfl, toNat_leading mantissa, rfl⟩⟩

/-- The exponent of a float that is not too great fits into its bits, and it is told apart there
from that of a float without an exponent of its own and from infinity. -/
theorem toNat_biased {exponent : Int} (hLow : -1074 ≤ exponent) (hHigh : exponent ≤ 971) :
    (BitVec.ofNat 11 (exponent + 1075).toNat).toNat = (exponent + 1075).toNat ∧
      BitVec.ofNat 11 (exponent + 1075).toNat ≠ 0#11 ∧
      BitVec.ofNat 11 (exponent + 1075).toNat ≠ -1#11 := by
  have hFits : (exponent + 1075).toNat < 2047 := by omega
  have hBiased : (BitVec.ofNat 11 (exponent + 1075).toNat).toNat = (exponent + 1075).toNat :=
    Nat.mod_eq_of_lt (hFits.trans (by decide))
  refine ⟨hBiased, fun hZero => ?_, fun hAll => ?_⟩
  · have hZero := congrArg BitVec.toNat hZero
    rw [hBiased, BitVec.toNat_ofNat] at hZero
    omega
  · have hAll := congrArg BitVec.toNat hAll
    rw [hBiased] at hAll
    exact hFits.ne hAll

/-- A mantissa of full length comes back with its exponent. -/
theorem unpack_normal (sign : Sign) {mantissa : Nat} {exponent : Int} (h : 0 < mantissa)
    (hBits : mantissa.log2 = 52) (hLow : -1074 ≤ exponent) (hHigh : exponent ≤ 971) :
    UnpackedFloat.unpack .binary64 (packComponents .binary64 sign
      (BitVec.ofNat 11 (exponent + 1075).toNat) (BitVec.ofNat 52 mantissa)) =
      .finite sign mantissa exponent h := by
  obtain ⟨hBiased, hZero, hInfinite⟩ := toNat_biased hLow hHigh
  obtain ⟨hLeast, hBelow⟩ := (Nat.log2_eq_iff (Nat.ne_of_gt h)).mp hBits
  have hMantissa : 2 ^ 52 + (BitVec.ofNat 52 mantissa).toNat = mantissa := by
    rw [BitVec.toNat_ofNat]
    omega
  rcases unpack_packComponents sign (BitVec.ofNat 52 mantissa) hInfinite with
    ⟨hNone, _⟩ | ⟨_, _, hFinite⟩
  · exact absurd hNone hZero
  · rw [hFinite, finite.injEq]
    exact ⟨rfl, hMantissa, by omega⟩

/-- A float that was put into bits and read from them. -/
def stored (unpacked : UnpackedFloat) : UnpackedFloat :=
  UnpackedFloat.unpack .binary64 (UnpackedFloat.pack .binary64 unpacked)

/-- One that is too great becomes infinite, and one whose mantissa is too short for its exponent
loses the exponent. -/
theorem stored_finite (sign : Sign) {mantissa : Nat} {exponent : Int} (h : 0 < mantissa)
    (hLow : -1074 ≤ exponent) :
    let unpacked := stored (.finite sign mantissa exponent h)
    972 ≤ exponent ∧ unpacked = .infinity sign ∨
      mantissa.log2 = 52 ∧ unpacked = .finite sign mantissa exponent h ∨
      mantissa.log2 ≠ 52 ∧
        (unpacked = .zero sign ∨ ∃ less h, less ≤ mantissa ∧
          unpacked = .finite sign less (-1074) h) := by
  have hBias : (exponent + (Format.binary64.exponentBias : Int) +
      (Format.binary64.mantissaBitsWithoutImplicit : Int)).toNat = (exponent + 1075).toNat := by
    change (exponent + 1023 + 52).toNat = _
    omega
  simp only [stored, UnpackedFloat.pack, hBias]
  split
  next hHigh =>
    change 2048 ≤ _ at hHigh
    exact .inl ⟨by omega, unpack_packedInfinity sign⟩
  next hHigh =>
    change ¬2048 ≤ _ at hHigh
    right
    split
    next hBits =>
      have hBits : mantissa.log2 = 52 := Nat.succ.inj hBits
      exact .inl ⟨hBits, unpack_normal sign h hBits hLow (by omega)⟩
    next hBits =>
      have hBits : mantissa.log2 ≠ 52 := fun hFull => hBits (congrArg Nat.succ hFull)
      rcases unpack_packComponents sign (BitVec.ofNat 52 mantissa) (by decide : 0#11 ≠ -1#11) with
        ⟨_, hZero | ⟨hPositive, hFinite⟩⟩ | ⟨hNormal, _⟩
      · exact .inr ⟨hBits, .inl hZero⟩
      · exact .inr ⟨hBits, .inr ⟨_, hPositive, Nat.mod_le _ _, hFinite⟩⟩
      · exact absurd rfl hNormal

/-! ## Floats with bounds -/

/-- A number that is not below zero, or infinitely above it. -/
def NotNegative : UnpackedFloat → Prop
  | .notANumber => False
  | .infinity sign => sign = .positive
  | .zero _ => True
  | .finite sign _ exponent _ => sign = .positive ∧ -1074 ≤ exponent

/-- A number from zero to a multiple of `2 ^ 970`. -/
def UpTo (count : Nat) : UnpackedFloat → Prop
  | .notANumber => False
  | .infinity _ => False
  | .zero _ => True
  | .finite sign mantissa exponent _ =>
      sign = .positive ∧ -1074 ≤ exponent ∧ exponent ≤ 970 ∧
        mantissa ≤ count * 2 ^ (970 - exponent).toNat

/-- A number from one on, or infinitely above zero. -/
def FromOne : UnpackedFloat → Prop
  | .notANumber => False
  | .infinity sign => sign = .positive
  | .zero _ => False
  | .finite sign mantissa exponent _ => sign = .positive ∧ mantissa.log2 = 52 ∧ -52 ≤ exponent

variable {unpacked : UnpackedFloat} {count : Nat}

/-- What is bounded by some count of units is finite. -/
theorem UpTo.isFinite (h : UpTo count unpacked) : unpacked.isFinite = true := by
  cases unpacked with
  | notANumber => cases h
  | infinity sign => cases h
  | zero sign => rfl
  | finite sign mantissa exponent hPositive => rfl

/-- To store a number does not make it negative. -/
theorem NotNegative.stored (h : NotNegative unpacked) :
    NotNegative (stored unpacked) := by
  cases unpacked with
  | notANumber => cases h
  | infinity sign =>
      rw [stored, UnpackedFloat.pack, unpack_packedInfinity]
      exact h
  | zero sign => cases sign <;> trivial
  | finite sign mantissa exponent hPositive =>
      obtain ⟨hSign, hLow⟩ := h
      rcases stored_finite sign hPositive hLow with ⟨_, hStored⟩ | ⟨_, hStored⟩ |
        ⟨_, hStored | ⟨less, _, _, hStored⟩⟩
      · exact hStored ▸ hSign
      · rw [hStored]
        exact ⟨hSign, hLow⟩
      · exact hStored ▸ trivial
      · exact hStored ▸ ⟨hSign, Int.le_refl _⟩

/-- A number that is within the bound is stored within the bound. -/
theorem UpTo.stored (h : UpTo count unpacked) :
    UpTo count (stored unpacked) := by
  cases unpacked with
  | notANumber => cases h
  | infinity sign => cases h
  | zero sign => cases sign <;> trivial
  | finite sign mantissa exponent hPositive =>
      obtain ⟨hSign, hLow, hHigh, hBound⟩ := h
      rcases stored_finite sign hPositive hLow with ⟨hOver, _⟩ | ⟨_, hStored⟩ |
        ⟨_, hStored | ⟨less, _, hLess, hStored⟩⟩
      · omega
      · rw [hStored]
        exact ⟨hSign, hLow, hHigh, hBound⟩
      · exact hStored ▸ trivial
      · -- Without its exponent the mantissa counts the least of all floats, so it comes to less.
        have hUnits : 2 ^ (970 - exponent).toNat ≤ 2 ^ (970 - (-1074) : Int).toNat :=
          Nat.pow_le_pow_right (by decide) (by omega)
        exact hStored ▸ ⟨hSign, Int.le_refl _, by decide,
          (hLess.trans hBound).trans (Nat.mul_le_mul_left count hUnits)⟩

/-- A number that is one or more is stored as one that is. -/
theorem FromOne.stored (h : FromOne unpacked) :
    FromOne (stored unpacked) := by
  cases unpacked with
  | notANumber => cases h
  | infinity sign =>
      rw [stored, UnpackedFloat.pack, unpack_packedInfinity]
      exact h
  | zero sign => cases h
  | finite sign mantissa exponent hPositive =>
      obtain ⟨hSign, hBits, hOne⟩ := h
      rcases stored_finite sign hPositive (Int.le_trans (by decide) hOne) with ⟨_, hStored⟩ |
        ⟨_, hStored⟩ | ⟨hShort, _⟩
      · exact hStored ▸ hSign
      · rw [hStored]
        exact ⟨hSign, hBits, hOne⟩
      · exact absurd hBits hShort

/-! ## Mantissas with their rest -/

/-- A mantissa that, with what was cut off from it, is no more than a bound. -/
def Below (bound : Nat) (extended : ExtendedMantissa) : Prop :=
  extended.mantissa < bound ∨
    extended.mantissa = bound ∧ extended.roundBit = false ∧ extended.stickyBit = false

variable {bound : Nat} {extended : ExtendedMantissa}

theorem shiftRight_succ (extended : ExtendedMantissa) (places : Nat) :
    extended >>> (places + 1) = (extended >>> places).shiftRightOne := rfl

/-- A shift divides the mantissa and leaves the rest to the accuracy. -/
theorem mantissa_shiftRight (extended : ExtendedMantissa) (places : Nat) :
    (extended >>> places).mantissa = extended.mantissa / 2 ^ places := by
  induction places with
  | zero => exact (Nat.div_one _).symm
  | succ places ih =>
      rw [shiftRight_succ, Nat.pow_succ, ← Nat.div_div_eq_div_mul, ← ih]
      rfl

/-- A shift by one place halves a bound. -/
theorem Below.shiftRightOne (h : Below (2 * bound) extended) :
    Below bound extended.shiftRightOne := by
  unfold ExtendedMantissa.shiftRightOne
  rcases h with hLess | ⟨hMantissa, hRound, hSticky⟩
  · exact .inl (Nat.div_lt_of_lt_mul hLess)
  · refine .inr ⟨?_, ?_, ?_⟩
    · simp only [hMantissa]
      omega
    · simp [hMantissa]
    · simp [hRound, hSticky]

/-- A shift by some places divides a bound by their power of two. -/
theorem Below.shiftRight {places : Nat} (h : Below (bound * 2 ^ places) extended) :
    Below bound (extended >>> places) := by
  induction places generalizing bound with
  | zero =>
      rw [Nat.pow_zero, Nat.mul_one] at h
      exact h
  | succ places ih =>
      rw [Nat.pow_succ', ← Nat.mul_assoc, Nat.mul_comm bound 2] at h
      exact (ih h).shiftRightOne

/-- Rounding goes to one of the two neighbours. -/
theorem roundedMantissa_bounds (extended : ExtendedMantissa) :
    extended.mantissa ≤ extended.roundedMantissa ∧
      extended.roundedMantissa ≤ extended.mantissa + 1 := by
  obtain ⟨mantissa, round, sticky⟩ := extended
  cases round <;> cases sticky <;>
    simp only [ExtendedMantissa.roundedMantissa, ExtendedMantissa.accuracy,
      Accuracy.roundToNearestEven] <;> omega

/-- What lies below a whole bound is not rounded beyond it. -/
theorem Below.roundedMantissa_le (h : Below bound extended) :
    extended.roundedMantissa ≤ bound := by
  rcases h with hLess | ⟨hMantissa, hRound, hSticky⟩
  · exact (roundedMantissa_bounds extended).2.trans hLess
  · obtain ⟨mantissa, round, sticky⟩ := extended
    cases hRound
    cases hSticky
    exact Nat.le_of_eq hMantissa

/-- A mantissa that is exact is bounded by itself. -/
theorem below_exact {mantissa : Nat} (h : mantissa ≤ bound) :
    Below bound (.ofMantissaAndAccuracy mantissa .exact) :=
  (Nat.lt_or_eq_of_le h).imp_right fun hSame => ⟨hSame, rfl, rfl⟩

theorem mantissa_ofMantissaAndAccuracy (mantissa : Nat) (accuracy : Accuracy) :
    (ExtendedMantissa.ofMantissaAndAccuracy mantissa accuracy).mantissa = mantissa := by
  match accuracy with
  | .exact => rfl
  | .inexact .lt => rfl
  | .inexact .eq => rfl
  | .inexact .gt => rfl

/-- A quotient with its remainder lies below whatever bounds the fraction. -/
theorem below_of_fraction {dividend divisor : Nat} (h : dividend ≤ bound * divisor) :
    Below bound (.ofMantissaAndAccuracy (dividend / divisor)
      (accuracyOfFraction (dividend % divisor) divisor)) := by
  rcases Nat.lt_or_eq_of_le (Nat.div_le_of_le_mul (Nat.mul_comm bound divisor ▸ h)) with
    hLess | hSame
  · left
    rw [mantissa_ofMantissaAndAccuracy]
    exact hLess
  · have hRest : dividend % divisor = 0 := by
      have hParts := Nat.div_add_mod dividend divisor
      rw [hSame, Nat.mul_comm divisor bound] at hParts
      omega
    rw [hRest, hSame]
    exact .inr ⟨rfl, rfl, rfl⟩

/-! ## Rounding -/

/-- The exponent at which a mantissa is cut off: so that 53 bits are left, but not below the least
exponent, and never below its own. -/
def placeOf (mantissa : Nat) (exponent : Int) : Int :=
  max exponent (max (mantissa.log2 + 1 + exponent - 53) (-1074))

/-- The place of the last digit is never below the exponent. -/
theorem le_placeOf (mantissa : Nat) (exponent : Int) : exponent ≤ placeOf mantissa exponent :=
  le_max_left ..

/-- Nor is it below the least place that there is. -/
theorem least_le_placeOf (mantissa : Nat) (exponent : Int) : -1074 ≤ placeOf mantissa exponent :=
  (le_max_right ..).trans (le_max_right ..)

/-- To round to a format is to shift by the digits that are beyond its last place. -/
theorem shiftToTargetExponent_eq (mantissa : Nat) (exponent : Int) (accuracy : Accuracy) :
    shiftToTargetExponent .binary64 mantissa exponent accuracy =
      (ExtendedMantissa.ofMantissaAndAccuracy mantissa accuracy >>>
        (placeOf mantissa exponent - exponent).toNat, placeOf mantissa exponent) := by
  have hPlace : placeOf mantissa exponent =
      max exponent (Format.binary64.targetExponent (totalExponent mantissa exponent)) := rfl
  rw [hPlace]
  unfold shiftToTargetExponent shiftToExponent
  generalize Format.binary64.targetExponent (totalExponent mantissa exponent) = target
  refine Prod.ext ?_ ?_
  · have hPlaces : (target - exponent).toNat = (max exponent target - exponent).toNat := by omega
    simp only [hPlaces]
  · simp only
    omega

/-- Rounding cuts off twice: once before the mantissa is rounded, and once more because it may be
one bit longer then. -/
theorem roundWithAccuracy_eq (sign : Sign) (mantissa : Nat) (exponent : Int) (accuracy : Accuracy) :
    ∃ rounded left last,
      rounded = (ExtendedMantissa.ofMantissaAndAccuracy mantissa accuracy >>>
        (placeOf mantissa exponent - exponent).toNat).roundedMantissa ∧
      last = placeOf rounded (placeOf mantissa exponent) ∧
      left = rounded / 2 ^ (last - placeOf mantissa exponent).toNat ∧
      (left = 0 ∧ roundWithAccuracy .binary64 sign mantissa exponent accuracy = .zero sign ∨
        ∃ h, roundWithAccuracy .binary64 sign mantissa exponent accuracy =
          .finite sign left last h) := by
  unfold roundWithAccuracy
  rw [shiftToTargetExponent_eq mantissa]
  simp only
  generalize (ExtendedMantissa.ofMantissaAndAccuracy mantissa accuracy >>>
    (placeOf mantissa exponent - exponent).toNat).roundedMantissa = rounded
  rw [shiftToTargetExponent_eq rounded]
  refine ⟨rounded, _, _, rfl, rfl,
    mantissa_shiftRight (.ofMantissaAndAccuracy rounded .exact) _, ?_⟩
  split
  next hZero => exact .inl ⟨hZero, rfl⟩
  next hLeft => exact .inr ⟨Nat.pos_of_ne_zero hLeft, rfl⟩

/-- A mantissa that is not too long keeps its last place within the range of the format. -/
theorem placeOf_le {mantissa : Nat} {exponent : Int} (hExponent : exponent ≤ 970)
    (h : mantissa < 2 ^ (1023 - exponent).toNat) : placeOf mantissa exponent ≤ 970 := by
  have hBits : (mantissa.log2 : Int) + exponent ≤ 1022 := by
    by_cases hZero : mantissa = 0
    · rw [hZero, Nat.log2_zero]
      omega
    · have hLess := (Nat.log2_lt hZero).mpr h
      omega
  unfold placeOf
  omega

theorem two_pow_steps {low middle high : Int} (hLow : low ≤ middle) (hHigh : middle ≤ high) :
    2 ^ (high - middle).toNat * 2 ^ (middle - low).toNat = 2 ^ (high - low).toNat := by
  rw [← Nat.pow_add]
  congr 1
  omega

/-- A bound in units leaves room for the digits of the mantissa. -/
theorem lt_of_le_count {mantissa : Nat} {exponent : Int} (hCount : count < 2 ^ 53)
    (hExponent : exponent ≤ 970) (h : mantissa ≤ count * 2 ^ (970 - exponent).toNat) :
    mantissa < 2 ^ (1023 - exponent).toNat := by
  calc mantissa ≤ count * 2 ^ (970 - exponent).toNat := h
    _ < 2 ^ 53 * 2 ^ (970 - exponent).toNat :=
      Nat.mul_lt_mul_of_pos_right hCount (Nat.two_pow_pos _)
    _ = 2 ^ (1023 - exponent).toNat := two_pow_steps hExponent (by decide : (970 : Int) ≤ 1023)

/-- A bound that is a float still holds after rounding. -/
theorem upTo_roundWithAccuracy {mantissa : Nat} {exponent : Int} {accuracy : Accuracy}
    (hCount : count < 2 ^ 53) (hExponent : exponent ≤ 970)
    (h : Below (count * 2 ^ (970 - exponent).toNat) (.ofMantissaAndAccuracy mantissa accuracy)) :
    UpTo count (roundWithAccuracy .binary64 .positive mantissa exponent accuracy) := by
  have hMantissa : mantissa ≤ count * 2 ^ (970 - exponent).toNat := by
    rw [← mantissa_ofMantissaAndAccuracy mantissa accuracy]
    exact h.elim Nat.le_of_lt fun hSame => Nat.le_of_eq hSame.1
  -- No exponent on the way is above that of the bound, so at each of them the bound is whole.
  have hPlace := placeOf_le hExponent (lt_of_le_count hCount hExponent hMantissa)
  obtain ⟨rounded, left, last, hRounded, hLast, hLeft, hResult⟩ :=
    roundWithAccuracy_eq .positive mantissa exponent accuracy
  have hRoundedBound : rounded ≤ count * 2 ^ (970 - placeOf mantissa exponent).toNat := by
    rw [hRounded]
    apply Below.roundedMantissa_le
    apply Below.shiftRight
    rw [Nat.mul_assoc, two_pow_steps (le_placeOf ..) hPlace]
    exact h
  have hLastBound : last ≤ 970 :=
    hLast ▸ placeOf_le hPlace (lt_of_le_count hCount hPlace hRoundedBound)
  have hLeftBound : left ≤ count * 2 ^ (970 - last).toNat := by
    rw [hLeft]
    apply Nat.div_le_of_le_mul
    rw [Nat.mul_comm, Nat.mul_assoc, two_pow_steps (hLast ▸ le_placeOf ..) hLastBound]
    exact hRoundedBound
  rcases hResult with ⟨_, hZero⟩ | ⟨_, hFinite⟩
  · exact hZero ▸ trivial
  · rw [hFinite]
    exact ⟨rfl, hLast ▸ least_le_placeOf .., hLastBound, hLeftBound⟩

/-- What is rounded from a positive sign is not negative. -/
theorem notNegative_roundWithAccuracy (mantissa : Nat) (exponent : Int) (accuracy : Accuracy) :
    NotNegative (roundWithAccuracy .binary64 .positive mantissa exponent accuracy) := by
  obtain ⟨rounded, left, last, _, hLast, _, ⟨_, hZero⟩ | ⟨_, hFinite⟩⟩ :=
    roundWithAccuracy_eq .positive mantissa exponent accuracy
  · exact hZero ▸ trivial
  · rw [hFinite]
    exact ⟨rfl, hLast ▸ least_le_placeOf ..⟩

/-- Before a mantissa is rounded it is made long enough. -/
theorem round_eq (sign : Sign) (mantissa : Nat) (exponent : Int) :
    ∃ longer : Nat, UnpackedFloat.round .binary64 sign mantissa exponent =
      roundWithAccuracy .binary64 sign (mantissa * 2 ^ longer) (exponent - longer) .exact ∧
      (longer : Int) = max 0 (exponent - max (mantissa.log2 + 1 + exponent - 53) (-1074)) := by
  refine ⟨(exponent - Format.binary64.targetExponent (totalExponent mantissa exponent)).toNat,
    ?_, ?_⟩
  · unfold UnpackedFloat.round decreaseExponent
    simp only [Nat.shiftLeft_eq]
  · have hTarget : Format.binary64.targetExponent (totalExponent mantissa exponent) =
        max (mantissa.log2 + 1 + exponent - 53) (-1074) := rfl
    omega

/-- To round keeps within the bound. -/
theorem upTo_round {mantissa : Nat} {exponent : Int} (hCount : count < 2 ^ 53)
    (hExponent : exponent ≤ 970) (h : mantissa ≤ count * 2 ^ (970 - exponent).toNat) :
    UpTo count (UnpackedFloat.round .binary64 .positive mantissa exponent) := by
  obtain ⟨longer, hRound, _⟩ := round_eq .positive mantissa exponent
  rw [hRound]
  have hLonger : exponent - longer ≤ exponent := by omega
  refine upTo_roundWithAccuracy hCount (hLonger.trans hExponent) (below_exact ?_)
  rw [← two_pow_steps hLonger hExponent, ← Nat.mul_assoc]
  refine Nat.mul_le_mul h (Nat.pow_le_pow_right (by decide) ?_)
  omega

theorem log2_div_two_pow (mantissa places : Nat) :
    (mantissa / 2 ^ places).log2 = mantissa.log2 - places := by
  rw [Nat.log2_eq_log_two, Nat.log2_eq_log_two, Nat.log_div_base_pow]

theorem log2_mul_two_pow {mantissa : Nat} (hMantissa : mantissa ≠ 0) (places : Nat) :
    (mantissa * 2 ^ places).log2 = mantissa.log2 + places := by
  refine (Nat.log2_eq_iff (Nat.mul_ne_zero hMantissa (Nat.two_pow_pos places).ne')).mpr ⟨?_, ?_⟩
  · rw [Nat.pow_add]
    exact Nat.mul_le_mul_right _ (Nat.log2_self_le hMantissa)
  · rw [Nat.add_right_comm, Nat.pow_add]
    exact Nat.mul_lt_mul_of_pos_right Nat.lt_log2_self (Nat.two_pow_pos places)

/-- What is not below one before rounding is not below one afterwards, and has its full length. -/
theorem fromOne_round {mantissa : Nat} {exponent : Int} (hMantissa : mantissa ≠ 0)
    (h : 0 ≤ mantissa.log2 + exponent) :
    FromOne (UnpackedFloat.round .binary64 .positive mantissa exponent) := by
  obtain ⟨longer, hRound, hLonger⟩ := round_eq .positive mantissa exponent
  have hBits := log2_mul_two_pow hMantissa longer
  have hPlace : placeOf (mantissa * 2 ^ longer) (exponent - longer) =
      mantissa.log2 + exponent - 52 := by
    unfold placeOf
    omega
  obtain ⟨rounded, left, last, hRounded, hLast, hLeft, hResult⟩ :=
    roundWithAccuracy_eq .positive (mantissa * 2 ^ longer) (exponent - longer) .exact
  rw [hPlace] at hRounded hLast hLeft
  -- What is left after the first cut has 53 bits, and rounding does not make it shorter.
  have hRoundedBits : 52 ≤ rounded.log2 := by
    have hCut : ((mantissa * 2 ^ longer) / 2 ^ (mantissa.log2 + exponent - 52 -
        (exponent - longer)).toNat).log2 = 52 := by
      rw [log2_div_two_pow, hBits]
      omega
    have hKept := (roundedMantissa_bounds (ExtendedMantissa.ofMantissaAndAccuracy
      (mantissa * 2 ^ longer) .exact >>> (mantissa.log2 + exponent - 52 -
        (exponent - longer)).toNat)).1
    rw [← hRounded, mantissa_shiftRight, mantissa_ofMantissaAndAccuracy] at hKept
    have hLonger := Nat.log_mono_right (b := 2) hKept
    rw [← Nat.log2_eq_log_two, ← Nat.log2_eq_log_two, hCut] at hLonger
    exact hLonger
  have hLastPlace : last = rounded.log2 + (mantissa.log2 + exponent - 104) := by
    rw [hLast]
    unfold placeOf
    omega
  have hLeftBits : left.log2 = 52 := by
    rw [hLeft, log2_div_two_pow]
    omega
  rw [hRound]
  rcases hResult with ⟨hNone, _⟩ | ⟨_, hFinite⟩
  · rw [hNone] at hLeftBits
    cases hLeftBits
  · rw [hFinite]
    exact ⟨rfl, hLeftBits, by omega⟩

/-! ## Sums -/

/-- A mantissa that is not zero is normalized by rounding it. -/
theorem normalize_positive {mantissa : Nat} (h : 0 < mantissa) (exponent : Int) :
    UnpackedFloat.normalize .binary64 mantissa exponent .positive =
      UnpackedFloat.round .binary64 .positive mantissa exponent := by
  have hPositive : compare (mantissa : Int) 0 = .gt :=
    Int.compare_eq_gt.mpr (Int.natCast_pos.mpr h)
  simp only [UnpackedFloat.normalize, hPositive, Int.toNat_natCast]

/-- The sum of two positive floats, before it is stored. -/
theorem add_positive {first second : Nat} {low high : Int} (hFirst : 0 < first)
    (hSecond : 0 < second) :
    UnpackedFloat.add .binary64 (.finite .positive first low hFirst)
        (.finite .positive second high hSecond) =
      UnpackedFloat.round .binary64 .positive
        (first * 2 ^ (low - min low high).toNat + second * 2 ^ (high - min low high).toNat)
        (min low high) := by
  simp only [UnpackedFloat.add, decreaseExponent, Sign.apply, Nat.shiftLeft_eq]
  rw [← Int.natCast_add, normalize_positive]
  exact Nat.add_pos_left (Nat.mul_pos hFirst (Nat.two_pow_pos _)) _

theorem notNegative_round {mantissa : Nat} {exponent : Int} :
    NotNegative (UnpackedFloat.round .binary64 .positive mantissa exponent) := by
  obtain ⟨longer, hRound, _⟩ := round_eq .positive mantissa exponent
  rw [hRound]
  exact notNegative_roundWithAccuracy ..

/-- A sum of numbers that are not negative is not negative. -/
theorem NotNegative.add {left right : UnpackedFloat} (hLeft : NotNegative left)
    (hRight : NotNegative right) : NotNegative (.add .binary64 left right) := by
  match left, right with
  | .notANumber, _ => cases hLeft
  | _, .notANumber => cases hRight
  | .infinity first, .infinity second =>
      cases hLeft
      cases hRight
      rfl
  | .infinity sign, .zero other => exact hLeft
  | .infinity sign, .finite .. => exact hLeft
  | .zero sign, .infinity other => exact hRight
  | .finite .., .infinity sign => exact hRight
  | .zero first, .zero second => cases first <;> cases second <;> trivial
  | .zero sign, .finite .. => exact hRight
  | .finite .., .zero sign => exact hLeft
  | .finite first _ low hFirst, .finite second _ high hSecond =>
      obtain ⟨rfl, _⟩ := hLeft
      obtain ⟨rfl, _⟩ := hRight
      rw [add_positive]
      exact notNegative_round

/-- What is within a bound is within every greater one. -/
theorem UpTo.mono {more : Nat} (h : UpTo count unpacked) (hMore : count ≤ more) :
    UpTo more unpacked := by
  cases unpacked with
  | notANumber => cases h
  | infinity sign => cases h
  | zero sign => trivial
  | finite sign mantissa exponent hPositive =>
      obtain ⟨hSign, hLow, hHigh, hBound⟩ := h
      exact ⟨hSign, hLow, hHigh, hBound.trans (Nat.mul_le_mul_right _ hMore)⟩

/-- The bound of a sum is the sum of the bounds, as long as that is a float. -/
theorem UpTo.add {left right : UnpackedFloat} {more : Nat} (hLeft : UpTo count left)
    (hRight : UpTo more right) (hSum : count + more < 2 ^ 53) :
    UpTo (count + more) (.add .binary64 left right) := by
  match left, right with
  | .notANumber, _ => cases hLeft
  | _, .notANumber => cases hRight
  | .infinity _, _ => cases hLeft
  | _, .infinity _ => cases hRight
  | .zero first, .zero second => cases first <;> cases second <;> trivial
  | .zero sign, .finite .. => exact hRight.mono (Nat.le_add_left more count)
  | .finite .., .zero sign => exact hLeft.mono (Nat.le_add_right count more)
  | .finite first _ low hFirst, .finite second _ high hSecond =>
      obtain ⟨rfl, _, hLow, hFirstBound⟩ := hLeft
      obtain ⟨rfl, _, hHigh, hSecondBound⟩ := hRight
      rw [add_positive]
      apply upTo_round hSum ((min_le_left low high).trans hLow)
      rw [Nat.add_mul]
      apply Nat.add_le_add
      · rw [← two_pow_steps (min_le_left low high) hLow, ← Nat.mul_assoc]
        exact Nat.mul_le_mul_right _ hFirstBound
      · rw [← two_pow_steps (min_le_right low high) hHigh, ← Nat.mul_assoc]
        exact Nat.mul_le_mul_right _ hSecondBound

/-- One and more is one or more. -/
theorem NotNegative.add_one {left : UnpackedFloat} (h : NotNegative left) :
    FromOne (.add .binary64 left (.finite .positive 4503599627370496 (-52) (by decide))) := by
  match left with
  | .notANumber => cases h
  | .infinity sign => exact h
  | .zero sign => exact ⟨rfl, by decide, Int.le_refl _⟩
  | .finite sign mantissa exponent hPositive =>
      obtain ⟨rfl, _⟩ := h
      rw [add_positive]
      have hOne : (4503599627370496 : Nat) = 2 ^ 52 := rfl
      rw [hOne, ← Nat.pow_add]
      have hLeast : min exponent (-52) ≤ -52 := min_le_right ..
      have hSum : 2 ^ (52 + (-52 - min exponent (-52)).toNat) ≤
          mantissa * 2 ^ (exponent - min exponent (-52)).toNat +
            2 ^ (52 + (-52 - min exponent (-52)).toNat) := Nat.le_add_left ..
      have hPositive := (Nat.two_pow_pos _).trans_le hSum
      have hBits := (Nat.le_log2 hPositive.ne').mpr hSum
      exact fromOne_round hPositive.ne' (by omega)

/-! ## Quotients -/

/-- Where the quotient of two mantissas is cut off, and what it comes to there. -/
theorem quotient_le {dividend divisor : Nat} {low high place : Int} (hDividend : dividend ≠ 0)
    (hLow : low ≤ 970) (hBound : dividend ≤ 2 ^ (970 - low).toNat) (hBits : divisor.log2 = 52)
    (hHigh : -52 ≤ high)
    (hPlace : place = min (low - high) (Format.binary64.targetExponent
      (totalExponent dividend low - totalExponent divisor high))) :
    place ≤ 970 ∧ dividend * 2 ^ (low - high - place).toNat ≤
      1 * 2 ^ (970 - place).toNat * divisor := by
  have hTotal : place = min (low - high)
      (max ((dividend.log2 + 1 + low) - (divisor.log2 + 1 + high) - 53) (-1074)) := hPlace
  have hDividendBits : dividend.log2 < (970 - low).toNat + 1 :=
    (Nat.log2_lt hDividend).mpr (hBound.trans_lt (Nat.pow_lt_pow_right (by decide) (by omega)))
  have hDivisor : 2 ^ 52 ≤ divisor := by
    rw [← hBits]
    exact Nat.log2_self_le fun hZero => by
      rw [hZero] at hBits
      cases hBits
  refine ⟨by omega, ?_⟩
  calc dividend * 2 ^ (low - high - place).toNat
      ≤ 2 ^ (970 - low).toNat * 2 ^ (low - high - place).toNat := Nat.mul_le_mul_right _ hBound
    _ = 2 ^ ((970 - low).toNat + (low - high - place).toNat) := (Nat.pow_add ..).symm
    _ ≤ 2 ^ ((970 - place).toNat + 52) := Nat.pow_le_pow_right (by decide) (by omega)
    _ = 1 * 2 ^ (970 - place).toNat * 2 ^ 52 := by rw [Nat.one_mul, Nat.pow_add]
    _ ≤ 1 * 2 ^ (970 - place).toNat * divisor := Nat.mul_le_mul_left _ hDivisor

/-- A quotient is not above the dividend, if the divisor is one or more. -/
theorem UpTo.div {left right : UnpackedFloat} (hLeft : UpTo 1 left) (hRight : FromOne right) :
    UpTo 1 (.div .binary64 left right) := by
  match left, right with
  | .notANumber, _ => cases hLeft
  | .infinity _, _ => cases hLeft
  | _, .notANumber => cases hRight
  | _, .zero _ => cases hRight
  | .zero _, .infinity _ => trivial
  | .zero _, .finite .. => trivial
  | .finite .., .infinity _ => trivial
  | .finite first dividend low hDividend, .finite second divisor high hDivisor =>
      obtain ⟨rfl, _, hLow, hBound⟩ := hLeft
      obtain ⟨rfl, hBits, hHigh⟩ := hRight
      rw [Nat.one_mul] at hBound
      obtain ⟨hPlace, hQuotient⟩ := quotient_le hDividend.ne' hLow hBound hBits hHigh rfl
      simp only [UnpackedFloat.div, divCore, Nat.shiftLeft_eq]
      exact upTo_roundWithAccuracy (by decide) hPlace (below_of_fraction hQuotient)

/-! ## Floats in memory -/

/-- Operations on floats store what they come to. -/
theorem unpack_add (left right : Float) :
    (left + right).toModel.unpack =
      stored (.add .binary64 left.toModel.unpack right.toModel.unpack) := rfl

/-- A quotient of floats is the stored quotient of what they stand for. -/
theorem unpack_div (left right : Float) :
    (left / right).toModel.unpack =
      stored (.div .binary64 left.toModel.unpack right.toModel.unpack) := rfl

/-- A count is never negative. -/
theorem notNegative_floatOfCount (count : Nat) :
    NotNegative (floatOfCount count).toModel.unpack := by
  have hStored : (floatOfCount count).toModel.unpack =
      stored (UnpackedFloat.normalize .binary64 count.toUInt64.toNat 0 .positive) := rfl
  rw [hStored]
  apply NotNegative.stored
  rcases Nat.eq_zero_or_pos count.toUInt64.toNat with hZero | hPositive
  · rw [hZero]
    trivial
  · rw [normalize_positive hPositive]
    exact notNegative_round

/-- What the bits of a float can say. -/
theorem unpack_finite {bits : BitVec Format.binary64.numBits} {sign : Sign} {mantissa : Nat}
    {exponent : Int} {hPositive : 0 < mantissa}
    (h : UnpackedFloat.unpack .binary64 bits = .finite sign mantissa exponent hPositive) :
    mantissa < 2 ^ 53 ∧ -1074 ≤ exponent := by
  unfold UnpackedFloat.unpack at h
  simp only at h
  split at h
  next => split at h <;> cases h
  next =>
    split at h
    next =>
      split at h
      next => cases h
      next =>
        cases h
        refine ⟨(BitVec.isLt _).trans (by decide), ?_⟩
        change (-1074 : Int) ≤ _ - (1023 + 52) + 1
        omega
    next hNormal =>
      have hSet : 0 < (unpackExponent bits).toNat :=
        Nat.pos_of_ne_zero fun hNone => hNormal (BitVec.eq_of_toNat_eq hNone)
      cases h
      refine ⟨BitVec.isLt _, ?_⟩
      change (-1074 : Int) ≤ _ - (1023 + 52)
      omega

theorem unpack_limit : (1e291 : Float).toModel.unpack =
    .finite .positive 7220777503459318 914 (by decide) := by
  have hBits : (1e291 : Float).toModel.toBits = 8960376836716005366 := by decide +kernel
  rw [Float.Model.unpack, hBits]
  rfl

/-- A weight that can be used and is not above `10 ^ 291`. -/
theorem upTo_of_le {weight : Float} (hUsable : Deployment.usableWeight weight = true)
    (h : weight ≤ 1e291) : UpTo 1 weight.toModel.unpack := by
  have hLe : weight.toModel.unpack.le (1e291 : Float).toModel.unpack = true :=
    of_decide_eq_true h
  rw [Deployment.usableWeight, Bool.and_eq_true, Bool.not_eq_true',
    decide_eq_false_iff_not] at hUsable
  obtain ⟨hFinite, hAbove⟩ := hUsable
  have hPositive : ¬weight.toModel.unpack.le (.zero .positive) = true := fun hLe =>
    hAbove (decide_eq_true hLe)
  have hKind : weight.toModel.unpack.isFinite = true := hFinite
  rw [unpack_limit] at hLe
  cases hWeight : weight.toModel.unpack with
  | notANumber =>
      rw [hWeight] at hKind
      cases hKind
  | infinity sign =>
      rw [hWeight] at hKind
      cases hKind
  | zero sign => trivial
  | finite sign mantissa exponent hMantissa =>
      obtain ⟨hShort, hLow⟩ := unpack_finite hWeight
      rw [hWeight] at hLe hPositive
      cases sign with
      | negative => exact absurd rfl hPositive
      | positive =>
          have hHigh : exponent ≤ 914 := by
            by_contra hMore
            have hOrder : compare exponent 914 = .gt := Int.compare_eq_gt.mpr (Int.not_le.mp hMore)
            simp [UnpackedFloat.le, UnpackedFloat.compare, hOrder] at hLe
          refine ⟨rfl, hLow, by omega, ?_⟩
          rw [Nat.one_mul]
          exact hShort.le.trans (Nat.pow_le_pow_right (by decide) (by omega))

end DeploymentRouting.Rounding
