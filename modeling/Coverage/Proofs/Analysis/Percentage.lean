/-
# The percentage of what ran entirely

A percentage is a quotient of two rounded counts, times a hundred. The statement
here is that a file of which everything ran has exactly a hundred per cent, which
takes that a count divided by itself is one and not merely close to it. Counts
below 2 ^ 53 are floats, and more lines than that no file has.

The arithmetic goes through the binary format itself: a count is unpacked as a
finite number, and the quotient of a finite number by itself has the mantissa
2 ^ 53 and the exponent -53 before it is rounded, whatever the number is.
-/
import Coverage.Numbers
import Mathlib.Algebra.Group.Nat.Defs

namespace Coverage

namespace Numbers

open Float.Model Float.Model.UnpackedFloat

/-! ## Finite numbers -/

/-- A number that is neither infinite nor zero nor undefined. -/
def IsFinite : UnpackedFloat → Prop
  | .finite .. => True
  | _ => False

/-- A finite number divided by itself, before rounding. -/
theorem divCore_self {mantissa : Nat} (exponent : Int) (hpos : 0 < mantissa) :
    divCore Format.binary64 mantissa exponent mantissa exponent = (2 ^ 53, -53, .exact) := by
  have htarget : min (exponent - exponent) (Format.binary64.targetExponent
      (totalExponent mantissa exponent - totalExponent mantissa exponent)) = -53 := by
    rw [Int.sub_self, Int.sub_self]
    decide
  have hshift : (exponent - exponent - -53 : Int).toNat = 53 := by omega
  rw [divCore, htarget]
  simp only [hshift, Nat.shiftLeft_eq]
  rw [Nat.mul_div_cancel_left _ hpos, Nat.mul_mod_right]
  rfl

/-- A finite number divided by itself is exactly one. -/
theorem div_self_of_isFinite {x : Float} (hx : IsFinite x.toModel.unpack) : x / x = 1.0 := by
  have hmodel : x.toModel / x.toModel = (1.0 : Float).toModel := by
    change Float.Model.pack
      (UnpackedFloat.div Format.binary64 x.toModel.unpack x.toModel.unpack) = _
    cases hunpacked : x.toModel.unpack with
    | finite sign mantissa exponent hpos =>
      have hsign : sign / sign = .positive := by cases sign <;> rfl
      change Float.Model.pack
        (match divCore Format.binary64 mantissa exponent mantissa exponent with
        | (quotient, power, accuracy) =>
          roundWithAccuracy Format.binary64 (sign / sign) quotient power accuracy) = _
      rw [divCore_self exponent hpos, hsign]
      decide +kernel
    | infinity sign =>
      rw [hunpacked] at hx
      exact hx.elim
    | notANumber =>
      rw [hunpacked] at hx
      exact hx.elim
    | zero sign =>
      rw [hunpacked] at hx
      exact hx.elim
  change Float.ofModel (x.toModel / x.toModel) = 1.0
  rw [hmodel]

/-! ## Counts are finite numbers -/

/-- Bits whose exponent is neither the largest nor zero are those of a finite number. -/
theorem isFinite_unpack {bits : BitVec Format.binary64.numBits}
    (hfinite : unpackExponent bits ≠ -1#_) (hnormal : unpackExponent bits ≠ 0#_) :
    IsFinite (UnpackedFloat.unpack Format.binary64 bits) := by
  change IsFinite (ite (unpackExponent bits = -1#_) _ (ite (unpackExponent bits = 0#_) _ _))
  rw [if_neg hfinite, if_neg hnormal]
  trivial

/-- A normal number is still finite after packing. -/
theorem isFinite_pack {sign : Sign} {mantissa : Nat} {exponent : Int} (hpos : 0 < mantissa)
    (hbits : mantissa.log2 = 52) (hlow : -1075 < exponent) (hhigh : exponent < 972) :
    IsFinite (Float.Model.pack (.finite sign mantissa exponent hpos)).unpack := by
  obtain ⟨biased, hbiased⟩ : ∃ biased : Nat, (biased : Int) = exponent + 1075 :=
    ⟨(exponent + 1075).toNat, by omega⟩
  have hexponent : (exponent + Format.binary64.exponentBias +
      Format.binary64.mantissaBitsWithoutImplicit).toNat = biased := by
    change (exponent + 1023 + 52).toNat = biased
    omega
  have hfits : ¬ 2 ^ Format.binary64.exponentBits ≤ biased + 1 := by
    change ¬ 2048 ≤ biased + 1
    omega
  have hnormal : mantissa.log2 + 1 = Format.binary64.mantissaBits := by
    rw [hbits]
    rfl
  have hpacked : UnpackedFloat.pack Format.binary64 (.finite sign mantissa exponent hpos) =
      packComponents Format.binary64 sign (BitVec.ofNat _ biased) (BitVec.ofNat _ mantissa) := by
    change ite (2 ^ Format.binary64.exponentBits ≤ (exponent + Format.binary64.exponentBias +
      Format.binary64.mantissaBitsWithoutImplicit).toNat + 1) _ (ite _ _ _) = _
    rw [hexponent, if_neg hfits, if_pos hnormal]
  have hvalue : (BitVec.ofNat 11 biased).toNat = biased := by
    rw [BitVec.toNat_ofNat]
    omega
  change IsFinite (UnpackedFloat.unpack Format.binary64
    (UnpackedFloat.pack Format.binary64 (.finite sign mantissa exponent hpos)))
  rw [hpacked]
  apply isFinite_unpack
  · rw [unpackExponent_packComponents]
    intro h
    have hall : (BitVec.ofNat 11 biased).toNat = 2047 := congrArg BitVec.toNat h
    omega
  · rw [unpackExponent_packComponents]
    intro h
    have hnone : (BitVec.ofNat 11 biased).toNat = 0 := congrArg BitVec.toNat h
    omega

/-- Rounding leaves a normal number alone. -/
theorem roundWithAccuracy_of_normal {sign : Sign} {mantissa : Nat} {exponent : Int}
    (hpos : 0 < mantissa) (hbits : mantissa.log2 = 52) (hlow : -1074 ≤ exponent) :
    roundWithAccuracy Format.binary64 sign mantissa exponent .exact =
      .finite sign mantissa exponent hpos := by
  have htarget : Format.binary64.targetExponent (totalExponent mantissa exponent) = exponent := by
    rw [totalExponent, hbits]
    change max ((52 : Int) + 1 + exponent - 53) (-1074) = exponent
    omega
  have hshifted : shiftToTargetExponent Format.binary64 mantissa exponent .exact =
      (⟨mantissa, false, false⟩, exponent) := by
    rw [shiftToTargetExponent, htarget, shiftToExponent, Int.sub_self]
    change (_, exponent + 0) = _
    rw [Int.add_zero]
    rfl
  have hrounded : (⟨mantissa, false, false⟩ : ExtendedMantissa).roundedMantissa = mantissa := rfl
  rw [roundWithAccuracy, hshifted]
  dsimp only
  rw [hrounded, hshifted]
  exact dif_neg (Nat.ne_of_gt hpos)

theorem log2_shiftLeft {n : Nat} (hpos : 0 < n) (k : Nat) : (n <<< k).log2 = n.log2 + k := by
  induction k with
  | zero => rfl
  | succ k ih =>
    have hne : n <<< k ≠ 0 := Nat.ne_of_gt (Nat.shiftLeft_pos_iff.2 hpos)
    rw [Nat.shiftLeft_succ, Nat.log2_two_mul hne, ih, Nat.add_assoc]

/-- A count of at most 53 bits is written with a mantissa of exactly 53 bits. -/
theorem ofNat_eq_finite {n : Nat} (hpos : 0 < n) (hlog : n.log2 ≤ 52) :
    ∃ hscaled, UnpackedFloat.ofNat Format.binary64 n =
      .finite .positive (n <<< (52 - n.log2)) ((n.log2 : Int) - 52) hscaled := by
  have hscaled : 0 < n <<< (52 - n.log2) := Nat.shiftLeft_pos_iff.2 hpos
  have hbits : (n <<< (52 - n.log2)).log2 = 52 := by
    rw [log2_shiftLeft hpos]
    omega
  have htarget : Format.binary64.targetExponent (totalExponent n 0) = (n.log2 : Int) - 52 := by
    change max ((n.log2 : Int) + 1 + 0 - 53) (-1074) = (n.log2 : Int) - 52
    omega
  have hdecreased : decreaseExponent n 0 ((n.log2 : Int) - 52) =
      (n <<< (52 - n.log2), (n.log2 : Int) - 52) := by
    have hamount : (0 - ((n.log2 : Int) - 52)).toNat = 52 - n.log2 := by omega
    have hexponent : (0 : Int) - ((52 - n.log2 : Nat) : Int) = (n.log2 : Int) - 52 := by omega
    rw [decreaseExponent, hamount, hexponent]
  have hcompare : compare (n : Int) 0 = .gt := by
    rw [Int.compare_eq_gt]
    omega
  refine ⟨hscaled, ?_⟩
  rw [UnpackedFloat.ofNat, UnpackedFloat.ofInt, UnpackedFloat.normalize, hcompare]
  change UnpackedFloat.round Format.binary64 .positive (n : Int).toNat 0 = _
  rw [Int.toNat_natCast, UnpackedFloat.round]
  dsimp only
  rw [htarget, hdecreased]
  exact roundWithAccuracy_of_normal hscaled hbits (by omega)

theorem log2_le_of_lt {n : Nat} (hpos : 0 < n) (hlt : n < 2 ^ 53) : n.log2 ≤ 52 :=
  Nat.le_of_lt_succ ((Nat.log2_lt (Nat.ne_of_gt hpos)).2 hlt)

theorem isFinite_toFloat {n : Nat} (hpos : 0 < n) (hlt : n < 2 ^ 53) :
    IsFinite n.toUInt64.toFloat.toModel.unpack := by
  have hlog := log2_le_of_lt hpos hlt
  have hvalue : n.toUInt64.toNat = n := by
    rw [Nat.toUInt64, UInt64.toNat_ofNat']
    exact Nat.mod_eq_of_lt (by omega)
  have hbits : (n <<< (52 - n.log2)).log2 = 52 := by
    rw [log2_shiftLeft hpos]
    omega
  obtain ⟨hscaled, hfinite⟩ := ofNat_eq_finite hpos hlog
  change IsFinite (Float.Model.pack (UnpackedFloat.ofNat Format.binary64 n.toUInt64.toNat)).unpack
  rw [hvalue, hfinite]
  apply isFinite_pack hscaled hbits
  · omega
  · omega

/-! ## A hundred per cent -/

/-- All of a count is a hundred per cent of it. -/
theorem nearestFloat_div_self {n : Nat} (hpos : 0 < n) (hlt : n < 2 ^ 53) :
    nearestFloat n / nearestFloat n * 100.0 = 100.0 := by
  have hnearest : nearestFloat n = n.toUInt64.toFloat := by
    have hlost : n.log2 - 52 = 0 := Nat.sub_eq_zero_of_le (log2_le_of_lt hpos hlt)
    rw [nearestFloat]
    exact if_pos hlost
  rw [hnearest, div_self_of_isFinite (isFinite_toFloat hpos hlt)]
  decide +kernel

/-- Where nothing is missing, everything ran, to the last bit. -/
theorem percentCovered_eq_hundred {n : Numbers} (hmissing : n.missing = 0)
    (hbranches : n.missingBranches = 0) (hbound : n.statements + n.branches < 2 ^ 53) :
    n.percentCovered = 100.0 := by
  have hall : n.ratio = (n.statements + n.branches, n.statements + n.branches) := by
    rw [ratio, executed, executedBranches, hmissing, hbranches, Nat.sub_zero, Nat.sub_zero]
  rw [percentCovered, hall]
  dsimp only
  split
  · rfl
  · next hsome => exact nearestFloat_div_self (Nat.pos_of_ne_zero hsome) hbound

end Numbers

end Coverage
