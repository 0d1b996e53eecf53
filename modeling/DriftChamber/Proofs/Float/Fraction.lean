/-
# Fractions of counts in double precision

A count of up to 64 bits is converted to a double, and one count is divided by another.  Both steps
round to 53 bits.  Still, a fraction of a count lies between 0 and 1 (`toFloat_div_toFloat_mem`).

Rounding keeps the leading 53 bits of a mantissa and two residual bits.  These are in order as the
mantissas are (`rank_shiftRight_le`), so counts of the same length are converted in order, and
counts of different lengths anyway (`toFloat_le_toFloat`).  A quotient below one has an exponent
below that of one, and a carry takes it to one at most (`IsDouble.div_mem`).
-/
import Mathlib

namespace DriftChamber

namespace Binary64

open Float.Model (Format UnpackedFloat totalExponent)
open Float.Model.UnpackedFloat

/-! ## Rounding bits -/

/-- The mantissa in quarters: the two residual bits count a half and something less. -/
def rank (em : ExtendedMantissa) : Nat :=
  4 * em.mantissa + 2 * em.roundBit.toNat + em.stickyBit.toNat

/-- A shift by one moves the last bit of the mantissa to the residual bits; of these it remembers
only whether one was set. -/
theorem rank_shiftRightOne (em : ExtendedMantissa) :
    rank em.shiftRightOne = 2 * (rank em / 4) + min 1 (rank em % 4) := by
  obtain ⟨m, r, s⟩ := em
  rcases Nat.mod_two_eq_zero_or_one m with hm | hm <;> cases r <;> cases s <;>
    simp [rank, ExtendedMantissa.shiftRightOne, hm] <;> omega

/-- So shifts keep the order, whatever falls out. -/
theorem rank_shiftRight_le {em em' : ExtendedMantissa} (h : rank em ≤ rank em') (n : Nat) :
    rank (em >>> n) ≤ rank (em' >>> n) := by
  induction n with
  | zero => exact h
  | succ n ih =>
      show rank (em >>> n).shiftRightOne ≤ rank (em' >>> n).shiftRightOne
      rw [rank_shiftRightOne, rank_shiftRightOne]
      omega

theorem mantissa_shiftRight (em : ExtendedMantissa) (n : Nat) :
    (em >>> n).mantissa = em.mantissa / 2 ^ n := by
  induction n with
  | zero => exact (Nat.div_one _).symm
  | succ n ih =>
      show (em >>> n).mantissa / 2 = _
      rw [ih, Nat.div_div_eq_div_mul, Nat.pow_succ]

/-- Rounding to the nearest keeps the order. -/
theorem roundedMantissa_le_of_rank_le {em em' : ExtendedMantissa} (h : rank em ≤ rank em') :
    em.roundedMantissa ≤ em'.roundedMantissa := by
  obtain ⟨m, r, s⟩ := em
  obtain ⟨m', r', s'⟩ := em'
  cases r <;> cases s <;> cases r' <;> cases s' <;>
    simp [rank, ExtendedMantissa.roundedMantissa, ExtendedMantissa.accuracy,
      Accuracy.roundToNearestEven] at h ⊢ <;> omega

/-- Rounding adds one at most. -/
theorem roundedMantissa_mem (em : ExtendedMantissa) :
    em.mantissa ≤ em.roundedMantissa ∧ em.roundedMantissa ≤ em.mantissa + 1 := by
  obtain ⟨m, r, s⟩ := em
  cases r <;> cases s <;>
    simp only [ExtendedMantissa.roundedMantissa, ExtendedMantissa.accuracy,
      Accuracy.roundToNearestEven] <;> omega

theorem mantissa_ofMantissaAndAccuracy (m : Nat) (a : Accuracy) :
    (ExtendedMantissa.ofMantissaAndAccuracy m a).mantissa = m := by
  cases a with
  | exact => rfl
  | inexact o => cases o <;> rfl

/-! ## Rounding to 53 bits -/

/-- The leading 53 bits of a mantissa, rounded. -/
def leading (mantissa : Nat) (accuracy : Accuracy) : Nat :=
  (ExtendedMantissa.ofMantissaAndAccuracy mantissa accuracy >>>
    (mantissa.log2 - 52)).roundedMantissa

/-- The leading bits are 53 of them, or a carry has made them the next power of two. -/
theorem leading_mem {mantissa : Nat} (h : 2 ^ 52 ≤ mantissa) (accuracy : Accuracy) :
    2 ^ 52 ≤ leading mantissa accuracy ∧ leading mantissa accuracy ≤ 2 ^ 53 := by
  have hne : mantissa ≠ 0 := by omega
  have hlog : 52 ≤ mantissa.log2 := (Nat.le_log2 hne).mpr h
  have hmem := roundedMantissa_mem
    (ExtendedMantissa.ofMantissaAndAccuracy mantissa accuracy >>> (mantissa.log2 - 52))
  rw [mantissa_shiftRight, mantissa_ofMantissaAndAccuracy] at hmem
  have hlow : 2 ^ 52 ≤ mantissa / 2 ^ (mantissa.log2 - 52) := by
    rw [Nat.le_div_iff_mul_le (Nat.two_pow_pos _), ← Nat.pow_add]
    exact (Nat.le_log2 hne).mp (by omega)
  have hhigh : mantissa / 2 ^ (mantissa.log2 - 52) < 2 ^ 53 := by
    rw [Nat.div_lt_iff_lt_mul (Nat.two_pow_pos _), ← Nat.pow_add]
    exact (Nat.log2_lt hne).mp (by omega)
  unfold leading
  omega

/-- The double of 53 leading bits at an exponent; if rounding made them 54, the exponent grows. -/
def carried (bits : Nat) (exponent : Int) : UnpackedFloat :=
  if bits = 2 ^ 53 then .finite .positive (2 ^ 52) (exponent + 1) (Nat.two_pow_pos _)
  else if h : 0 < bits then .finite .positive bits exponent h
  else .zero .positive

theorem targetExponent_eq (t : Int) :
    Format.binary64.targetExponent t = max (t - 53) (-1074) := rfl

/-- Far from the least exponent, all but the leading 53 bits are shifted out. -/
theorem shiftToTargetExponent_eq {mantissa : Nat} {exponent : Int} (accuracy : Accuracy)
    (hlog : 52 ≤ mantissa.log2) (hexp : -1074 ≤ exponent + (mantissa.log2 - 52)) :
    shiftToTargetExponent .binary64 mantissa exponent accuracy =
      (ExtendedMantissa.ofMantissaAndAccuracy mantissa accuracy >>> (mantissa.log2 - 52),
        exponent + (mantissa.log2 - 52)) := by
  have hshift : (Format.binary64.targetExponent (totalExponent mantissa exponent) -
      exponent).toNat = mantissa.log2 - 52 := by
    rw [targetExponent_eq, totalExponent]
    omega
  rw [shiftToTargetExponent, shiftToExponent, hshift]
  congr 1
  omega

theorem log2_eq_of_mem {m : Nat} (hlow : 2 ^ 52 ≤ m) (hhigh : m < 2 ^ 53) : m.log2 = 52 :=
  (Nat.log2_eq_iff (by omega)).mpr ⟨hlow, hhigh⟩

theorem log2_mul_two_pow {n : Nat} (hn : n ≠ 0) (k : Nat) : (n * 2 ^ k).log2 = n.log2 + k := by
  refine (Nat.log2_eq_iff (Nat.mul_ne_zero hn (Nat.two_pow_pos k).ne')).mpr ⟨?_, ?_⟩
  · rw [Nat.pow_add]
    exact Nat.mul_le_mul_right _ (Nat.log2_self_le hn)
  · rw [Nat.add_right_comm, Nat.pow_add]
    exact Nat.mul_lt_mul_of_pos_right Nat.lt_log2_self (Nat.two_pow_pos k)

/-- Zeros behind the leading bits are shifted out without a residue. -/
theorem shiftRight_mul_two_pow (m k : Nat) :
    (⟨m * 2 ^ k, false, false⟩ : ExtendedMantissa) >>> k = ⟨m, false, false⟩ := by
  induction k generalizing m with
  | zero => exact congrArg (ExtendedMantissa.mk · false false) (Nat.mul_one m)
  | succ k ih =>
      show ((⟨m * 2 ^ (k + 1), false, false⟩ : ExtendedMantissa) >>> k).shiftRightOne = _
      rw [Nat.pow_succ', ← Nat.mul_assoc, ih (m * 2)]
      simp [ExtendedMantissa.shiftRightOne]

/-- Zeros behind the leading bits do not count. -/
theorem leading_mul_two_pow {m : Nat} (hlow : 2 ^ 52 ≤ m) (hhigh : m < 2 ^ 53) (k : Nat) :
    leading (m * 2 ^ k) .exact = m := by
  rw [leading, log2_mul_two_pow (by omega), log2_eq_of_mem hlow hhigh, Nat.add_sub_cancel_left]
  show ((⟨m * 2 ^ k, false, false⟩ : ExtendedMantissa) >>> k).roundedMantissa = m
  rw [shiftRight_mul_two_pow]
  rfl

/-- A mantissa of 53 bits stays as it is. -/
theorem shiftToTargetExponent_of_mem {m : Nat} {e : Int} (hlow : 2 ^ 52 ≤ m) (hhigh : m < 2 ^ 53)
    (he : -1074 ≤ e) : shiftToTargetExponent .binary64 m e .exact = (⟨m, false, false⟩, e) := by
  have hlog := log2_eq_of_mem hlow hhigh
  rw [shiftToTargetExponent_eq .exact hlog.ge (by omega), hlog]
  exact Prod.ext rfl (by omega)

/-- Where rounding made the bits 54, the last of them is zero. -/
theorem shiftToTargetExponent_carry {e : Int} (he : -1074 ≤ e) :
    shiftToTargetExponent .binary64 (2 ^ 53) e .exact = (⟨2 ^ 52, false, false⟩, e + 1) := by
  have hlog : (2 ^ 53).log2 = 53 := Nat.log2_two_pow
  rw [shiftToTargetExponent_eq .exact (by omega) (by omega), hlog]
  exact Prod.ext rfl (by omega)

/-- Rounding shifts twice: to 53 bits, and again in case rounding made them 54. -/
theorem roundWithAccuracy_of_shifts {mantissa m : Nat} {exponent e₁ e : Int} {accuracy : Accuracy}
    {em : ExtendedMantissa}
    (hfirst : shiftToTargetExponent .binary64 mantissa exponent accuracy = (em, e₁))
    (hsecond : shiftToTargetExponent .binary64 em.roundedMantissa e₁ .exact =
      (⟨m, false, false⟩, e)) (hpos : 0 < m) :
    roundWithAccuracy .binary64 .positive mantissa exponent accuracy =
      .finite .positive m e hpos := by
  unfold roundWithAccuracy
  simp only [hfirst, hsecond]
  rw [dif_neg hpos.ne']

/-- Rounding of a mantissa that has its 53 bits. -/
theorem roundWithAccuracy_eq {mantissa : Nat} {exponent : Int} (accuracy : Accuracy)
    (hmantissa : 2 ^ 52 ≤ mantissa) (hexp : -1074 ≤ exponent + (mantissa.log2 - 52)) :
    roundWithAccuracy .binary64 .positive mantissa exponent accuracy =
      carried (leading mantissa accuracy) (exponent + (mantissa.log2 - 52)) := by
  have hlog : 52 ≤ mantissa.log2 := (Nat.le_log2 (by omega)).mpr hmantissa
  obtain ⟨hlow, hhigh⟩ := leading_mem hmantissa accuracy
  have hfirst := shiftToTargetExponent_eq accuracy hlog hexp
  rw [carried]
  rcases hhigh.lt_or_eq with hlt | heq
  · rw [if_neg hlt.ne, dif_pos (by omega)]
    exact roundWithAccuracy_of_shifts hfirst (shiftToTargetExponent_of_mem hlow hlt hexp) _
  · rw [if_pos heq]
    refine roundWithAccuracy_of_shifts hfirst ?_ _
    rw [show ExtendedMantissa.roundedMantissa _ = 2 ^ 53 from heq]
    exact shiftToTargetExponent_carry hexp

/-! ## Comparison -/

/-- Positive doubles of 53 bits are compared by exponent first. -/
theorem finite_le_finite_iff {m m' : Nat} {e e' : Int} (hm : 0 < m) (hm' : 0 < m') :
    (UnpackedFloat.finite .positive m e hm).le (.finite .positive m' e' hm') = true ↔
      e < e' ∨ e = e' ∧ m ≤ m' := by
  simp only [UnpackedFloat.le, UnpackedFloat.compare, Option.any_some,
    Ordering.isLE_then_iff_or, compare_lt_iff_lt, compare_eq_iff_eq, Nat.isLE_compare]

/-- The greatest exponent is kept for infinities and for what is no number. -/
theorem ofNat_ne_allOnes {biased : Nat} (h : biased < 2047) : BitVec.ofNat 11 biased ≠ -1#11 := by
  intro heq
  have hvalue := congrArg BitVec.toNat heq
  rw [BitVec.toNat_ofNat, Nat.mod_eq_of_lt (by omega)] at hvalue
  have hall : (-1#11 : BitVec 11).toNat = 2047 := by decide
  omega

theorem unpack_packComponents {biased m : Nat} (hpos : 0 < biased) (hbiased : biased < 2047)
    (hlow : 2 ^ 52 ≤ m) (hhigh : m < 2 ^ 53) :
    unpack .binary64 (packComponents .binary64 .positive (BitVec.ofNat 11 biased)
      (BitVec.ofNat 52 m)) = .finite .positive m (biased - 1075) (by omega) := by
  have hzero : BitVec.ofNat 11 biased ≠ 0#11 := by
    intro heq
    have := congrArg BitVec.toNat heq
    rw [BitVec.toNat_ofNat, Nat.mod_eq_of_lt (by omega), BitVec.toNat_ofNat] at this
    omega
  have hmantissa : (1#1 ++ BitVec.ofNat 52 m).toNat = m := by
    have hor := Nat.two_pow_add_eq_or_of_lt (Nat.mod_lt m (Nat.two_pow_pos 52)) 1
    rw [BitVec.toNat_append, BitVec.toNat_ofNat, BitVec.toNat_ofNat, Nat.shiftLeft_eq,
      Nat.mul_comm, ← hor]
    omega
  unfold unpack
  simp only [unpackExponent_packComponents, unpackMantissa_packComponents,
    unpackSign_packComponents]
  rw [if_neg (ofNat_ne_allOnes hbiased), if_neg hzero, UnpackedFloat.finite.injEq,
    BitVec.toNat_ofNat, Nat.mod_eq_of_lt (by omega)]
  exact ⟨rfl, hmantissa, rfl⟩

/-- A double of 53 bits is stored without loss. -/
theorem unpack_pack_finite {m : Nat} {e : Int} (hm : 0 < m) (hlow : 2 ^ 52 ≤ m)
    (hhigh : m < 2 ^ 53) (hmin : -1074 ≤ e) (hmax : e ≤ 971) :
    unpack .binary64 (UnpackedFloat.pack .binary64 (.finite .positive m e hm)) =
      .finite .positive m e hm := by
  have hlog := log2_eq_of_mem hlow hhigh
  have hpack : UnpackedFloat.pack .binary64 (.finite .positive m e hm) =
      packComponents .binary64 .positive (BitVec.ofNat 11 (e + 1075).toNat)
        (BitVec.ofNat 52 m) := by
    unfold UnpackedFloat.pack
    have hbias : (e + Format.binary64.exponentBias +
        (Format.binary64.mantissaBitsWithoutImplicit : Nat)).toNat = (e + 1075).toNat := by
      show (e + 1023 + 52).toNat = _
      omega
    simp only [hbias, hlog]
    rw [if_neg, if_pos]
    · rfl
    · show ¬ 2 ^ 11 ≤ _
      omega
  rw [hpack, unpack_packComponents (by omega) (by omega) hlow hhigh, UnpackedFloat.finite.injEq]
  exact ⟨rfl, rfl, by omega⟩

/-! ## Doubles -/

/-- The double is positive, with a mantissa of 53 bits and the given exponent. -/
structure IsDouble (x : Float) (m : Nat) (e : Int) : Prop where
  /-- The mantissa has 53 bits. -/
  low : 2 ^ 52 ≤ m
  /-- It has no more. -/
  high : m < 2 ^ 53
  /-- They are what the double consists of. -/
  unpack_eq : ∃ h, x.toModel.unpack = .finite .positive m e h

theorem le_iff_unpack {x y : Float} : x ≤ y ↔ x.toModel.unpack.le y.toModel.unpack = true := by
  show decide (x.toModel ≤ y.toModel) = true ↔ _
  rw [decide_eq_true_iff]
  rfl

namespace IsDouble

variable {x y : Float} {m m' : Nat} {e e' : Int}

theorem le_iff (hx : IsDouble x m e) (hy : IsDouble y m' e') :
    x ≤ y ↔ e < e' ∨ e = e' ∧ m ≤ m' := by
  obtain ⟨_, hxeq⟩ := hx.unpack_eq
  obtain ⟨_, hyeq⟩ := hy.unpack_eq
  rw [le_iff_unpack, hxeq, hyeq, finite_le_finite_iff]

theorem nonneg (hx : IsDouble x m e) : 0 ≤ x := by
  obtain ⟨_, hxeq⟩ := hx.unpack_eq
  rw [le_iff_unpack, hxeq]
  rfl

end IsDouble

theorem isDouble_one : IsDouble 1 (2 ^ 52) (-52) := ⟨by decide, by decide, by decide, rfl⟩

/-- The leading bits of a result, and what a carry makes of them. -/
def Carries (bits : Nat) (exponent : Int) (m : Nat) (e : Int) : Prop :=
  bits < 2 ^ 53 ∧ m = bits ∧ e = exponent ∨ bits = 2 ^ 53 ∧ m = 2 ^ 52 ∧ e = exponent + 1

/-- A result is a double, as long as its exponent is neither too small nor too great. -/
theorem isDouble_carried {bits : Nat} {exponent : Int} {x : Float}
    (hx : x.toModel = .pack (carried bits exponent)) (hlow : 2 ^ 52 ≤ bits) (hhigh : bits ≤ 2 ^ 53)
    (hmin : -1074 ≤ exponent) (hmax : exponent ≤ 970) :
    ∃ m e, IsDouble x m e ∧ Carries bits exponent m e := by
  rw [carried] at hx
  rcases hhigh.lt_or_eq with hlt | heq
  · rw [if_neg hlt.ne, dif_pos (by omega)] at hx
    refine ⟨bits, exponent, ⟨hlow, hlt, by omega, ?_⟩, Or.inl ⟨hlt, rfl, rfl⟩⟩
    rw [hx]
    exact unpack_pack_finite _ hlow hlt hmin (by omega)
  · rw [if_pos heq] at hx
    refine ⟨2 ^ 52, exponent + 1, ⟨by decide, by decide, by decide, ?_⟩, Or.inr ⟨heq, rfl, rfl⟩⟩
    rw [hx]
    exact unpack_pack_finite _ (by decide) (by decide) (by omega) (by omega)

/-- Multiplying by one changes nothing. -/
theorem IsDouble.mul_one {x one : Float} {m : Nat} {e : Int} (hx : IsDouble x m e)
    (hone : IsDouble one (2 ^ 52) (-52)) (hmin : -1000 ≤ e) (hmax : e ≤ 900) :
    IsDouble (x * one) m e := by
  obtain ⟨hm, hxeq⟩ := hx.unpack_eq
  obtain ⟨_, honeeq⟩ := hone.unpack_eq
  have hlow := hx.low
  have hhigh := hx.high
  have hlog := log2_mul_two_pow hm.ne' 52
  rw [log2_eq_of_mem hlow hhigh] at hlog
  have hround : roundWithAccuracy .binary64 .positive (m * 2 ^ 52) (e + -52) .exact =
      carried m e := by
    rw [roundWithAccuracy_eq .exact (by omega) (by omega), leading_mul_two_pow hlow hhigh, hlog]
    congr 1
    omega
  have hproduct : (x * one).toModel = .pack (carried m e) := by
    rw [← hround]
    show Float.Model.pack (UnpackedFloat.mul _ x.toModel.unpack one.toModel.unpack) = _
    rw [hxeq, honeeq]
    rfl
  obtain ⟨m', e', hdouble, ⟨-, rfl, rfl⟩ | ⟨heq, -, -⟩⟩ :=
    isDouble_carried hproduct hlow hhigh.le (by omega) (by omega)
  · exact hdouble
  · omega

/-! ## Counts -/

/-- The leading bits of a count. -/
def significand (n : Nat) : Nat :=
  if n < 2 ^ 53 then n * 2 ^ (52 - n.log2) else leading (n * 2 ^ 53) .exact

/-- A count of fewer bits is shifted up until it has 53. -/
theorem shifted_mem {n : Nat} (hpos : 0 < n) (hlt : n < 2 ^ 53) :
    2 ^ 52 ≤ n * 2 ^ (52 - n.log2) ∧ n * 2 ^ (52 - n.log2) < 2 ^ 53 := by
  have hlog : n.log2 < 53 := (Nat.log2_lt hpos.ne').mpr hlt
  constructor
  · calc 2 ^ 52 = 2 ^ n.log2 * 2 ^ (52 - n.log2) := by rw [← Nat.pow_add]; congr 1; omega
      _ ≤ n * 2 ^ (52 - n.log2) := Nat.mul_le_mul_right _ (Nat.log2_self_le hpos.ne')
  · calc n * 2 ^ (52 - n.log2) < 2 ^ (n.log2 + 1) * 2 ^ (52 - n.log2) :=
          Nat.mul_lt_mul_of_pos_right Nat.lt_log2_self (Nat.two_pow_pos _)
      _ = 2 ^ 53 := by rw [← Nat.pow_add]; congr 1; omega

/-- A count of up to 53 bits is shifted up until it has all of them. -/
theorem ofNat_eq {n : Nat} (hpos : 0 < n) (hlt : n < 2 ^ 53) :
    UnpackedFloat.ofNat .binary64 n = carried (n * 2 ^ (52 - n.log2)) (n.log2 - 52) := by
  have hlog : n.log2 < 53 := (Nat.log2_lt hpos.ne').mpr hlt
  have htarget : (0 - Format.binary64.targetExponent (totalExponent n 0)).toNat = 52 - n.log2 := by
    rw [targetExponent_eq, totalExponent]
    omega
  obtain ⟨hlow, hhigh⟩ := shifted_mem hpos hlt
  have hround : UnpackedFloat.ofNat .binary64 n = roundWithAccuracy .binary64 .positive
      (n * 2 ^ (52 - n.log2)) (0 - (52 - n.log2 : Nat)) .exact := by
    have hcompare : compare (n : Int) 0 = .gt := compare_gt_iff_gt.mpr (by omega)
    show UnpackedFloat.normalize .binary64 (n : Int) 0 .positive = _
    unfold UnpackedFloat.normalize
    rw [hcompare]
    simp only [UnpackedFloat.round, decreaseExponent, Int.toNat_natCast, htarget, Nat.shiftLeft_eq]
  have hleading := leading_mul_two_pow hlow hhigh 0
  rw [Nat.pow_zero, Nat.mul_one] at hleading
  rw [hround, roundWithAccuracy_eq .exact hlow (by omega), hleading, log2_eq_of_mem hlow hhigh]
  congr 1
  omega

/-- Such a count is converted without rounding. -/
theorem toFloat_of_lt {n : Nat} (hpos : 0 < n) (hlt : n < 2 ^ 53) :
    IsDouble n.toFloat (n * 2 ^ (52 - n.log2)) (n.log2 - 52) := by
  obtain ⟨hlow, hhigh⟩ := shifted_mem hpos hlt
  have hlog : n.log2 < 53 := (Nat.log2_lt hpos.ne').mpr hlt
  have hword : n.toUInt64.toFloat.toModel =
      .pack (carried (n * 2 ^ (52 - n.log2)) (n.log2 - 52)) := by
    show Float.Model.pack (UnpackedFloat.ofNat .binary64 n.toUInt64.toNat) = _
    rw [show n.toUInt64.toNat = n from Nat.mod_eq_of_lt (by omega), ofNat_eq hpos hlt]
  have hproduct : n.toFloat = n.toUInt64.toFloat * Float.ofBits 0x3FF0000000000000 := by
    show Float.ofScientific n false 0 = _
    rw [Float.ofScientific, dif_pos ⟨hlt, by decide⟩]
    rfl
  obtain ⟨m, e, hdouble, ⟨-, rfl, rfl⟩ | ⟨heq, -, -⟩⟩ :=
    isDouble_carried hword hlow hhigh.le (by omega) (by omega)
  · rw [hproduct]
    exact hdouble.mul_one ⟨by decide, by decide, by decide, rfl⟩ (by omega) (by omega)
  · omega

theorem ofScientific_eq {n : Nat} (hn : n ≠ 0) :
    UnpackedFloat.ofScientific .binary64 n 0 =
      roundWithAccuracy .binary64 .positive (n * 2 ^ 53) (-53) .exact := by
  have hsmall : ¬(0 : Int) < -((2 ^ Format.binary64.exponentBits : Int) + n.log2) := by
    show ¬(0 : Int) < -(2048 + n.log2)
    omega
  have hmantissa : n <<< Format.binary64.mantissaBits * 10 ^ (0 : Int).toNat = n * 2 ^ 53 := by
    rw [Nat.shiftLeft_eq]
    exact Nat.mul_one _
  rw [UnpackedFloat.ofScientific, dif_neg hn, if_neg (by decide), if_neg hsmall,
    if_pos (le_refl _), ← hmantissa]
  rfl

/-- A longer count is rounded to its leading 53 bits. -/
theorem toFloat_of_le {n : Nat} (hle : 2 ^ 53 ≤ n) :
    n.toFloat.toModel = .pack (carried (leading (n * 2 ^ 53) .exact) (n.log2 - 52)) := by
  have hn : n ≠ 0 := by omega
  have hlog := log2_mul_two_pow hn 53
  have hmodel : n.toFloat.toModel = .pack (UnpackedFloat.ofScientific .binary64 n 0) := by
    have hslow : ¬(n < 2 ^ 53 ∧ 0 ≤ 22) := fun h => absurd h.1 (Nat.not_lt.mpr hle)
    show (Float.ofScientific n false 0).toModel = _
    rw [Float.ofScientific, dif_neg hslow]
    rfl
  rw [hmodel, ofScientific_eq hn, roundWithAccuracy_eq .exact (by omega) (by omega), hlog]
  congr 2
  omega

/-- A count of any size has a significand of 53 bits, or the power of two that a carry makes. -/
theorem significand_mem {n : Nat} (hpos : 0 < n) :
    2 ^ 52 ≤ significand n ∧ significand n ≤ 2 ^ 53 := by
  rw [significand]
  split
  · next hlt =>
      obtain ⟨hlow, hhigh⟩ := shifted_mem hpos hlt
      exact ⟨hlow, hhigh.le⟩
  · exact leading_mem (by omega) _

/-- The double of a count. -/
theorem exists_isDouble_toFloat {n : Nat} (hpos : 0 < n) (hlt : n < 2 ^ 64) :
    ∃ m e, IsDouble n.toFloat m e ∧ Carries (significand n) (n.log2 - 52) m e := by
  have hlog : n.log2 < 64 := (Nat.log2_lt hpos.ne').mpr hlt
  obtain ⟨hlow, hhigh⟩ := significand_mem hpos
  by_cases hsmall : n < 2 ^ 53
  · refine ⟨_, _, toFloat_of_lt hpos hsmall, Or.inl ⟨?_, ?_, rfl⟩⟩ <;>
      rw [significand, if_pos hsmall]
    exact (shifted_mem hpos hsmall).2
  · have hmodel := toFloat_of_le (Nat.le_of_not_lt hsmall)
    rw [significand, if_neg hsmall] at hlow hhigh ⊢
    exact isDouble_carried hmodel hlow hhigh (by omega) (by omega)

/-- Counts of the same length have their leading bits in order. -/
theorem significand_le {p w : Nat} (hlog : p.log2 = w.log2) (hpos : 0 < p) (hle : p ≤ w) :
    significand p ≤ significand w := by
  have hlength : p < 2 ^ 53 ↔ w < 2 ^ 53 := by
    rw [← Nat.log2_lt (by omega), ← Nat.log2_lt (by omega), hlog]
  rw [significand, significand]
  by_cases hw : w < 2 ^ 53
  · rw [if_pos (hlength.mpr hw), if_pos hw, hlog]
    exact Nat.mul_le_mul_right _ hle
  · rw [if_neg (mt hlength.mp hw), if_neg hw, leading, leading, log2_mul_two_pow (by omega),
      log2_mul_two_pow (by omega), hlog]
    refine roundedMantissa_le_of_rank_le (rank_shiftRight_le ?_ _)
    show 4 * (p * 2 ^ 53) + 0 + 0 ≤ 4 * (w * 2 ^ 53) + 0 + 0
    omega

/-- A carry keeps the order of results. -/
theorem Carries.le {bits bits' m m' : Nat} {t t' e e' : Int} (h : Carries bits t m e)
    (h' : Carries bits' t' m' e') (hlow : 2 ^ 52 ≤ bits')
    (hle : t < t' ∨ t = t' ∧ bits ≤ bits') : e < e' ∨ e = e' ∧ m ≤ m' := by
  unfold Carries at h h'
  omega

/-- Conversion keeps the order of counts. -/
theorem toFloat_le_toFloat {p w : Nat} (hpos : 0 < p) (hle : p ≤ w) (hlt : w < 2 ^ 64) :
    p.toFloat ≤ w.toFloat := by
  obtain ⟨m, e, hp, hcarries⟩ := exists_isDouble_toFloat hpos (by omega)
  obtain ⟨m', e', hw, hcarries'⟩ := exists_isDouble_toFloat (hpos.trans_le hle) hlt
  refine (hp.le_iff hw).mpr (hcarries.le hcarries' (significand_mem (hpos.trans_le hle)).1 ?_)
  have hlog : p.log2 ≤ w.log2 :=
    (Nat.le_log2 (by omega)).mpr ((Nat.log2_self_le hpos.ne').trans hle)
  rcases hlog.lt_or_eq with hlog | hlog
  · omega
  · exact Or.inr ⟨by rw [hlog], significand_le hlog hpos hle⟩

/-! ## Quotients -/

section Quotient

variable {m₁ m₂ : Nat} (hlow₁ : 2 ^ 52 ≤ m₁) (hhigh₂ : m₂ < 2 ^ 53) (hpos₂ : 0 < m₂)
include hlow₁ hhigh₂ hpos₂

theorem le_quotient : 2 ^ 52 ≤ m₁ * 2 ^ 53 / m₂ :=
  (Nat.le_div_iff_mul_le hpos₂).mpr (by omega)

/-- The quotient of two mantissas has 53 bits if the first is less, else 54. -/
theorem log2_quotient (hhigh₁ : m₁ < 2 ^ 53) (hlow₂ : 2 ^ 52 ≤ m₂) :
    (m₁ * 2 ^ 53 / m₂).log2 = if m₁ < m₂ then 52 else 53 := by
  have hlow := le_quotient hlow₁ hhigh₂ hpos₂
  refine (Nat.log2_eq_iff (by omega)).mpr ?_
  split
  · exact ⟨hlow, (Nat.div_lt_iff_lt_mul hpos₂).mpr (by omega)⟩
  · exact ⟨(Nat.le_div_iff_mul_le hpos₂).mpr (by omega),
      (Nat.div_lt_iff_lt_mul hpos₂).mpr (by omega)⟩

end Quotient

/-- The leading bits of a quotient and what is left of it. -/
theorem divCore_eq {m₁ m₂ : Nat} {e₁ e₂ : Int} (hlog₁ : m₁.log2 = 52) (hlog₂ : m₂.log2 = 52)
    (hrange : e₂ - e₁ ≤ 900) :
    divCore .binary64 m₁ e₁ m₂ e₂ = (m₁ * 2 ^ 53 / m₂, e₁ - e₂ - 53,
      accuracyOfFraction (m₁ * 2 ^ 53 % m₂) m₂) := by
  have htarget : min (e₁ - e₂) (Format.binary64.targetExponent
      (totalExponent m₁ e₁ - totalExponent m₂ e₂)) = e₁ - e₂ - 53 := by
    rw [targetExponent_eq, totalExponent, totalExponent]
    omega
  have hshift : (e₁ - e₂ - (e₁ - e₂ - 53)).toNat = 53 := by omega
  rw [divCore, htarget]
  simp only [hshift, Nat.shiftLeft_eq]

/-- A positive double divided by one that is not less is at most one. -/
theorem IsDouble.div_mem {x y : Float} {m₁ m₂ : Nat} {e₁ e₂ : Int} (hx : IsDouble x m₁ e₁)
    (hy : IsDouble y m₂ e₂) (hle : x ≤ y) (hrange : e₂ - e₁ ≤ 900) :
    0 ≤ x / y ∧ x / y ≤ 1 := by
  rw [hx.le_iff hy] at hle
  obtain ⟨_, hxeq⟩ := hx.unpack_eq
  obtain ⟨_, hyeq⟩ := hy.unpack_eq
  obtain ⟨hlow₁, hhigh₁, -⟩ := hx
  obtain ⟨hlow₂, hhigh₂, -⟩ := hy
  have hpos₂ : 0 < m₂ := by omega
  have hlog := log2_quotient hlow₁ hhigh₂ hpos₂ hhigh₁ hlow₂
  have hquotient := le_quotient hlow₁ hhigh₂ hpos₂
  have hmodel : (x / y).toModel = .pack (carried
      (leading (m₁ * 2 ^ 53 / m₂) (accuracyOfFraction (m₁ * 2 ^ 53 % m₂) m₂))
      (e₁ - e₂ - 53 + ((m₁ * 2 ^ 53 / m₂).log2 - 52))) := by
    rw [← roundWithAccuracy_eq _ hquotient (by rw [hlog]; split <;> omega)]
    show Float.Model.pack (UnpackedFloat.div _ x.toModel.unpack y.toModel.unpack) = _
    rw [hxeq, hyeq, UnpackedFloat.div, divCore_eq (log2_eq_of_mem hlow₁ hhigh₁)
      (log2_eq_of_mem hlow₂ hhigh₂) hrange]
    rfl
  obtain ⟨hlow, hhigh⟩ := leading_mem hquotient (accuracyOfFraction (m₁ * 2 ^ 53 % m₂) m₂)
  obtain ⟨m, e, hdouble, hcarries⟩ := isDouble_carried hmodel hlow hhigh
    (by rw [hlog]; split <;> omega) (by rw [hlog]; split <;> omega)
  -- one consists of the least mantissa of 53 bits
  have hone : Carries (2 ^ 52) (-52) (2 ^ 52) (-52) := Or.inl ⟨by decide, rfl, rfl⟩
  refine ⟨hdouble.nonneg,
    (hdouble.le_iff isDouble_one).mpr (hcarries.le hone (by decide) ?_)⟩
  rw [hlog]
  split
  · omega
  · rcases hle with hlt | ⟨rfl, hle⟩
    · omega
    · obtain rfl : m₁ = m₂ := by omega
      rw [Nat.mul_div_cancel_left _ hpos₂, Nat.mul_mod_right]
      exact Or.inr ⟨by omega, (leading_mul_two_pow (by decide) (by decide) 1).le⟩

/-- The quotient of two counts, the first not above the second, lies between 0 and 1. -/
theorem toFloat_div_toFloat_mem {p w : Nat} (hle : p ≤ w) (hpos : 0 < w) (hlt : w < 2 ^ 64) :
    0 ≤ p.toFloat / w.toFloat ∧ p.toFloat / w.toFloat ≤ 1 := by
  obtain ⟨m', e', hw, hcarries'⟩ := exists_isDouble_toFloat hpos hlt
  rcases Nat.eq_zero_or_pos p with rfl | hp
  · obtain ⟨_, hweq⟩ := hw.unpack_eq
    have hzero : ((0 : Nat).toFloat / w.toFloat).toModel = .pack (.zero .positive) := by
      show Float.Model.pack (UnpackedFloat.div _ (0 : Nat).toFloat.toModel.unpack
        w.toFloat.toModel.unpack) = _
      rw [hweq]
      rfl
    constructor <;> rw [le_iff_unpack, hzero] <;> rfl
  · obtain ⟨m, e, hpdouble, hcarries⟩ := exists_isDouble_toFloat hp (by omega)
    refine hpdouble.div_mem hw (toFloat_le_toFloat hp hle hlt) ?_
    have hlog := (Nat.log2_lt hpos.ne').mpr hlt
    unfold Carries at hcarries hcarries'
    omega

end Binary64

end DriftChamber
