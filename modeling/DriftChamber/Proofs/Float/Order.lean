/-
# The order of doubles

Doubles other than NaN stand on a line (`Binary64.place?`), and `<` and `≤` compare their places
(`Binary64.lt_iff_place`, `Binary64.le_iff_place`).  NaN has no place, so it is neither above nor
below anything.  Hence the laws of an order hold as far as they do not ask whether values can be
compared at all; where they do, NaN has to be ruled out (`Binary64.le_of_not_gt`),
as a check for finite positive values does (`Binary64.isPositive_eq_false_iff`).

Under the strict total order (`Scalar.precedes`) NaN has a place as well, in front of all others,
and each zero has its own (`Binary64.totalPlace`).
-/
import DriftChamber.Proofs.Float.Fraction
import DriftChamber.Scalar

namespace DriftChamber

namespace Binary64

open Float.Model (Format UnpackedFloat)
open Float.Model.UnpackedFloat

/-! ## The line of numbers -/

/-- Where a value stands on the line: infinities outermost, else by sign, exponent and mantissa.  A
value that is no number stands nowhere. -/
def place? : UnpackedFloat → Option (ℤ ×ₗ ℤ ×ₗ ℤ)
  | .notANumber => none
  | .infinity .negative => some (toLex (-2, toLex (0, 0)))
  | .finite .negative m e _ => some (toLex (-1, toLex (-e, -m)))
  | .zero _ => some (toLex (0, toLex (0, 0)))
  | .finite .positive m e _ => some (toLex (1, toLex (e, m)))
  | .infinity .positive => some (toLex (2, toLex (0, 0)))

/-- NaN is all that stands nowhere. -/
theorem place?_eq_none_iff {u : UnpackedFloat} : place? u = none ↔ u.isNaN = true := by
  rcases u with (_ | _) | _ | _ | ⟨_ | _, m, e, hm⟩ <;> simp [place?, UnpackedFloat.isNaN]

/-- Pairs are compared by their second parts where the first ones agree, which is how the model of
doubles compares exponents and then mantissas. -/
theorem compare_toLex {α β : Type} [LinearOrder α] [LinearOrder β] (a a' : α) (b b' : β) :
    compare (toLex (a, b)) (toLex (a', b')) = (compare a a').then (compare b b') := by
  rw [Prod.Lex.compare_def]
  rfl

/-- Below zero the order is turned around. -/
theorem compare_neg (a b : ℤ) : compare (-a) (-b) = (compare a b).swap := by
  rcases lt_trichotomy a b with h | h | h
  · rw [compare_lt_iff_lt.mpr h, compare_gt_iff_gt.mpr (by omega)]
    rfl
  · rw [compare_eq_iff_eq.mpr h, compare_eq_iff_eq.mpr (by omega)]
    rfl
  · rw [compare_gt_iff_gt.mpr h, compare_lt_iff_lt.mpr (by omega)]
    rfl

theorem compare_natCast (a b : ℕ) : compare (a : ℤ) b = compare a b := by
  rcases lt_trichotomy a b with h | h | h
  · rw [compare_lt_iff_lt.mpr h, compare_lt_iff_lt.mpr (by omega)]
  · rw [compare_eq_iff_eq.mpr h, compare_eq_iff_eq.mpr (by omega)]
  · rw [compare_gt_iff_gt.mpr h, compare_gt_iff_gt.mpr (by omega)]

/-- Values are compared by their places. -/
theorem compare_eq_place (u v : UnpackedFloat) :
    u.compare v = (place? u).bind fun a => (place? v).map fun b => compare a b := by
  rcases u with (_ | _) | _ | _ | ⟨_ | _, m, e, hm⟩ <;>
    rcases v with (_ | _) | _ | _ | ⟨_ | _, m', e', hm'⟩
  -- only finite values of the same sign leave something to compare
  case finite.negative.finite.negative =>
    simp only [UnpackedFloat.compare, place?, Option.bind_some, Option.map_some, compare_toLex,
      compare_neg, compare_natCast, Ordering.swap_then]
    rfl
  case finite.positive.finite.positive =>
    simp only [UnpackedFloat.compare, place?, Option.bind_some, Option.map_some, compare_toLex,
      compare_natCast]
    rfl
  all_goals rfl

section Doubles

variable {x y z : Float}

/-- A double is below another one if both have a place and theirs are in this order. -/
theorem lt_iff_place :
    x < y ↔ ∃ a b, place? x.toModel.unpack = some a ∧ place? y.toModel.unpack = some b ∧
      a < b := by
  have hlt : x < y ↔ x.toModel.unpack.compare y.toModel.unpack = some .lt := by
    show decide (x.toModel < y.toModel) = true ↔ _
    rw [decide_eq_true_iff]
    exact beq_iff_eq
  rw [hlt, compare_eq_place, Option.bind_eq_some_iff]
  simp only [Option.map_eq_some_iff, compare_lt_iff_lt, exists_and_left]

/-- The same of the order that is not strict. -/
theorem le_iff_place :
    x ≤ y ↔ ∃ a b, place? x.toModel.unpack = some a ∧ place? y.toModel.unpack = some b ∧
      a ≤ b := by
  rw [le_iff_unpack, UnpackedFloat.le, compare_eq_place, Option.any_eq_true]
  simp only [Option.bind_eq_some_iff, Option.map_eq_some_iff]
  constructor
  · rintro ⟨o, ⟨a, ha, b, hb, rfl⟩, hle⟩
    exact ⟨a, b, ha, hb, compare_le_iff_le.mp (Ordering.isLE_iff_ne_gt.mp hle)⟩
  · rintro ⟨a, b, ha, hb, hle⟩
    exact ⟨_, ⟨a, ha, b, hb, rfl⟩, Ordering.isLE_iff_ne_gt.mpr (compare_le_iff_le.mpr hle)⟩

/-- Every number stands somewhere. -/
theorem exists_place (h : x.isNaN = false) : ∃ a, place? x.toModel.unpack = some a := by
  refine Option.ne_none_iff_exists'.mp fun hnone => ?_
  have hnan : x.isNaN = true := place?_eq_none_iff.mp hnone
  rw [h] at hnan
  cases hnan

/-! ## Laws of the order -/

protected theorem le_of_lt (h : x < y) : x ≤ y := by
  obtain ⟨a, b, ha, hb, hlt⟩ := lt_iff_place.mp h
  exact le_iff_place.mpr ⟨a, b, ha, hb, le_of_lt hlt⟩

protected theorem lt_of_le_of_lt (h : x ≤ y) (h' : y < z) : x < z := by
  obtain ⟨a, b, ha, hb, hle⟩ := le_iff_place.mp h
  obtain ⟨b', d, hb', hd, hlt⟩ := lt_iff_place.mp h'
  rw [hb, Option.some_inj] at hb'
  subst hb'
  exact lt_iff_place.mpr ⟨a, d, ha, hd, lt_of_le_of_lt hle hlt⟩

protected theorem lt_of_lt_of_le (h : x < y) (h' : y ≤ z) : x < z := by
  obtain ⟨a, b, ha, hb, hlt⟩ := lt_iff_place.mp h
  obtain ⟨b', d, hb', hd, hle⟩ := le_iff_place.mp h'
  rw [hb, Option.some_inj] at hb'
  subst hb'
  exact lt_iff_place.mpr ⟨a, d, ha, hd, lt_of_lt_of_le hlt hle⟩

protected theorem lt_irrefl : ¬x < x := by
  intro h
  obtain ⟨a, b, ha, hb, hlt⟩ := lt_iff_place.mp h
  rw [ha, Option.some_inj] at hb
  exact absurd hlt (hb ▸ lt_irrefl a)

/-- What is below something is a number. -/
theorem isNaN_of_lt (h : x < y) : x.isNaN = false := by
  obtain ⟨a, b, ha, -⟩ := lt_iff_place.mp h
  rw [Bool.eq_false_iff]
  intro hnan
  have hnone : place? x.toModel.unpack = none := place?_eq_none_iff.mpr hnan
  rw [ha] at hnone
  cases hnone

/-- Numbers are in order one way or the other. -/
protected theorem le_of_not_gt (hx : x.isNaN = false) (hy : y.isNaN = false) (h : ¬y < x) :
    x ≤ y := by
  obtain ⟨a, ha⟩ := exists_place hx
  obtain ⟨b, hb⟩ := exists_place hy
  have hle : a ≤ b := le_of_not_gt fun hlt => h (lt_iff_place.mpr ⟨b, a, hb, ha, hlt⟩)
  exact le_iff_place.mpr ⟨a, b, ha, hb, hle⟩

theorem isNaN_of_isFinite (h : x.isFinite = true) : x.isNaN = false := by
  show x.toModel.unpack.isNaN = false
  have hfinite : x.toModel.unpack.isFinite = true := h
  cases hunpack : x.toModel.unpack with
  | notANumber =>
      rw [hunpack] at hfinite
      cases hfinite
  | _ => rfl

/-- What a check for finite positive values refuses is not finite, or not above zero. -/
theorem isPositive_eq_false_iff : Scalar.isPositive x = false ↔ x.isFinite = false ∨ x ≤ 0 := by
  have hzero : (0 : Float).isNaN = false := by decide
  show (x.isFinite && decide (0 < x)) = false ↔ _
  rw [Bool.and_eq_false_iff, decide_eq_false_iff_not]
  constructor
  · rintro (hinfinite | hpos)
    · exact Or.inl hinfinite
    · cases hfinite : x.isFinite with
      | false => exact Or.inl rfl
      | true => exact Or.inr (Binary64.le_of_not_gt (isNaN_of_isFinite hfinite) hzero hpos)
  · rintro (hinfinite | hle)
    · exact Or.inl hinfinite
    · exact Or.inr fun hpos => Binary64.lt_irrefl (Binary64.lt_of_le_of_lt hle hpos)

/-! ## Magnitudes -/

/-- What is packed from a number is not the pattern that stands for none. -/
theorem pack_ne_packedNaN {u : UnpackedFloat} (h : u.isNaN = false) :
    UnpackedFloat.pack .binary64 u ≠ packedNaN .binary64 := by
  cases u with
  | notANumber => cases h
  | infinity s => cases s <;> decide
  | zero s => cases s <;> decide
  | finite s m e hm =>
      unfold UnpackedFloat.pack
      simp only
      split
      · cases s <;> decide
      · next hexponent =>
          -- a finite number is packed with an exponent other than the greatest
          split <;> intro heq <;> have hbits := congrArg unpackExponent heq <;>
            simp only [packedNaN, unpackExponent_packComponents] at hbits
          · exact ofNat_ne_allOnes (by omega) hbits
          · exact absurd hbits (by decide)

/-- The magnitude of a number is a number. -/
theorem isNaN_abs (h : x.isNaN = false) : x.abs.isNaN = false := by
  have hunpack : x.toModel.unpack.abs.isNaN = x.toModel.unpack.isNaN := by
    cases x.toModel.unpack <;> rfl
  rw [Bool.eq_false_iff]
  intro hnan
  exact pack_ne_packedNaN (hunpack.trans h) ((isNaN_unpack_iff_of_valid valid_pack).mp hnan)

end Doubles

/-! ## The strict total order -/

/-- Where a double stands among all doubles, in front of them if it is no number. -/
def totalPlace (x : Float) : WithBot ℤ := if x.isNaN then ⊥ else Scalar.linePosition x

/-- The strict total order compares places. -/
theorem precedes_eq (x y : Float) :
    Scalar.precedes x y = decide (totalPlace x < totalPlace y) := by
  show Scalar.comesBefore x y = _
  unfold Scalar.comesBefore totalPlace
  cases x.isNaN <;> cases y.isNaN <;> simp

/-- The strict total order tells all bit patterns of numbers apart, also those of the two zeros. -/
theorem linePosition_injective : Function.Injective Scalar.linePosition := by
  intro x y h
  have hx := x.toBits.toNat_lt
  have hy := y.toBits.toNat_lt
  -- numbers with a sign stand below zero, those without from zero on
  have hbits : x.toBits.toNat = y.toBits.toNat := by
    simp only [Scalar.linePosition] at h
    split at h <;> split at h <;> omega
  exact Float.toBits_inj.mp (UInt64.toNat_inj.mp hbits)

/-- There is one double that is no number. -/
theorem eq_of_isNaN {x y : Float} (hx : x.isNaN = true) (hy : y.isNaN = true) : x = y := by
  have hbits : ∀ {z : Float}, z.isNaN = true → z.toBits.toBitVec = packedNaN .binary64 :=
    fun {z} hz => (isNaN_unpack_iff_of_valid z.toModel.valid).mp hz
  exact Float.toBits_inj.mp (UInt64.toBitVec_inj.mp ((hbits hx).trans (hbits hy).symm))

theorem totalPlace_injective : Function.Injective totalPlace := by
  intro x y h
  unfold totalPlace at h
  cases hx : x.isNaN <;> cases hy : y.isNaN <;> simp only [hx, hy] at h
  · exact linePosition_injective (WithBot.coe_injective h)
  · cases h
  · cases h
  · exact eq_of_isNaN hx hy

/-- Of two doubles one comes before the other, or they are the same. -/
theorem precedes_trichotomous (x y : Float) :
    Scalar.precedes x y = true ∨ x = y ∨ Scalar.precedes y x = true := by
  simp only [precedes_eq, decide_eq_true_eq, ← totalPlace_injective.eq_iff]
  exact lt_trichotomy _ _

end Binary64

end DriftChamber
