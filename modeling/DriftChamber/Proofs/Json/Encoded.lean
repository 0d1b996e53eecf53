/-
# Values decoded from their encoding

What is written of a value is read as that value.  Three conditions have to be met, none of them by
all values: a count has as many bits as the field that takes it, a double is finite, and it is read
back from its own digits (`Kept`), since reading rounds as it multiplies by powers of ten.

A double that is not finite is written as null, which no number is read from.  So nothing that holds
one can be decoded, however deep it stands (`isFinite_of_isSome_float?`, `isSome_of_isSome_list?`).
-/
import DriftChamber.Json.Decode
import DriftChamber.Proofs.Json.ReadBack

namespace DriftChamber

namespace Json

/-! ## Doubles -/

/-- A double that is read back from its stored form. -/
def Kept (x : Float) : Prop := float? (.float x) = some x

instance (x : Float) : Decidable (Kept x) :=
  inferInstanceAs (Decidable (float? (.float x) = some x))

/-- A finite double whose digits are read back to it is kept; the others have no digits. -/
theorem kept_of_toFloat? {x : Float} (hfinite : x.isFinite = true)
    (hreads : (Numeral.ofFloat Layout.stored x).toFloat? = some x) : Kept x := by
  rw [Kept, float, if_pos hfinite]
  exact hreads

/-- Not every finite double is kept: the last digit of this one is lost. -/
example : (271.0 / 3.0 : Float).isFinite = true ∧ ¬ Kept (271.0 / 3.0) := by
  decide +kernel

/-- Only from a finite double a number is read. -/
theorem isFinite_of_isSome_float? {x : Float} (h : (float? (.float x)).isSome = true) :
    x.isFinite = true := by
  rw [float] at h
  split at h
  · assumption
  · cases h

/-! ## Counts -/

/-- A count that the field can take is read from its digits. -/
theorem natBelow?_nat {bound n : Nat} (h : n < bound) : natBelow? bound (.nat n) = some n := by
  simp [natBelow?, nat, Numeral.toNat?, Numeral.ofNat, Numeral.isInteger, h]

theorem nat64?_nat {n : Nat} (h : n < UInt64.size) : nat64? (.nat n) = some n := natBelow?_nat h

/-- A word of 32 bits always fits the field that takes it. -/
theorem uint32?_nat (w : UInt32) : uint32? (.nat w.toNat) = some w := by
  rw [uint32?, natBelow?_nat w.toNat_lt, Option.map_some, UInt32.ofNat_toNat]

/-- The sign is read with the digits, also in front of an integer below zero. -/
theorem toInt?_ofInt (i : Int) : (Numeral.ofInt i).toInt? = some i := by
  cases i with
  | ofNat n => rfl
  | negSucc n =>
      have hneg : decide (Int.negSucc n < 0) = true := decide_eq_true (Int.negSucc_lt_zero n)
      rw [Numeral.ofInt, hneg]
      rfl

/-- A signed word always lies in the range that is read. -/
theorem int32?_int (i : Int32) : int32? (.int i.toInt) = some i := by
  have hrange : -0x80000000 ≤ i.toInt ∧ i.toInt < 0x80000000 := ⟨i.le_toInt, i.toInt_lt⟩
  rw [int, int32?, toInt?_ofInt, Option.bind_some, if_pos hrange, Int32.ofInt_toInt]

/-! ## Lists -/

section Lists

variable {β : Type} {encode : β → Json} {decode : Json → Option β}

/-- A list is read back if each of its values is. -/
theorem list?_list {values : List β} (h : ∀ v ∈ values, decode (encode v) = some v) :
    list? decode (.list encode values) = some values :=
  mapM_map_eq_some h

/-- So is a list of fixed size, which has as many values as it is read for. -/
theorem vector?_list {size : Nat} {values : Vector β size}
    (h : ∀ v ∈ values.toList, decode (encode v) = some v) :
    vector? size decode (.list encode values.toList) = some values := by
  rw [vector?, list?_list h, Option.bind_some, dif_pos values.length_toList]
  exact congrArg some (Vector.toList_inj.mp rfl)

/-- A list is decoded only if every value in it is. -/
theorem isSome_of_isSome_list? {values : List β}
    (h : (list? decode (.list encode values)).isSome = true) :
    ∀ v ∈ values, (decode (encode v)).isSome = true := by
  have hitems : ((values.map encode).mapM decode).isSome = true := h
  induction values with
  | nil => exact fun v hv => absurd hv List.not_mem_nil
  | cons v values ih =>
      rw [List.map_cons, List.mapM_cons] at hitems
      obtain ⟨_, hall⟩ := Option.isSome_iff_exists.mp hitems
      obtain ⟨_, hv, hrest⟩ := Option.bind_eq_some_iff.mp hall
      obtain ⟨_, hvalues, -⟩ := Option.bind_eq_some_iff.mp hrest
      have hsome := Option.isSome_of_eq_some hvalues
      exact List.forall_mem_cons.mpr ⟨Option.isSome_of_eq_some hv, ih hsome hsome⟩

theorem isSome_of_isSome_vector? {size : Nat} {values : List β}
    (h : (vector? size decode (.list encode values)).isSome = true) :
    ∀ v ∈ values, (decode (encode v)).isSome = true :=
  isSome_of_isSome_list? (Option.isSome_of_isSome_bind h)

end Lists

/-! ## No part is broken -/

/-- Neither the digits of a double nor a null in their place are broken. -/
theorem whole_float (x : Float) : Whole (.float x) := by
  rw [float]
  split
  · exact .number _
  · exact .null

theorem whole_list {β : Type} {encode : β → Json} {values : List β}
    (h : ∀ v ∈ values, Whole (encode v)) : Whole (.list encode values) :=
  .array (List.forall_mem_map.mpr h)

end Json

end DriftChamber
