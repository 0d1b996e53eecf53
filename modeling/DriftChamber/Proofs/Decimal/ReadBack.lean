/-
# Reading numerals back

Every numeral is read back from its text, whatever follows that does not go on with the number
(`Numeral.read_print`).  The text is read from the left: sign, whole part, decimal places, power of
ten; each part ends where the next one begins, so each reader is shown to stop there.
-/
import Mathlib
import DriftChamber.Decimal.Numeral

namespace DriftChamber

/-! ## Leading zeros -/

/-- A number other than zero does not start with the digit 0. -/
theorem head?_digits_ne_zero {n : Nat} (h : 0 < n) : (digits n).head? ≠ some Digit.zero := by
  induction n using digits.induct with
  | case1 n hsmall =>
      rw [digits, if_pos hsmall]
      intro hzero
      have hlast : n % 10 = 0 := congrArg Fin.val (Option.some.inj hzero)
      omega
  | case2 n hlarge ih =>
      rw [digits, if_neg hlarge, List.head?_append_of_ne_nil _ (digits_ne_nil _)]
      exact ih (by omega)

/-- Only a single digit may be 0 in front. -/
theorem ne_zero_of_digits_eq_cons {n : Nat} {d e : Digit} {ds : List Digit}
    (h : digits n = d :: e :: ds) : d ≠ Digit.zero := by
  rintro rfl
  refine head?_digits_ne_zero (n := n) ?_ (by rw [h]; rfl)
  by_contra hzero
  rw [digits, if_pos (by omega)] at h
  exact absurd (congrArg List.length h) (by simp)

namespace Digit

/-- A digit is none of the marks in a number. -/
theorem toChar_ne (d : Digit) :
    d.toChar ≠ '-' ∧ d.toChar ≠ '+' ∧ d.toChar ≠ '.' ∧ d.toChar ≠ 'e' ∧ d.toChar ≠ 'E' := by
  revert d
  decide

end Digit

namespace Numeral

/-! ## The readers one by one -/

/-- What may follow a number: nothing that would go on with it. -/
def Ends (rest : List Char) : Prop :=
  ∀ c ∈ rest.head?, Digit.ofChar? c = none ∧ c ≠ '.' ∧ c ≠ 'e' ∧ c ≠ 'E'

theorem ends_nil : Ends [] := nofun

theorem ends_cons {c : Char} {rest : List Char}
    (h : Digit.ofChar? c = none ∧ c ≠ '.' ∧ c ≠ 'e' ∧ c ≠ 'E') : Ends (c :: rest) := by
  intro c' hc'
  cases hc'
  exact h

theorem Ends.bind_ofChar? {rest : List Char} (h : Ends rest) :
    rest.head?.bind Digit.ofChar? = none := by
  cases hhead : rest.head? with
  | none => rfl
  | some c => exact (h c hhead).1

theorem readWhole_digits (n : Nat) {rest : List Char}
    (h : rest.head?.bind Digit.ofChar? = none) :
    readWhole ((digits n).map Digit.toChar ++ rest) = some (n, rest) := by
  have hvalue := ofDigits_digits n
  rw [readWhole, takeDigits_map_toChar _ _ h]
  rcases hdigits : digits n with _ | ⟨d, _ | ⟨e, ds⟩⟩
  · exact absurd hdigits (digits_ne_nil n)
  · rw [hdigits] at hvalue
    simp only [← hvalue, ofDigits, List.foldl_cons, List.foldl_nil, Nat.mul_zero, Nat.zero_add]
  · rw [hdigits] at hvalue
    simp only [if_neg (ne_zero_of_digits_eq_cons hdigits), hvalue]

theorem readFraction_printFraction (ds : List Digit) {rest : List Char}
    (hdigit : rest.head?.bind Digit.ofChar? = none) (hpoint : rest.head? ≠ some '.') :
    readFraction (printFraction ds ++ rest) = some (ds, rest) := by
  cases ds with
  | nil =>
      show readFraction rest = _
      unfold readFraction
      split
      · exact absurd rfl hpoint
      · rfl
  | cons d ds =>
      rw [printFraction, List.cons_append, readFraction, takeDigits_map_toChar _ _ hdigit]

/-- A power of ten is read back behind its mark. -/
theorem readPower_digits (negative : Bool) (n : Nat) {rest : List Char}
    (h : rest.head?.bind Digit.ofChar? = none) :
    readPower ((if negative then '-' else '+') :: ((digits n).map Digit.toChar ++ rest)) =
      some (some (if negative then -(n : Int) else n), rest) := by
  have hmark : readExponentSign
      ((if negative then '-' else '+') :: ((digits n).map Digit.toChar ++ rest)) =
        (negative, (digits n).map Digit.toChar ++ rest) := by
    cases negative <;> rfl
  have hvalue := ofDigits_digits n
  rw [readPower, hmark]
  simp only [takeDigits_map_toChar _ _ h]
  obtain ⟨d, ds, hdigits⟩ := List.exists_cons_of_ne_nil (digits_ne_nil n)
  rw [hdigits] at hvalue
  simp only [hdigits, hvalue]

theorem readExponent_printExponent (exponent : Option Int) {rest : List Char} (h : Ends rest) :
    readExponent (printExponent exponent ++ rest) = some (exponent, rest) := by
  cases exponent with
  | none =>
      show readExponent rest = _
      unfold readExponent
      split
      · exact absurd rfl (h _ rfl).2.2.1
      · exact absurd rfl (h _ rfl).2.2.2
      · rfl
  | some e =>
      have hsize : (if decide (e < 0) then -(e.natAbs : Int) else e.natAbs) = e := by
        by_cases hsign : e < 0
        · rw [if_pos (decide_eq_true hsign)]
          omega
        · rw [if_neg (by simp [hsign])]
          omega
      show readPower ((if e < 0 then '-' else '+') ::
        ((digits e.natAbs).map Digit.toChar ++ rest)) = _
      have hread := readPower_digits (decide (e < 0)) e.natAbs h.bind_ofChar?
      rw [hsize] at hread
      simpa using hread

/-! ## Where each part ends -/

/-- A power of ten starts with neither a digit nor a point, and nor does what follows a number. -/
theorem head?_printExponent_append (exponent : Option Int) {rest : List Char} (h : Ends rest) :
    (printExponent exponent ++ rest).head?.bind Digit.ofChar? = none ∧
      (printExponent exponent ++ rest).head? ≠ some '.' := by
  cases exponent with
  | none => exact ⟨h.bind_ofChar?, fun hpoint => (h _ hpoint).2.1 rfl⟩
  | some e =>
      show Digit.ofChar? 'e' = none ∧ some 'e' ≠ some '.'
      decide

/-- The decimal places do not start with a digit. -/
theorem head?_printFraction_append (ds : List Digit) {rest : List Char}
    (h : rest.head?.bind Digit.ofChar? = none) :
    (printFraction ds ++ rest).head?.bind Digit.ofChar? = none := by
  cases ds with
  | nil => exact h
  | cons d ds =>
      show Digit.ofChar? '.' = none
      decide

/-- The sign is told from the digits behind it. -/
theorem readSign_append (negative : Bool) (n : Nat) (rest : List Char) :
    readSign ((if negative then ['-'] else []) ++ ((digits n).map Digit.toChar ++ rest)) =
      (negative, (digits n).map Digit.toChar ++ rest) := by
  cases negative with
  | true => rfl
  | false =>
      obtain ⟨d, ds, hdigits⟩ := List.exists_cons_of_ne_nil (digits_ne_nil n)
      rw [hdigits]
      show readSign (d.toChar :: (ds.map Digit.toChar ++ rest)) = _
      unfold readSign
      split
      · next heq => exact absurd (List.cons.inj heq).1 d.toChar_ne.1
      · rfl

/-! ## The whole numeral -/

/-- A numeral is read back from its text, and what follows it is left over. -/
theorem read_print (n : Numeral) {rest : List Char} (h : Ends rest) :
    read (n.print ++ rest) = some (n, rest) := by
  obtain ⟨hdigit, hpoint⟩ := head?_printExponent_append n.exponent h
  have hfraction := head?_printFraction_append n.fraction hdigit
  simp only [print, List.append_assoc]
  simp [read, readSign_append, readWhole_digits n.whole hfraction,
    readFraction_printFraction n.fraction hdigit hpoint,
    readExponent_printExponent n.exponent h]

/-- A numeral starts with a minus sign or a digit. -/
theorem exists_print_eq_cons (n : Numeral) :
    ∃ c cs, n.print = c :: cs ∧ (c = '-' ∨ ∃ d : Digit, c = d.toChar) := by
  obtain ⟨d, ds, hdigits⟩ := List.exists_cons_of_ne_nil (digits_ne_nil n.whole)
  cases hsign : n.negative with
  | true => exact ⟨'-', _, by simp [print, hsign]; rfl, .inl rfl⟩
  | false => exact ⟨d.toChar, _, by simp [print, hsign, hdigits]; rfl, .inr ⟨d, rfl⟩⟩

end Numeral

end DriftChamber
