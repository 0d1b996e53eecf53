/-
# Decimal digits

Natural numbers as lists of decimal digits, most significant first, and digits as characters.

* `digits` writes a number without leading zeros, and `ofDigits` reads it back;
* `lastDigits` writes a fixed number of places;
* `takeDigits` splits off the digits that a text starts with.
-/
namespace DriftChamber

/-- A decimal digit. -/
abbrev Digit : Type := Fin 10

namespace Digit

/-- The digit 0. -/
def zero : Digit := ⟨0, by decide⟩

/-- The digit as a character. -/
def toChar (d : Digit) : Char := Char.ofNat (48 + d.val)

/-- The digit that a character stands for. -/
def ofChar? (c : Char) : Option Digit :=
  if h : 48 ≤ c.toNat ∧ c.toNat < 58 then some ⟨c.toNat - 48, by omega⟩ else none

/-- The last digit of a number. -/
def last (n : Nat) : Digit := ⟨n % 10, Nat.mod_lt n (by decide)⟩

/-- A digit is read back from its character. -/
theorem ofChar?_toChar (d : Digit) : ofChar? d.toChar = some d := by
  revert d
  decide

end Digit

/-- The digits of a number, without leading zeros; zero has the one digit 0. -/
def digits (n : Nat) : List Digit :=
  if n < 10 then [Digit.last n] else digits (n / 10) ++ [Digit.last n]
termination_by n
decreasing_by omega

/-- Every number has a digit. -/
theorem digits_ne_nil (n : Nat) : digits n ≠ [] := by
  rw [digits]
  split <;> simp

/-- The last digits of a number, in a fixed number of places. -/
def lastDigits : Nat → Nat → List Digit
  | 0, _ => []
  | places + 1, n => lastDigits places (n / 10) ++ [Digit.last n]

/-- The last digits fill their places. -/
theorem length_lastDigits (places n : Nat) : (lastDigits places n).length = places := by
  induction places generalizing n with
  | zero => rfl
  | succ places ih => rw [lastDigits, List.length_append, ih]; rfl

/-- The number that has the given digits. -/
def ofDigits (ds : List Digit) : Nat := ds.foldl (fun n d => 10 * n + d.val) 0

/-- The last digit stands behind the others. -/
theorem ofDigits_append_singleton (ds : List Digit) (d : Digit) :
    ofDigits (ds ++ [d]) = 10 * ofDigits ds + d.val := by
  simp [ofDigits, List.foldl_append]

/-- A number is read back from its digits. -/
theorem ofDigits_digits (n : Nat) : ofDigits (digits n) = n := by
  induction n using digits.induct with
  | case1 n h =>
      rw [digits, if_pos h]
      simp only [ofDigits, List.foldl_cons, List.foldl_nil, Digit.last]
      omega
  | case2 n h ih =>
      rw [digits, if_neg h, ofDigits_append_singleton, ih]
      simp only [Digit.last]
      omega

/-- The digits that a text starts with, and the rest of the text. -/
def takeDigits : List Char → List Digit × List Char
  | [] => ([], [])
  | c :: rest =>
      match Digit.ofChar? c with
      | some d => let (ds, after) := takeDigits rest; (d :: ds, after)
      | none => ([], c :: rest)

/-- The digits that a text starts with are split off, and nothing else. -/
theorem takeDigits_map_toChar (ds : List Digit) (rest : List Char)
    (h : rest.head?.bind Digit.ofChar? = none) :
    takeDigits (ds.map Digit.toChar ++ rest) = (ds, rest) := by
  induction ds with
  | nil =>
      cases rest with
      | nil => rfl
      | cons c rest =>
          have hc : Digit.ofChar? c = none := by simpa using h
          simp [takeDigits, hc]
  | cons d ds ih => simp [takeDigits, Digit.ofChar?_toChar, ih]

end DriftChamber
