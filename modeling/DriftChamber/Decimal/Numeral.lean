/-
# Numerals

A number as it is written: sign, whole part, decimal places and power of ten.  The grammar is the
one of JSON: no leading zeros, digits on both sides of the point, no plus sign in front.

* `Numeral.print` writes a numeral;
* `Numeral.read` reads the longest numeral that a text starts with;
* `Numeral.toNat?`, `Numeral.toInt?` and `Numeral.toFloat?` say which number it stands for.
-/
import DriftChamber.Decimal.Digits

namespace DriftChamber

/-- A decimal number as written. -/
structure Numeral where
  /-- Whether there is a minus sign. -/
  negative : Bool
  /-- The part before the point. -/
  whole : Nat
  /-- The digits after the point; none means that there is no point. -/
  fraction : List Digit
  /-- The power of ten, if one is written. -/
  exponent : Option Int
  deriving DecidableEq, Repr

namespace Numeral

/-! ## Writing -/

/-- A natural number without sign. -/
def ofNat (n : Nat) : Numeral := ⟨false, n, [], none⟩

/-- An integer, with a sign if it is negative. -/
def ofInt (n : Int) : Numeral := ⟨decide (n < 0), n.natAbs, [], none⟩

/-- The power of ten as text; its sign is always written. -/
def printExponent : Option Int → List Char
  | none => []
  | some e => 'e' :: (if e < 0 then '-' else '+') :: (digits e.natAbs).map Digit.toChar

/-- The decimal places as text. -/
def printFraction : List Digit → List Char
  | [] => []
  | ds@(_ :: _) => '.' :: ds.map Digit.toChar

/-- The numeral as text. -/
def print (n : Numeral) : List Char :=
  (if n.negative then ['-'] else []) ++ (digits n.whole).map Digit.toChar ++
    printFraction n.fraction ++ printExponent n.exponent

/-- The numeral as text. -/
def toText (n : Numeral) : String := String.ofList n.print

/-! ## Reading -/

/-- Reads the sign. -/
def readSign : List Char → Bool × List Char
  | '-' :: rest => (true, rest)
  | cs => (false, cs)

/-- Reads the part before the point: one digit at least, and no zero in front of others. -/
def readWhole (cs : List Char) : Option (Nat × List Char) :=
  match takeDigits cs with
  | ([], _) => none
  | ([d], rest) => some (d.val, rest)
  | (d :: ds, rest) => if d = Digit.zero then none else some (ofDigits (d :: ds), rest)

/-- Reads the decimal places, if there is a point. -/
def readFraction : List Char → Option (List Digit × List Char)
  | '.' :: rest =>
      match takeDigits rest with
      | ([], _) => none
      | (ds, after) => some (ds, after)
  | cs => some ([], cs)

/-- Reads the sign of a power of ten. -/
def readExponentSign : List Char → Bool × List Char
  | '-' :: rest => (true, rest)
  | '+' :: rest => (false, rest)
  | cs => (false, cs)

/-- Reads the power of ten after its mark. -/
def readPower (cs : List Char) : Option (Option Int × List Char) :=
  let (negative, rest) := readExponentSign cs
  match takeDigits rest with
  | ([], _) => none
  | (ds, after) =>
      let size : Int := ofDigits ds
      some (some (if negative then -size else size), after)

/-- Reads the power of ten, if there is one. -/
def readExponent : List Char → Option (Option Int × List Char)
  | 'e' :: rest => readPower rest
  | 'E' :: rest => readPower rest
  | cs => some (none, cs)

/-- Reads the longest numeral that a text starts with. -/
def read (cs : List Char) : Option (Numeral × List Char) := do
  let (negative, cs) := readSign cs
  let (whole, cs) ← readWhole cs
  let (fraction, cs) ← readFraction cs
  let (exponent, cs) ← readExponent cs
  return (⟨negative, whole, fraction, exponent⟩, cs)

/-! ## Value -/

/-- Whether the numeral is written with digits only. -/
def isInteger (n : Numeral) : Bool := n.fraction.isEmpty && n.exponent.isNone

/-- The natural number, if the numeral is an integer without sign. -/
def toNat? (n : Numeral) : Option Nat :=
  if n.isInteger && !n.negative then some n.whole else none

/-- The integer, if the numeral is one.  Zero with a sign is not: it stands for the negative zero,
which no integer is. -/
def toInt? (n : Numeral) : Option Int :=
  if n.isInteger then
    if n.negative then (if n.whole = 0 then none else some (-n.whole)) else some n.whole
  else none

/-- Digits appended to a number as long as it stays below `2 ^ 64`, and the digits from the first
that does not fit. -/
def absorb (n : Nat) : List Digit → Nat × List Digit
  | [] => (n, [])
  | d :: ds => if 10 * n + d.val < UInt64.size then absorb (10 * n + d.val) ds else (n, d :: ds)

/-- The leading digits as a number of 64 bits, and the power of ten that it is multiplied by.
Digits that do not fit count as zeros. -/
def scientific (n : Numeral) : Nat × Int :=
  let (whole, dropped) := absorb 0 (digits n.whole)
  let (significand, unused) := absorb whole n.fraction
  let places : Int := n.fraction.length - unused.length
  (significand, dropped.length - places + n.exponent.getD 0)

/-- The largest power of ten that is a double. -/
def maxPower : Nat := 308

/-- The double nearest to a power of ten. -/
def tenTo (power : Nat) : Float := Float.ofScientific 1 false power

/-- A double multiplied or divided by a power of ten, unless that is too large.  It takes one
rounding, or several where the power itself is no double. -/
def timesTenTo? (x : Float) (power : Int) : Option Float :=
  if power.natAbs ≤ maxPower then
    let scaled := if 0 ≤ power then x * tenTo power.toNat else x / tenTo power.natAbs
    if scaled.isFinite then some scaled else none
  else if x == 0 then some x
  else if 0 ≤ power then none
  else timesTenTo? (x / tenTo maxPower) (power + maxPower)
termination_by power.natAbs
decreasing_by simp only [maxPower] at *; omega

/-- The double that the numeral stands for, unless it is too large: its leading digits as a double,
times a power of ten.  Up to fifteen digits and powers up to `10 ^ 22` this is the nearest one. -/
def toFloat? (n : Numeral) : Option Float :=
  let (significand, power) := n.scientific
  (timesTenTo? significand.toFloat power).map fun size => if n.negative then -size else size

end Numeral

end DriftChamber
