/-
# Rounded decimals

Doubles in a fixed number of decimal places, for reports.  The exact value of the double is
rounded to the nearest decimal, a tie to the even one.
-/
import DriftChamber.Decimal.Shortest

namespace DriftChamber

/-- The integer nearest to a quotient, the even one on a tie. -/
def roundHalfEven (numerator denominator : Nat) : Nat :=
  let down := numerator / denominator
  let excess := 2 * (numerator % denominator)
  if excess < denominator || (excess = denominator && down % 2 = 0) then down else down + 1

/-- A finite double rounded to so many decimal places. -/
def Numeral.rounded (places : Nat) (x : Float) : Numeral :=
  let b := Binary.ofFloat x
  let scaled := roundHalfEven (b.mantissa * Nat.pow 2 b.power.toNat * Nat.pow 10 places)
    (Nat.pow 2 (-b.power).toNat)
  ⟨hasSign x, scaled / Nat.pow 10 places, lastDigits places scaled, none⟩

/-- A double in so many decimal places. -/
def fixedText (places : Nat) (x : Float) : String :=
  if x.isFinite then (Numeral.rounded places x).toText else floatText x

end DriftChamber
