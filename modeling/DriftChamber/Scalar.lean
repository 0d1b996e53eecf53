/-
# Scalars

The arithmetic of coordinates.  Projection, linking and fitting are written once, over any type
with the operations below, and are used at two instances:

* `Float`, IEEE double precision, in which events are tracked;
* `Rat`, exact rational arithmetic, in which the laws of the fit hold without rounding.

The class asks for operations only and promises no law: a double obeys few of them.
-/
namespace DriftChamber

/-- The operations that tracking needs of its numbers. -/
class Scalar (α : Type) extends
    Zero α, One α, NatCast α, Add α, Sub α, Mul α, Div α, Neg α, LT α, LE α where
  /-- The order is decidable. -/
  decLt : (a b : α) → Decidable (a < b)
  /-- Magnitude. -/
  abs : α → α
  /-- Whether the value equals zero, of either sign. -/
  isZero : α → Bool
  /-- Whether the value is a number, and not an infinite one. -/
  isFinite : α → Bool
  /-- Strict total order on all values, also on those that `<` leaves unordered. -/
  precedes : α → α → Bool

namespace Scalar

variable {α : Type} [Scalar α]

instance (a b : α) : Decidable (a < b) := Scalar.decLt a b

/-- Finite and above zero: what a resolution or a tolerance has to be. -/
def isPositive (a : α) : Bool := isFinite a && decide (0 < a)

/-- The square, as one product. -/
def square (a : α) : α := a * a

/-- Sum from the left.  It starts from the negated zero, the neutral element of rounded addition:
a list of negative zeros keeps its sign. -/
def sum (values : List α) : α := values.foldl (· + ·) (-0)

/-- The first of the least values under `precedes`, with what it is attached to. -/
def firstLeast {β : Type} : List (α × β) → Option (α × β)
  | [] => none
  | entry :: rest =>
      some (rest.foldl (fun best next => if precedes next.1 best.1 then next else best) entry)

/-! ## Double precision -/

/-- Position of a double on the line of all doubles, negative zero right before zero. -/
def linePosition (a : Float) : Int :=
  let bits := a.toBits.toNat
  if bits < 0x8000000000000000 then bits else 0x7fffffffffffffff - (bits : Int)

/-- Strict total order on doubles: a value that is no number comes first, then the line from
negative infinity to infinity. -/
def comesBefore (a b : Float) : Bool :=
  if a.isNaN then !b.isNaN
  else if b.isNaN then false
  else decide (linePosition a < linePosition b)

instance : Scalar Float where
  zero := 0
  one := 1
  natCast := Float.ofNat
  decLt := fun a b => inferInstanceAs (Decidable (a < b))
  abs := Float.abs
  isZero := fun a => a == 0
  isFinite := Float.isFinite
  precedes := comesBefore

/-! ## Exact arithmetic -/

instance : Scalar Rat where
  zero := 0
  one := 1
  decLt := fun a b => inferInstanceAs (Decidable (a < b))
  abs := Rat.abs
  isZero := fun a => a == 0
  isFinite := fun _ => true
  precedes := fun a b => decide (a < b)

end Scalar

end DriftChamber
