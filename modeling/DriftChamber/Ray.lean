/-
# Rays

A ray is a straight line, given at the reference position `z = 0` by its position and its two
slopes.  At `z` it stands at `(x + z * xp, y + z * yp)`.  The same four numbers describe a stub,
the short ray that one chamber sees of a particle, so stubs of different chambers are compared
component by component.
-/
import DriftChamber.Scalar

namespace DriftChamber

/-- A straight line in space, by position and slopes at the reference position. -/
structure Ray (α : Type) where
  /-- Horizontal position. -/
  x : α
  /-- Vertical position. -/
  y : α
  /-- Horizontal slope. -/
  xp : α
  /-- Vertical slope. -/
  yp : α
  deriving DecidableEq, Repr

namespace Ray

variable {α : Type}

/-- The ray with the given four parameters. -/
def ofVector (v : Vector α 4) : Ray α := ⟨v[0], v[1], v[2], v[3]⟩

/-- The four parameters, in order. -/
def toList (r : Ray α) : List α := [r.x, r.y, r.xp, r.yp]

variable [Scalar α]

/-- Difference, component by component. -/
def sub (r s : Ray α) : Ray α := ⟨r.x - s.x, r.y - s.y, r.xp - s.xp, r.yp - s.yp⟩

/-- Whether all four parameters are finite. -/
def isFinite (r : Ray α) : Bool := r.toList.all Scalar.isFinite

end Ray

end DriftChamber
