/-
# Wire planes

A wire plane measures one coordinate of a crossing ray.  Nine coefficients give that coordinate
as a rational function of the ray:

  numerator   = xp * y * k0 + yp * x * k1 + xp * k2 + yp * k3 + x * k4 + y * k5
  denominator = xp * k6 + yp * k7 + k8

An ideal plane stands at right angles to the axis.  Its function is linear: the coefficients of
the two products and of the slopes in the denominator vanish.
-/
import DriftChamber.Ray

namespace DriftChamber

/-- The projection coefficients of a plane. -/
abbrev Coefficients (α : Type) : Type := Vector α 9

/-- One wire plane. -/
structure Plane (α : Type) where
  /-- Number of the chamber that the plane belongs to, from 1. -/
  chamber : Nat
  /-- Uncertainty of the measured coordinate. -/
  sigma : α
  /-- Projection coefficients. -/
  coefficients : Coefficients α
  deriving DecidableEq, Repr

section Projection

variable {α : Type} [Scalar α]

/-- The coordinate that stands for a ray parallel to the plane. -/
def farAway : α := ((100000000000000000000 : Nat) : α)

/-- Denominators of smaller magnitude count as zero. -/
def nearlyParallel : α := 1 / farAway

/-- Coordinate at which a ray crosses a plane with the given coefficients, or `farAway` if it
hardly crosses it. -/
def projection (r : Ray α) (k : Coefficients α) : α :=
  let numerator :=
    r.xp * r.y * k[0] + r.yp * r.x * k[1] + r.xp * k[2] + r.yp * k[3] + r.x * k[4] + r.y * k[5]
  let denominator := r.xp * k[6] + r.yp * k[7] + k[8]
  if Scalar.abs denominator < nearlyParallel then farAway else numerator / denominator

end Projection

namespace Plane

variable {α : Type} [Scalar α]

/-- Coordinate at which a ray crosses the plane. -/
def project (p : Plane α) (r : Ray α) : α := projection r p.coefficients

/-- What one measurement on the plane counts in a fit: the inverse square of its uncertainty. -/
def weight (p : Plane α) : α := 1 / Scalar.square p.sigma

/-- The ideal plane at `z` that measures `cos * X + sin * Y`. -/
def ofDirection (chamber : Nat) (sigma z cos sin : α) : Plane α where
  chamber := chamber
  sigma := sigma
  coefficients := #v[0, 0, z * cos, z * sin, cos, sin, 0, 0, 1]

/-- The ideal plane at `z` that measures along `angle`, in radians from the horizontal axis. -/
def ideal (chamber : Nat) (sigma z angle : Float) : Plane Float :=
  ofDirection chamber sigma z angle.cos angle.sin

end Plane

end DriftChamber
