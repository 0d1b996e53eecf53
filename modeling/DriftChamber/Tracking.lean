/-
# Tracking parameters

The tolerances within which two stubs count as one particle, the bound on candidate tracks, the
mode and the ray coefficients.  `Tracking.check` accepts parameters whose tolerances are finite
and positive and whose coefficient positions exist; it hands back the checked map.
-/
import DriftChamber.Geometry

namespace DriftChamber

/-- The four tolerances, by the component they bound. -/
inductive Tolerance where
  | xt
  | yt
  | xpt
  | ypt
  deriving DecidableEq, Repr

/-- Tolerances on the difference of two stubs. -/
structure Criteria (α : Type) where
  /-- Bound on the difference in horizontal position. -/
  xt : α
  /-- Bound on the difference in vertical position. -/
  yt : α
  /-- Bound on the difference in horizontal slope. -/
  xpt : α
  /-- Bound on the difference in vertical slope. -/
  ypt : α
  deriving DecidableEq, Repr

/-- Why tracking parameters are refused. -/
inductive TrackingError (α : Type) where
  /-- A tolerance is not finite and positive. -/
  | invalidCriterion (name : Tolerance) (value : α)
  /-- The ray coefficients, or the table of planes, are refused. -/
  | geometry (error : GeometryError α)
  deriving DecidableEq, Repr

namespace Criteria

variable {α : Type} [Scalar α]

/-- Whether every component of a difference lies strictly inside its tolerance. -/
def accepts (c : Criteria α) (delta : Ray α) : Bool :=
  decide (Scalar.abs delta.x < c.xt) && decide (Scalar.abs delta.y < c.yt) &&
    decide (Scalar.abs delta.xp < c.xpt) && decide (Scalar.abs delta.yp < c.ypt)

/-- The tolerances by name, in the order in which they are checked. -/
def entries (c : Criteria α) : List (Tolerance × α) :=
  [(.xt, c.xt), (.yt, c.yt), (.xpt, c.xpt), (.ypt, c.ypt)]

/-- The first tolerance that is not finite and positive. -/
def defect? (c : Criteria α) : Option (Tolerance × α) :=
  c.entries.find? fun entry => !Scalar.isPositive entry.2

end Criteria

/-- Parameters of linking and fitting. -/
structure Tracking (α : Type) where
  /-- When two stubs count as one particle. -/
  criteria : Criteria α
  /-- Bound on the candidate tracks of an event; 0 stands for the usual bound. -/
  maxTracks : Nat
  /-- Whether every space point makes a track of its own. -/
  singleStub : Bool
  /-- Positions of the ray coefficients. -/
  rayIndices : Vector Nat 4
  deriving DecidableEq, Repr

namespace Tracking

variable {α : Type}

/-- The bound on candidate tracks where none is set. -/
def usualMaxTracks : Nat := 10

/-- The bound on candidate tracks in force. -/
def effectiveMaxTracks (t : Tracking α) : Nat :=
  if t.maxTracks = 0 then usualMaxTracks else t.maxTracks

/-- Checks the tolerances, then the coefficient positions, and gives the checked map. -/
def check [Scalar α] (t : Tracking α) : Except (TrackingError α) RayMap :=
  match t.criteria.defect? with
  | some (name, value) => .error (.invalidCriterion name value)
  | none => (RayMap.ofIndices? t.rayIndices).mapError .geometry

/-- The usual parameters. -/
def standard : Tracking Float where
  criteria := ⟨1.0, 1.0, 0.05, 0.05⟩
  maxTracks := usualMaxTracks
  singleStub := false
  rayIndices := RayMap.standardIndices

end Tracking

end DriftChamber
