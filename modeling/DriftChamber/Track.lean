/-
# Tracks

A candidate track: the space points it links, their hits, and what the fit found.  Before a fit,
and after a fit that fails, the result fields hold fixed marks: coordinates 0, residuals
`residualUnset` and chi-square `chiSquareUnfit`.

The lists of coordinates and residuals have one entry per plane, the entry at index `i` for the
plane of number `i + 1`.
-/
import DriftChamber.SpacePoint

namespace DriftChamber

/-- Why hits give no ray. -/
inductive FitError where
  /-- There are fewer hits than ray parameters. -/
  | underconstrained (hits : Nat)
  /-- The hits do not determine all ray parameters. -/
  | singular
  /-- A hit lies on a plane that the detector does not have. -/
  | unknownPlane (plane : Nat)
  deriving DecidableEq, Repr

/-- What came of fitting a track. -/
inductive FitStatus where
  /-- The track was not fitted yet. -/
  | pending
  /-- Ray, residuals and chi-square are valid. -/
  | fitted
  /-- There are no more hits than ray parameters. -/
  | underconstrained
  /-- The hits do not determine all ray parameters. -/
  | singular
  /-- A hit lies on a plane that the detector does not have. -/
  | unknownPlane (plane : Nat)
  deriving DecidableEq, Repr

/-- The status of a track whose fit failed. -/
def FitError.status : FitError → FitStatus
  | .underconstrained _ => .underconstrained
  | .singular => .singular
  | .unknownPlane plane => .unknownPlane plane

/-- A candidate track with the results of its fit. -/
structure Track (α : Type) where
  /-- Positions of the member points in the event's list of space points. -/
  spacePoints : List Nat
  /-- The hits of the members. -/
  hits : List (Hit α)
  /-- Fitted `x`, `y`, an unused zero, `xp` and `yp`. -/
  vector : Vector α 5
  /-- Fitted coordinate on every plane. -/
  coords : List α
  /-- On every plane, measured minus fitted coordinate. -/
  residuals : List α
  /-- On every plane, coordinate measured by the other chamber minus the one this track foretells
  there. -/
  doubleResiduals : List α
  /-- Number of hits less the number of ray parameters. -/
  nfree : Int32
  /-- Sum of the squared residuals in units of their uncertainty. -/
  chiSquare : α
  /-- What came of the fit. -/
  status : FitStatus
  deriving DecidableEq, Repr

/-! ## One value per plane -/

/-- The value of the plane of the given number, counted from 1. -/
def valueOn? {α : Type} (values : List α) : Nat → Option α
  | 0 => none
  | index + 1 => values[index]?

/-- The values with that of one plane replaced; a plane without a value is passed over. -/
def setOn {α : Type} (values : List α) (plane : Nat) (value : α) : List α :=
  match plane with
  | 0 => values
  | index + 1 => values.set index value

/-- Replacing a value leaves their number. -/
theorem length_setOn {α : Type} (values : List α) (plane : Nat) (value : α) :
    (setOn values plane value).length = values.length := by
  cases plane with
  | zero => rfl
  | succ index => simp [setOn]

/-- A plane with a value shows the one it was given. -/
theorem valueOn?_setOn {α : Type} (values : List α) (plane : Nat) (value : α) (other : Nat) :
    valueOn? (setOn values plane value) other =
      if other = plane ∧ (valueOn? values plane).isSome then some value
      else valueOn? values other := by
  cases other with
  | zero => cases plane <;> simp [valueOn?]
  | succ j =>
      cases plane with
      | zero => simp [setOn, valueOn?]
      | succ i =>
          by_cases hij : j = i
          · subst hij
            by_cases hj : j < values.length <;> simp [setOn, valueOn?, hj]
          · have hne : i ≠ j := fun h => hij h.symm
            simp [setOn, valueOn?, hij, hne]

namespace Track

variable {α : Type}

section Marks

variable [Scalar α]

/-- Chi-square of a track without a valid fit. -/
def chiSquareUnfit : α := ((10000 : Nat) : α)

/-- Residual on a plane that received none. -/
def residualUnset : α := ((1000 : Nat) : α)

/-- A track without members, for a detector of `numPlanes` planes. -/
def empty (numPlanes : Nat) : Track α where
  spacePoints := []
  hits := []
  vector := Vector.replicate 5 0
  coords := List.replicate numPlanes 0
  residuals := List.replicate numPlanes residualUnset
  doubleResiduals := List.replicate numPlanes residualUnset
  nfree := 0
  chiSquare := chiSquareUnfit
  status := .pending

/-- The track with its fit results back at their marks.  Members, hits, list lengths and degrees
of freedom stay. -/
def reset (t : Track α) : Track α :=
  { t with
    vector := Vector.replicate 5 0
    coords := t.coords.map fun _ => 0
    residuals := t.residuals.map fun _ => residualUnset
    doubleResiduals := t.doubleResiduals.map fun _ => residualUnset
    chiSquare := chiSquareUnfit
    status := .pending }

end Marks

/-! ## Members and hits -/

/-- The track with one more member. -/
def addPoint (t : Track α) (id : Nat) : Track α := { t with spacePoints := t.spacePoints ++ [id] }

/-- The track with one more hit. -/
def addHit (t : Track α) (hit : Hit α) : Track α := { t with hits := t.hits ++ [hit] }

/-- The track without hits. -/
def clearHits (t : Track α) : Track α := { t with hits := [] }

/-- Whether a space point is a member. -/
def contains (t : Track α) (id : Nat) : Bool := t.spacePoints.contains id

/-! ## Fit results -/

/-- Number of planes that the track has values for. -/
def numPlanes (t : Track α) : Nat := t.coords.length

/-- Fitted coordinate on a plane. -/
def coord? (t : Track α) (plane : Nat) : Option α := valueOn? t.coords plane

/-- Residual on a plane. -/
def residual? (t : Track α) (plane : Nat) : Option α := valueOn? t.residuals plane

/-- Double residual on a plane. -/
def doubleResidual? (t : Track α) (plane : Nat) : Option α := valueOn? t.doubleResiduals plane

/-- Whether the fit succeeded. -/
def isFitted (t : Track α) : Bool := t.status == .fitted

/-- The ray in the fitted vector, whether valid or not. -/
def ray (t : Track α) : Ray α := ⟨t.vector[0], t.vector[1], t.vector[3], t.vector[4]⟩

/-- The ray, if the fit succeeded. -/
def fittedRay? (t : Track α) : Option (Ray α) := if t.isFitted then some t.ray else none

/-- Chi-square per degree of freedom, if the fit succeeded and left a degree of freedom. -/
def reducedChiSquare? [Scalar α] (t : Track α) : Option α :=
  if t.isFitted && decide (0 < t.nfree) then some (t.chiSquare / (t.nfree.toInt.toNat : α))
  else none

end Track

end DriftChamber
