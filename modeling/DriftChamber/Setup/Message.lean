/-
# Messages about setups

The wording of everything that can be wrong with a setup.
-/
import DriftChamber.Decimal.Shortest
import DriftChamber.FileFailure
import DriftChamber.Setup

namespace DriftChamber

/-- What is wrong with a table of planes. -/
def GeometryError.message : GeometryError Float → String
  | .emptyTable => "Plane table is empty"
  | .invalidChamber plane chamber numChambers =>
      s!"Plane {plane} assigned to chamber {chamber}, expected 1..={numChambers}"
  | .invalidSigma plane sigma => s!"Plane {plane} has invalid sigma " ++ floatText sigma
  | .nonFiniteCoefficients plane => s!"Plane {plane} has non-finite projection coefficients"
  | .coefficientIndex index => s!"Ray coefficient index {index} out of range (0..9)"

/-- The name of a tolerance. -/
def Tolerance.name : Tolerance → String
  | .xt => "xt"
  | .yt => "yt"
  | .xpt => "xpt"
  | .ypt => "ypt"

/-- What is wrong with tracking parameters or with the detector. -/
def TrackingError.message : TrackingError Float → String
  | .invalidCriterion name value =>
      "Invalid link criterion " ++ name.name ++ ": " ++ floatText value
  | .geometry error => error.message

/-- Why a stored setup is not taken. -/
inductive SetupError where
  /-- The file could not be read. -/
  | unreadable (why : FileFailure)
  /-- The text is no setup. -/
  | malformed
  /-- The setup is not usable. -/
  | refused (error : TrackingError Float)
  deriving DecidableEq

/-- What is wrong with a stored setup. -/
def SetupError.message : SetupError → String
  | .unreadable why => "I/O error: " ++ why.message
  | .malformed => "Parse error"
  | .refused error => error.message

/-- Why hits give no ray. -/
def FitError.message : FitError → String
  | .underconstrained hits => s!"Under-constrained fit: {hits} hits for 4 parameters"
  | .singular => "Normal-equations matrix is singular"
  | .unknownPlane plane => s!"Hit references unknown plane {plane}"

/-- Why the points of an event are not linked. -/
def LinkError.message : LinkError → String
  | .tooManyTracks max => s!"Too many tracks found (max {max})"

end DriftChamber
