/-
# Run setups

What a run starts from: a description of the detector and the tracking parameters.  A plane is
described by its coefficients or as an ideal plane.  `Setup.check` says whether a setup is usable;
`Setup.tracker?` builds the tracker for it.
-/
import DriftChamber.Event

namespace DriftChamber

/-! ## Detectors -/

/-- How the coefficients of a plane are given. -/
inductive PlaneShape where
  /-- As they are. -/
  | coefficients (values : Coefficients Float)
  /-- By an ideal plane at `z` that measures `alpha` degrees from the horizontal axis. -/
  | ideal (z alpha : Float)
  deriving DecidableEq

/-- The description of a plane. -/
structure PlaneDescription where
  /-- Name of the plane. -/
  name : String
  /-- Number of its chamber, from 1. -/
  chamber : Nat
  /-- Uncertainty of its coordinate. -/
  sigma : Float
  /-- Its coefficients. -/
  shape : PlaneShape
  deriving DecidableEq

/-- An angle in radians. -/
def radians (degrees : Float) : Float := degrees * (3.141592653589793 / 180.0)

/-- The plane that is described. -/
def PlaneDescription.toPlane (p : PlaneDescription) : Plane Float :=
  match p.shape with
  | .coefficients values => ⟨p.chamber, p.sigma, values⟩
  | .ideal z alpha => Plane.ideal p.chamber p.sigma z (radians alpha)

/-- The description of a detector, its planes in the order of their numbers. -/
structure Detector where
  /-- Number of chambers. -/
  numChambers : Nat
  /-- The planes. -/
  planes : List PlaneDescription
  deriving DecidableEq

namespace Detector

/-- Names and angles of the six planes of a standard chamber, front to back. -/
def standardLayout : List (String × Float) :=
  [("x1", 0.0), ("y1", 90.0), ("u1", 15.0), ("v1", -15.0), ("y2", 90.0), ("x2", 0.0)]

/-- A standard chamber: six ideal planes, 1.8 apart, around a centre. -/
def standardChamber (chamber : Nat) (center : Float) : List PlaneDescription :=
  standardLayout.zipIdx.map fun ((name, alpha), index) =>
    { name := toString chamber ++ name
      chamber := chamber
      sigma := 0.02
      shape := .ideal (center + (index.toFloat - 2.5) * 1.8) alpha }

/-- The usual detector: two standard chambers, 40 before and 40 behind the reference position. -/
def standard : Detector where
  numChambers := 2
  planes := standardChamber 1 (-40.0) ++ standardChamber 2 40.0

/-- The table of the planes. -/
def geometry? (d : Detector) : Except (GeometryError Float) (Geometry Float) :=
  Geometry.ofPlanes? (d.planes.map PlaneDescription.toPlane) d.numChambers

/-- The number of the first plane of the given name. -/
def planeNumber? (d : Detector) (name : String) : Option Nat :=
  (d.planes.findIdx? fun p => p.name == name).map (· + 1)

end Detector

/-! ## Setups -/

/-- A detector and the parameters to track it with. -/
structure Setup where
  /-- The detector. -/
  detector : Detector
  /-- The tracking parameters. -/
  tracking : Tracking Float
  deriving DecidableEq

namespace Setup

/-- The usual setup. -/
def standard : Setup := ⟨Detector.standard, Tracking.standard⟩

/-- Checks the tracking parameters, then the detector. -/
def check (s : Setup) : Except (TrackingError Float) Unit :=
  match s.tracking.check with
  | .error e => .error e
  | .ok _ =>
    match s.detector.geometry? with
    | .error e => .error (.geometry e)
    | .ok _ => .ok ()

/-- The tracker of a setup.  The detector is looked at first. -/
def tracker? (s : Setup) : Except (TrackingError Float) (Tracker Float) :=
  match s.detector.geometry? with
  | .error e => .error (.geometry e)
  | .ok geometry => Tracker.ofTracking? geometry s.tracking

end Setup

end DriftChamber
