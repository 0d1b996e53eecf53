/-
# Tracking an event

A tracker joins the steps: it links the space points of an event into candidate tracks, fits each
of them and, where every point makes a track of its own, works out double residuals.  No event
stops it: an event with too many candidates yields no track, and the next event starts afresh.
-/
import DriftChamber.Fit
import DriftChamber.Linking

namespace DriftChamber

/-- How linking ended. -/
inductive LinkStatus where
  /-- There are candidate tracks. -/
  | linked
  /-- No candidate track arose. -/
  | noCandidates
  /-- More candidates arose than the bound allows, so there are no tracks. -/
  | aborted (maxTracks : Nat)
  deriving DecidableEq, Repr

/-- What tracking an event gives. -/
structure EventResult (α : Type) where
  /-- Candidate tracks in the order they arose, fitted. -/
  tracks : List (Track α)
  /-- How linking ended. -/
  status : LinkStatus
  /-- How well stubs agreed. -/
  diagnostics : Diagnostics α
  /-- Whether double residuals were worked out. -/
  doubleResiduals : Bool

namespace EventResult

variable {α : Type}

/-- Number of tracks whose fit succeeded. -/
def numFitted (r : EventResult α) : Nat := r.tracks.countP (·.isFitted)

/-- Whether there were too many candidates. -/
def isAborted (r : EventResult α) : Bool :=
  match r.status with
  | .aborted _ => true
  | _ => false

variable [Scalar α]

/-- Position of the fitted track of least chi-square per degree of freedom, the first of equals. -/
def bestIndex? (r : EventResult α) : Option Nat :=
  (Scalar.firstLeast (r.tracks.zipIdx.filterMap fun (track, index) =>
    track.reducedChiSquare?.map fun value => (value, index))).map (·.2)

/-- The fitted track of least chi-square per degree of freedom, the first of equals. -/
def best? (r : EventResult α) : Option (Track α) :=
  r.bestIndex?.bind fun index => r.tracks[index]?

end EventResult

/-- A detector with checked tracking parameters. -/
structure Tracker (α : Type) [Scalar α] where
  /-- The planes. -/
  geometry : Geometry α
  /-- The parameters. -/
  tracking : Tracking α
  /-- The ray coefficients. -/
  map : RayMap
  /-- The parameters passed their check. -/
  checked : tracking.check = .ok map

namespace Tracker

variable {α : Type} [Scalar α]

/-- The tracker for a detector, if the parameters pass their check. -/
def ofTracking? (geometry : Geometry α) (tracking : Tracking α) :
    Except (TrackingError α) (Tracker α) :=
  match h : tracking.check with
  | .error e => .error e
  | .ok map => .ok ⟨geometry, tracking, map, h⟩

/-- The linker of a tracker. -/
def linker (t : Tracker α) : Linker α := Linker.ofTracking t.tracking t.geometry.numPlanes

/-- The fitter of a tracker. -/
def fitter (t : Tracker α) : Fitter α := ⟨t.geometry, t.map⟩

/-- The result of an event whose points were linked. -/
def finish (t : Tracker α) (linked : List (Track α)) (d : Diagnostics α) : EventResult α :=
  let fitted := linked.map t.fitter.fit
  let confronted := if t.tracking.singleStub then t.fitter.doubleResiduals? fitted else none
  { tracks := confronted.getD fitted
    status := .linked
    diagnostics := d
    doubleResiduals := confronted.isSome }

/-- Tracks one event. -/
def process (t : Tracker α) (points : List (SpacePoint α)) : EventResult α :=
  let outcome := t.linker.link points Diagnostics.none
  match outcome.tracks with
  | .error (.tooManyTracks max) => ⟨[], .aborted max, outcome.diagnostics, false⟩
  | .ok [] => ⟨[], .noCandidates, outcome.diagnostics, false⟩
  | .ok linked => t.finish linked outcome.diagnostics

end Tracker

end DriftChamber
