/-
# Run metrics

Counts and means over the events of a run.  `Accumulator.record` takes up one event and
`Accumulator.finish` closes the means.
-/
import DriftChamber.Event

namespace DriftChamber

/-- What a run is measured by. -/
structure Metrics where
  /-- Events tracked. -/
  events : Nat
  /-- Events with a fitted track. -/
  eventsWithTracks : Nat
  /-- Events with too many candidates. -/
  abortedEvents : Nat
  /-- Tracks left in such events. -/
  tracksInAborted : Nat
  /-- Candidate tracks. -/
  totalTracks : Nat
  /-- Candidate tracks that were not fitted. -/
  unfitTracks : Nat
  /-- Rays of the truth. -/
  truthRays : Nat
  /-- Rays of the truth with a fitted track nearby. -/
  matchedRays : Nat
  /-- Mean chi-square per degree of freedom. -/
  meanReducedChiSquare : Float
  /-- Root mean square distance of matched rays from their tracks. -/
  rmsPositionError : Float
  /-- Events with double residuals. -/
  doubleResidualEvents : Nat
  /-- Root mean square of the double residuals. -/
  rmsDoubleResidual : Float
  deriving DecidableEq

namespace Metrics

/-- A run without events. -/
def zero : Metrics := ⟨0, 0, 0, 0, 0, 0, 0, 0, 0.0, 0.0, 0, 0.0⟩

/-- A fraction of counts; of nothing it is zero. -/
def ratio (part whole : Nat) : Float := if whole = 0 then 0.0 else part.toFloat / whole.toFloat

/-- Fraction of events with a fitted track. -/
def trackingEfficiency (m : Metrics) : Float := ratio m.eventsWithTracks m.events

/-- Fraction of rays that were found. -/
def matchEfficiency (m : Metrics) : Float := ratio m.matchedRays m.truthRays

/-- Fraction of events with too many candidates. -/
def abortFraction (m : Metrics) : Float := ratio m.abortedEvents m.events

/-- Fraction of events with double residuals. -/
def doubleResidualFraction (m : Metrics) : Float := ratio m.doubleResidualEvents m.events

end Metrics

/-- Metrics with the sums that their means are made of. -/
structure Accumulator where
  /-- The counts so far. -/
  metrics : Metrics
  /-- Sum of chi-squares per degree of freedom. -/
  chiSquareSum : Float
  /-- Number of its terms. -/
  chiSquareCount : Nat
  /-- Sum of the squared distances of matched rays. -/
  positionSum : Float
  /-- Sum of the squared double residuals. -/
  doubleSum : Float
  /-- Number of its terms. -/
  doubleCount : Nat

namespace Accumulator

/-- No event yet. -/
def zero : Accumulator := ⟨Metrics.zero, 0.0, 0, 0.0, 0.0, 0⟩

/-- A fitted track nearer than this to a ray of the truth has found it. -/
def matchDistance : Float := 0.5

/-- Distance of two rays at the reference position. -/
def distance (r s : Ray Float) : Float :=
  (Scalar.square (r.x - s.x) + Scalar.square (r.y - s.y)).sqrt

/-- Distance of a ray from the nearest fitted track. -/
def nearest? (ray : Ray Float) (tracks : List (Track Float)) : Option Float :=
  (Scalar.firstLeast ((tracks.filterMap Track.fittedRay?).map fun fitted =>
    (distance fitted ray, ()))).map (·.1)

/-- Distances of the rays that were found. -/
def matchDistances (truth : List (Ray Float)) (tracks : List (Track Float)) : List Float :=
  (truth.filterMap fun ray => nearest? ray tracks).filter fun d => d < matchDistance

/-- The double residuals that tracks received. -/
def doubleValues (tracks : List (Track Float)) : List Float :=
  (tracks.flatMap (·.doubleResiduals)).filter fun r => r != Track.residualUnset

/-- One event more. -/
def record (a : Accumulator) (truth : List (Ray Float)) (result : EventResult Float) :
    Accumulator :=
  let m := a.metrics
  let reduced := result.tracks.filterMap Track.reducedChiSquare?
  let distances := matchDistances truth result.tracks
  let doubles := if result.doubleResiduals then doubleValues result.tracks else []
  { metrics :=
      { m with
        events := m.events + 1
        eventsWithTracks := m.eventsWithTracks + (if 0 < result.numFitted then 1 else 0)
        abortedEvents := m.abortedEvents + (if result.isAborted then 1 else 0)
        tracksInAborted :=
          m.tracksInAborted + (if result.isAborted then result.tracks.length else 0)
        totalTracks := m.totalTracks + result.tracks.length
        unfitTracks := m.unfitTracks + (result.tracks.length - reduced.length)
        truthRays := m.truthRays + truth.length
        matchedRays := m.matchedRays + distances.length
        doubleResidualEvents :=
          m.doubleResidualEvents + (if result.doubleResiduals then 1 else 0) }
    chiSquareSum := reduced.foldl (· + ·) a.chiSquareSum
    chiSquareCount := a.chiSquareCount + reduced.length
    positionSum := distances.foldl (fun s d => s + d * d) a.positionSum
    doubleSum := doubles.foldl (fun s r => s + r * r) a.doubleSum
    doubleCount := a.doubleCount + doubles.length }

/-- The mean of so many terms; of none it is zero. -/
def mean (sum : Float) (count : Nat) : Float :=
  if count = 0 then 0.0 else sum / count.toFloat

/-- The metrics with their means. -/
def finish (a : Accumulator) : Metrics :=
  { a.metrics with
    meanReducedChiSquare := mean a.chiSquareSum a.chiSquareCount
    rmsPositionError := (mean a.positionSum a.metrics.matchedRays).sqrt
    rmsDoubleResidual := (mean a.doubleSum a.doubleCount).sqrt }

end Accumulator

end DriftChamber
