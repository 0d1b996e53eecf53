/-
# Run exports

The truth and the tracks of every event of a run, for analysis elsewhere, and the summary of
several runs.  Both are written as JSON.
-/
import DriftChamber.Simulation.Run
import DriftChamber.Track.Stored

namespace DriftChamber

/-! ## Exports -/

/-- A candidate track in brief. -/
structure TrackSummary where
  /-- Positions of the member points. -/
  spacePoints : List Nat
  /-- Number of hits. -/
  numHits : Nat
  /-- What came of the fit. -/
  status : FitStatus
  /-- The ray, if the fit succeeded. -/
  ray? : Option (Ray Float)
  /-- Chi-square. -/
  chiSquare : Float
  /-- Degrees of freedom. -/
  nfree : Int32
  deriving DecidableEq

/-- A track in brief. -/
def Track.summary (t : Track Float) : TrackSummary :=
  ⟨t.spacePoints, t.hits.length, t.status, t.fittedRay?, t.chiSquare, t.nfree⟩

/-- One event of an export. -/
structure Frame where
  /-- Number of the event, from 0. -/
  event : Nat
  /-- How linking ended. -/
  status : LinkStatus
  /-- The rays of the truth. -/
  truth : List (Ray Float)
  /-- The tracks. -/
  tracks : List TrackSummary
  /-- How well stubs agreed. -/
  diagnostics : Diagnostics Float
  deriving DecidableEq

/-- The frame of an event. -/
def RunEvent.frame (e : RunEvent) (number : Nat) : Frame :=
  ⟨number, e.result.status, e.generated.truth, e.result.tracks.map Track.summary,
    e.result.diagnostics⟩

/-- All that is kept of a run. -/
structure RunExport where
  /-- What was run. -/
  scenario : Scenario
  /-- The seed. -/
  seed : UInt64
  /-- The events, in order. -/
  frames : List Frame
  /-- Whether the run passed. -/
  passed : Bool
  /-- What the run was measured by. -/
  metrics : Metrics
  deriving DecidableEq

/-- What is kept of a run. -/
def Run.toExport (r : Run) : RunExport where
  scenario := r.result.scenario
  seed := r.result.seed
  frames := r.events.zipIdx.map fun (e, number) => e.frame number
  passed := r.result.passed
  metrics := r.result.metrics

/-- The outcome of a scenario, with all that is kept of it. -/
def Runner.runWithExport (r : Runner) (s : Scenario) : RunResult × RunExport :=
  let run := r.execute s
  (run.result, run.toExport)

/-! ## JSON -/

/-- A ray by its parameters. -/
def Ray.toJson (r : Ray Float) : Json :=
  .object [("x", .float r.x), ("y", .float r.y), ("xp", .float r.xp), ("yp", .float r.yp)]

/-- A link status; a bound that was exceeded comes with it. -/
def LinkStatus.toJson : LinkStatus → Json
  | .linked => .string "Linked"
  | .noCandidates => .string "NoCandidates"
  | .aborted max => .object [("Aborted", .object [("max_tracks", .nat max)])]

/-- Diagnostics as JSON. -/
def Diagnostics.toJson (d : Diagnostics Float) : Json :=
  .object [("min_dx", .float d.closest.x), ("min_dy", .float d.closest.y),
    ("min_dxp", .float d.closest.xp), ("min_dyp", .float d.closest.yp),
    ("pairs_tested", .nat d.pairsTested)]

/-- A track in brief; the ray is left out if there is none. -/
def TrackSummary.toJson (t : TrackSummary) : Json :=
  .object ([("space_points", .list Json.nat t.spacePoints), ("num_hits", .nat t.numHits),
      ("status", t.status.toJson)] ++
    (t.ray?.map fun ray => ("ray", ray.toJson)).toList ++
    [("chi2", .float t.chiSquare), ("nfree", .int t.nfree.toInt)])

/-- A frame as JSON. -/
def Frame.toJson (f : Frame) : Json :=
  .object [("event", .nat f.event), ("status", f.status.toJson),
    ("truth", .list Ray.toJson f.truth), ("tracks", .list TrackSummary.toJson f.tracks),
    ("diagnostics", f.diagnostics.toJson)]

/-- Metrics in the order of an export. -/
def Metrics.toJson (m : Metrics) : Json :=
  .object [("events", .nat m.events), ("events_with_tracks", .nat m.eventsWithTracks),
    ("aborted_events", .nat m.abortedEvents), ("tracks_in_aborted", .nat m.tracksInAborted),
    ("total_tracks", .nat m.totalTracks), ("unfit_tracks", .nat m.unfitTracks),
    ("truth_rays", .nat m.truthRays), ("matched_rays", .nat m.matchedRays),
    ("mean_reduced_chi2", .float m.meanReducedChiSquare),
    ("rms_position_error", .float m.rmsPositionError),
    ("double_residual_events", .nat m.doubleResidualEvents),
    ("rms_double_residual", .float m.rmsDoubleResidual)]

/-- An export as JSON. -/
def RunExport.toJson (e : RunExport) : Json :=
  .object [("scenario", .string e.scenario.name), ("seed", .nat e.seed.toNat),
    ("events", .list Frame.toJson e.frames), ("passed", .bool e.passed),
    ("metrics", e.metrics.toJson)]

/-- The text of an export. -/
def RunExport.toText (e : RunExport) : String := e.toJson.prettyText

/-! ## Summaries -/

/-- Metrics in alphabetical order. -/
def Metrics.toSortedJson (m : Metrics) : Json :=
  .object [("aborted_events", .nat m.abortedEvents),
    ("double_residual_events", .nat m.doubleResidualEvents), ("events", .nat m.events),
    ("events_with_tracks", .nat m.eventsWithTracks), ("matched_rays", .nat m.matchedRays),
    ("mean_reduced_chi2", .float m.meanReducedChiSquare),
    ("rms_double_residual", .float m.rmsDoubleResidual),
    ("rms_position_error", .float m.rmsPositionError), ("total_tracks", .nat m.totalTracks),
    ("tracks_in_aborted", .nat m.tracksInAborted), ("truth_rays", .nat m.truthRays),
    ("unfit_tracks", .nat m.unfitTracks)]

/-- The outcome of a run as JSON, in alphabetical order. -/
def RunResult.toJson (r : RunResult) : Json :=
  .object [("failure_reason", .option Json.string r.failure?),
    ("metrics", r.metrics.toSortedJson), ("passed", .bool r.passed),
    ("scenario", .string r.scenario.name), ("seed", .nat r.seed.toNat)]

/-- Number of runs that failed. -/
def failedRuns (results : List RunResult) : Nat := results.countP fun r => !r.passed

/-- The summary of several runs, in alphabetical order. -/
def summaryJson (results : List RunResult) : Json :=
  .object [("failed", .nat (failedRuns results)),
    ("passed", .nat (results.length - failedRuns results)),
    ("results", .list RunResult.toJson results), ("total", .nat results.length)]

end DriftChamber
