/-
# Scenario runs

A run generates events from a seed, tracks each of them, and judges the scenario by the metrics.
The seed of the events is the seed of the run, spread over all bits, so that runs of near seeds
have nothing in common.

Events need room.  `Runner.execute` is the run with room for all of them; `Runner.execute?` breaks
off where there is none.
-/
import DriftChamber.Decimal.Rounded
import DriftChamber.Log
import DriftChamber.Setup.Message
import DriftChamber.Simulation.Metrics
import DriftChamber.Simulation.Scenario

namespace DriftChamber

/-! ## Verdicts -/

/-- What a scenario asks of the metrics, with what is said if it is not met. -/
def Scenario.requirements (s : Scenario) (m : Metrics) : List (Bool × String) :=
  (match s with
    | .singleTrack =>
        [(decide (0.9 ≤ m.trackingEfficiency),
            "Efficiency " ++ fixedText 3 m.trackingEfficiency ++ " below 0.9"),
          (decide (m.rmsPositionError < 0.1),
            "RMS position error " ++ fixedText 4 m.rmsPositionError ++ " cm exceeds 0.1"),
          (decide (m.meanReducedChiSquare < 3.0),
            "Mean reduced chi2 " ++ fixedText 2 m.meanReducedChiSquare ++ " exceeds 3")]
    | .multiTrack =>
        [(decide (0.9 ≤ m.matchEfficiency),
            "Found " ++ fixedText 3 m.matchEfficiency ++ " of truth rays, need 0.9")]
    | .noisy =>
        [(decide (0.85 ≤ m.matchEfficiency),
            "Found " ++ fixedText 3 m.matchEfficiency ++ " of truth rays, need 0.85")]
    | .singleStub =>
        [(decide (0.9 ≤ m.doubleResidualFraction),
            "Double residuals in " ++ fixedText 3 m.doubleResidualFraction ++
              " of events, need 0.9"),
          (decide (m.rmsDoubleResidual < 2.0),
            "RMS double residual " ++ fixedText 3 m.rmsDoubleResidual ++ " cm exceeds 2")]
    | .overflow =>
        [(decide (0.9 ≤ m.abortFraction),
            "Only " ++ fixedText 3 m.abortFraction ++ " of events aborted, need 0.9"),
          (decide (m.tracksInAborted = 0),
            toString m.tracksInAborted ++ " tracks survived aborted events")]) ++
    [(decide (0 < m.events), "No events processed")]

/-- What is said of the first requirement that is not met. -/
def Scenario.failure? (s : Scenario) (m : Metrics) : Option String :=
  ((s.requirements m).find? fun requirement => !requirement.1).map (·.2)

/-- The outcome of a run. -/
structure RunResult where
  /-- What was run. -/
  scenario : Scenario
  /-- The seed. -/
  seed : UInt64
  /-- Why the run failed, if it did. -/
  failure? : Option String
  /-- What the run was measured by. -/
  metrics : Metrics
  deriving DecidableEq

/-- Whether the run passed. -/
def RunResult.passed (r : RunResult) : Bool := r.failure?.isNone

/-! ## Events -/

/-- An event of a run: what was generated and what tracking made of it. -/
structure RunEvent where
  /-- The event with its truth. -/
  generated : GeneratedEvent
  /-- What tracking made of it. -/
  result : EventResult Float

/-- So many events of a tracker, each of so many rays. -/
def runEvents (tracker : Tracker Float) (generator : Generator) (rays : Nat) :
    Nat → Stream → List RunEvent
  | 0, _ => []
  | count + 1, stream =>
      let (generated, rest) := generator.generate rays stream
      ⟨generated, tracker.process generated.points⟩ ::
        runEvents tracker generator rays count rest

/-- The same, as long as there is room: a run without room for its next event breaks off, and those
before it are left. -/
def runEvents? (tracker : Tracker Float) (generator : Generator) (rays : Nat) :
    Nat → Stream → Except (List RunEvent) (List RunEvent)
  | 0, _ => .ok []
  | count + 1, stream =>
      match (generator.generate? rays).run stream with
      | (none, _) => .error []
      | (some generated, rest) =>
          let event : RunEvent := ⟨generated, tracker.process generated.points⟩
          match runEvents? tracker generator rays count rest with
          | .ok events => .ok (event :: events)
          | .error before => .error (event :: before)

/-- The metrics of a list of events. -/
def metricsOf (events : List RunEvent) : Metrics :=
  (events.foldl (fun a e => a.record e.generated.truth e.result) Accumulator.zero).finish

/-- The warning about an event with too many candidates. -/
def RunEvent.warning? (e : RunEvent) : Option LogLine :=
  match e.result.status with
  | .aborted max =>
      some ⟨.warn, .tracker, s!"Too many tracks found (max {max}) from " ++
        toString e.generated.points.length ++ " space points, event skipped"⟩
  | _ => none

/-! ## Runs -/

/-- What runs are made with. -/
structure Runner where
  /-- The seed. -/
  seed : UInt64
  /-- Number of events. -/
  events : Nat
  /-- Detector and tracking parameters, before a scenario sets its own. -/
  setup : Setup

/-- A run with all its events. -/
structure Run where
  /-- The outcome. -/
  result : RunResult
  /-- The events, in order. -/
  events : List RunEvent
  /-- What was reported meanwhile. -/
  log : List LogLine

namespace Runner

/-- The seed of the events. -/
def eventSeed (r : Runner) : UInt64 := r.seed * 0x9e3779b97f4a7c15

/-- The setup as a scenario uses it. -/
def setupFor (r : Runner) (s : Scenario) : Setup :=
  { r.setup with tracking := s.profile.apply r.setup.tracking }

/-- The events of a scenario. -/
def eventsOf (r : Runner) (s : Scenario) (tracker : Tracker Float) : List RunEvent :=
  runEvents tracker ⟨tracker.fitter, s.profile.conditions⟩ s.profile.raysPerEvent r.events
    (Stream.ofSeed r.eventSeed)

/-- The events of a scenario, as long as there is room. -/
def eventsOf? (r : Runner) (s : Scenario) (tracker : Tracker Float) :
    Except (List RunEvent) (List RunEvent) :=
  runEvents? tracker ⟨tracker.fitter, s.profile.conditions⟩ s.profile.raysPerEvent r.events
    (Stream.ofSeed r.eventSeed)

/-- The line that opens a run. -/
def opening (r : Runner) (s : Scenario) : LogLine :=
  ⟨.info, .runner, "Starting scenario: " ++ s.name ++ " (seed=" ++ toString r.seed.toNat ++
    ", events=" ++ toString r.events ++ ")"⟩

/-- A run over a setup that is not usable.  It fails without any event. -/
def refused (r : Runner) (s : Scenario) (e : TrackingError Float) : Run where
  result := ⟨s, r.seed, some ("Invalid setup: " ++ e.message), Metrics.zero⟩
  events := []
  log := [r.opening s, ⟨.warn, .runner,
    "Scenario " ++ s.name ++ " has an invalid setup: " ++ e.message⟩]

/-- The log of a run with these events. -/
def logOf (r : Runner) (s : Scenario) (events : List RunEvent) : List LogLine :=
  r.opening s :: events.filterMap RunEvent.warning?

/-- A run with these events, judged by their metrics. -/
def judged (r : Runner) (s : Scenario) (events : List RunEvent) : Run :=
  let metrics := metricsOf events
  { result := ⟨s, r.seed, s.failure? metrics, metrics⟩
    events := events
    log := r.logOf s events }

/-- Runs a scenario, with room for all events. -/
def execute (r : Runner) (s : Scenario) : Run :=
  match (r.setupFor s).tracker? with
  | .error e => r.refused s e
  | .ok tracker => r.judged s (r.eventsOf s tracker)

/-- Runs a scenario as long as there is room.  Of a run that breaks off its log is left. -/
def execute? (r : Runner) (s : Scenario) : Except (List LogLine) Run :=
  match (r.setupFor s).tracker? with
  | .error e => .ok (r.refused s e)
  | .ok tracker =>
    match r.eventsOf? s tracker with
    | .error before => .error (r.logOf s before)
    | .ok events => .ok (r.judged s events)

/-- The outcome of a scenario. -/
def run (r : Runner) (s : Scenario) : RunResult := (r.execute s).result

end Runner

end DriftChamber
