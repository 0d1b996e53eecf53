/-
# Reports on runs

The lines in which the program tells what it does and how the runs came out.
-/
import DriftChamber.Simulation.Export

namespace DriftChamber

namespace LogLine

/-- A line of progress. -/
def inform (text : String) : LogLine := ⟨.info, .program, text⟩

/-- A line about a failure. -/
def complain (text : String) : LogLine := ⟨.error, .program, text⟩

/-- A line across. -/
def bar : LogLine := inform (String.ofList (List.replicate 53 '━'))

/-- The lines that open a run of the program. -/
def banner : List LogLine := [inform "DcTrack Simulator v0.1.0", bar]

end LogLine

open LogLine (inform complain)

/-- The line that announces a scenario. -/
def Scenario.announcement (s : Scenario) : LogLine :=
  inform ("▶ " ++ s.name ++ ": " ++ s.description)

/-- The scenario and the seed of a run. -/
def RunResult.title (r : RunResult) : String :=
  r.scenario.name ++ " (seed=" ++ toString r.seed.toNat ++ ")"

/-- The line about the outcome of a run. -/
def RunResult.line (r : RunResult) : LogLine :=
  match r.failure? with
  | none => inform ("✓ " ++ r.title ++ " PASSED | events=" ++ toString r.metrics.events ++
      " eff=" ++ fixedText 3 r.metrics.trackingEfficiency ++
      " found=" ++ fixedText 3 r.metrics.matchEfficiency ++
      " aborted=" ++ toString r.metrics.abortedEvents ++
      " chi2/ndf=" ++ fixedText 2 r.metrics.meanReducedChiSquare ++
      " rms=" ++ fixedText 4 r.metrics.rmsPositionError ++ "cm")
  | some reason => complain ("✗ " ++ r.title ++ " FAILED: " ++ reason)

/-- The line about all runs together. -/
def LogLine.verdict (results : List RunResult) : LogLine :=
  if failedRuns results = 0 then
    inform ("✅ All " ++ toString results.length ++ " scenario runs passed!")
  else complain ("❌ " ++ toString (failedRuns results) ++ "/" ++ toString results.length ++
    " scenario runs failed!")

/-- The lines that close a run of the program. -/
def LogLine.closing (results : List RunResult) : List LogLine :=
  results.map RunResult.line ++ [inform "", LogLine.bar, LogLine.verdict results]

end DriftChamber
