/-
# Log lines

What a program reports while it works: a severity, the part of the program that speaks, and a
text.
-/
namespace DriftChamber

/-- How much a log line matters. -/
inductive Severity where
  /-- Progress. -/
  | info
  /-- Something went wrong, and work goes on. -/
  | warn
  /-- Something failed. -/
  | error
  deriving DecidableEq, Repr

/-- The name of a severity. -/
def Severity.name : Severity → String
  | .info => "INFO"
  | .warn => "WARN"
  | .error => "ERROR"

/-- The part of the program that speaks. -/
inductive Source where
  /-- The command line. -/
  | program
  /-- The scenario runs. -/
  | runner
  /-- The tracking of single events. -/
  | tracker
  deriving DecidableEq, Repr

/-- The name under which a part of the program speaks. -/
def Source.name : Source → String
  | .program => "dctrack_sim"
  | .runner => "dctrack_sim::runner"
  | .tracker => "dctrack_core::tracker"

/-- One line of the log. -/
structure LogLine where
  /-- How much it matters. -/
  severity : Severity
  /-- Who speaks. -/
  source : Source
  /-- What is said. -/
  text : String
  deriving DecidableEq, Repr

/-- The line as it is shown. -/
def LogLine.render (l : LogLine) : String :=
  l.severity.name ++ " " ++ l.source.name ++ ": " ++ l.text

end DriftChamber
