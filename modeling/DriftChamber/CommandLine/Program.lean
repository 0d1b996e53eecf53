/-
# The program

Runs the scenarios that the command line asks for and reports on them.  Files and the clock are
reached through a `Host`, so that the program can run in any monad; what it says is its `Outcome`.
-/
import DriftChamber.CommandLine.Options
import DriftChamber.CommandLine.Report
import DriftChamber.Setup.Stored

namespace DriftChamber

/-- What the program needs from outside. -/
structure Host (m : Type → Type) where
  /-- The content of a file, or why there is none. -/
  load : String → m (Except FileFailure ByteArray)
  /-- Writes a text to a file, or says why it cannot. -/
  save : String → String → m (Except FileFailure Unit)
  /-- The time, in units that make every run different. -/
  clock : m UInt64

/-- What the program leaves behind. -/
structure Outcome where
  /-- The exit code. -/
  code : UInt8
  /-- The report. -/
  report : String
  /-- The log. -/
  log : List LogLine
  /-- What is said after the log. -/
  messages : List String
  deriving DecidableEq

/-! ## Refusals -/

/-- Why the program does not run any scenario. -/
inductive Refusal where
  /-- There is no scenario of that name. -/
  | unknownScenario (name : String)
  /-- The setup in a file is not taken. -/
  | setup (path : String) (error : SetupError)
  /-- Only a single run can be exported. -/
  | severalExports
  deriving DecidableEq

/-- The wording of a refusal. -/
def Refusal.messages : Refusal → List String
  | .unknownScenario name => ["Error: " ++ Scenario.unknownMessage name,
      "Available scenarios: " ++ ", ".intercalate (Scenario.all.map Scenario.name ++ ["all"])]
  | .setup path error => ["Error: " ++ path ++ ": " ++ error.message]
  | .severalExports => ["Error: --export only supports a single scenario, not 'all'"]

/-! ## Endings -/

/-- How a run of the program ends. -/
inductive Ending where
  /-- No scenario was run. -/
  | refused (why : Refusal)
  /-- A run broke off, since there was no room for an event. -/
  | brokenOff
  /-- The export could not be written. -/
  | unwritten (why : FileFailure)
  /-- The scenarios were run. -/
  | finished (results : List RunResult)
  deriving DecidableEq

namespace Ending

/-- The exit code: 0 if every run passed, and one of its own for a run that broke off. -/
def code : Ending → UInt8
  | .finished results => if failedRuns results = 0 then 0 else 1
  | .brokenOff => 101
  | _ => 1

/-- The summary that is printed where one is wanted. -/
def summary : Ending → String
  | .finished results => (summaryJson results).prettyText ++ "\n"
  | _ => ""

/-- The log lines of the ending itself. -/
def log : Ending → List LogLine
  | .refused _ => []
  | .brokenOff => []
  | .unwritten why => [LogLine.complain ("Failed to write export: " ++ why.message)]
  | .finished results => LogLine.closing results

/-- What is said after the log. -/
def messages : Ending → List String
  | .refused why => why.messages
  | .brokenOff => ["capacity overflow"]
  | _ => []

/-- An ending after a run with the given result. -/
def following (result : RunResult) : Ending → Ending
  | .finished results => .finished (result :: results)
  | e => e

/-- What is left behind after a log of the runs.  With a summary, the outcomes of the runs are not
logged, and neither is progress. -/
def outcome (json : Bool) (log : List LogLine) (e : Ending) : Outcome :=
  if json then
    let own := match e with
      | .finished _ => []
      | _ => e.log
    ⟨e.code, e.summary, (log ++ own).filter fun line => line.severity != .info, e.messages⟩
  else ⟨e.code, "", LogLine.banner ++ log ++ e.log, e.messages⟩

end Ending

/-! ## Running -/

namespace Options

variable {m : Type → Type} [Monad m]

/-- The scenarios that are asked for. -/
def scenarios? (o : Options) : Except Refusal (List Scenario) :=
  if o.scenario = "all" then .ok Scenario.all
  else
    match Scenario.ofName? o.scenario with
    | some s => .ok [s]
    | none => .error (.unknownScenario o.scenario)

/-- The setup that is asked for. -/
def setup? (o : Options) (host : Host m) : ExceptT Refusal m Setup :=
  match o.configFile with
  | none => return Setup.standard
  | some path => do
      match Setup.ofFile? (← host.load path) with
      | .ok setup => return setup
      | .error e => throw (.setup path e)

/-- The seed that is asked for. -/
def chooseSeed (o : Options) (host : Host m) : m UInt64 :=
  if o.seed = 0 then host.clock else return o.seed

/-- The scenarios to run, and what to run them with. -/
def plan? (o : Options) (host : Host m) : ExceptT Refusal m (List Scenario × Runner) := do
  let scenarios ← (o.scenarios? : Except Refusal (List Scenario))
  let setup ← o.setup? host
  let seed : UInt64 ← (o.chooseSeed host : m UInt64)
  return (scenarios, ⟨seed, o.events.toNat, setup⟩)

/-- Runs scenarios one after the other, until one breaks off. -/
def runAll (runner : Runner) : List Scenario → List LogLine × Ending
  | [] => ([], .finished [])
  | s :: rest =>
      match runner.execute? s with
      | .error log => (s.announcement :: log, .brokenOff)
      | .ok run =>
          let (log, ending) := runAll runner rest
          (s.announcement :: run.log ++ log, ending.following run.result)

/-- Runs a scenario and writes all that is kept of it to a file, unless it breaks off. -/
def runAndExport (host : Host m) (path : String) (s : Scenario) (runner : Runner) :
    m (List LogLine × Ending) :=
  match runner.execute? s with
  | .error log => return (log, .brokenOff)
  | .ok run => do
      match ← host.save path run.toExport.toText with
      | .error why => return (run.log, .unwritten why)
      | .ok () =>
          let done := LogLine.inform
            ("Exported " ++ toString run.events.length ++ " events to " ++ path)
          return (run.log ++ [done], .finished [run.result])

/-- Does what the options ask for. -/
def perform (o : Options) (host : Host m) : m (List LogLine × Ending) := do
  match ← (o.plan? host).run with
  | .error why => return ([], .refused why)
  | .ok (scenarios, runner) =>
    match o.exportFile, scenarios with
    | none, _ => return runAll runner scenarios
    | some path, [s] => runAndExport host path s runner
    | some _, _ => return ([], .refused .severalExports)

end Options

/-- Runs the program with its arguments. -/
def Host.run {m : Type → Type} [Monad m] (host : Host m) (arguments : List String) : m Outcome :=
  match Options.ofArguments? arguments with
  | none => return ⟨2, "", [], [Options.usage]⟩
  | some o => do
      let (log, ending) ← o.perform host
      return ending.outcome o.json log

end DriftChamber
