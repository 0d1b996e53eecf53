/-
# Command line options

What the command line sets.  An option is named by two dashes and its long name, with its value
behind an equals sign or in the next argument, or by one dash and its letter, with its value right
behind, behind an equals sign, or in the next argument.  Letters without value may be joined.  No
option is given twice, and there is nothing but options.
-/
import DriftChamber.Decimal.Digits

namespace DriftChamber

/-- What the command line can set. -/
inductive OptionKey where
  /-- The seed of the runs. -/
  | seed
  /-- Number of events. -/
  | events
  /-- The scenario, or all of them. -/
  | scenario
  /-- The file of the setup. -/
  | config
  /-- More log lines. -/
  | verbose
  /-- A summary as JSON in place of log lines. -/
  | json
  /-- The file that a run is exported to. -/
  | exportFile
  deriving DecidableEq, Repr

namespace OptionKey

/-- All options. -/
def all : List OptionKey := [.seed, .events, .scenario, .config, .verbose, .json, .exportFile]

/-- The long name of an option. -/
def longName : OptionKey → String
  | .seed => "seed"
  | .events => "events"
  | .scenario => "scenario"
  | .config => "config"
  | .verbose => "verbose"
  | .json => "json"
  | .exportFile => "export"

/-- The letter of an option. -/
def letter? : OptionKey → Option Char
  | .seed => some 's'
  | .events => some 'e'
  | .scenario => some 'S'
  | .config => some 'c'
  | .verbose => some 'v'
  | .json => none
  | .exportFile => none

/-- Whether an option has a value. -/
def takesValue : OptionKey → Bool
  | .verbose | .json => false
  | _ => true

/-- The option with a long name. -/
def ofLongName? (name : List Char) : Option OptionKey :=
  all.find? fun key => key.longName.toList == name

/-- The option with a letter. -/
def ofLetter? (letter : Char) : Option OptionKey := all.find? fun key => key.letter? == some letter

/-- An option is found under its long name. -/
theorem ofLongName?_longName (key : OptionKey) : ofLongName? key.longName.toList = some key := by
  cases key <;> decide +kernel

end OptionKey

/-! ## Arguments -/

/-- Arguments as far as they are read. -/
structure ArgumentsRead where
  /-- Options with their values; an option that has none comes with the empty text. -/
  given : List (OptionKey × String)
  /-- The option whose value is the next argument. -/
  waiting : Option OptionKey
  /-- Whether nothing may follow. -/
  ended : Bool
  deriving DecidableEq, Repr

namespace ArgumentsRead

/-- No argument yet. -/
def start : ArgumentsRead := ⟨[], none, false⟩

/-- One option more. -/
def give (a : ArgumentsRead) (key : OptionKey) (value : List Char) : ArgumentsRead :=
  { a with given := a.given ++ [(key, String.ofList value)], waiting := none }

/-- Takes up an option under its long name, with its value if there is an equals sign. -/
def addLong? (a : ArgumentsRead) (text : List Char) : Option ArgumentsRead := do
  let key ← OptionKey.ofLongName? (text.takeWhile (· != '='))
  match text.dropWhile (· != '='), key.takesValue with
  | [], true => return { a with waiting := some key }
  | [], false => return a.give key []
  | _ :: value, true => return a.give key value
  | _ :: _, false => failure

/-- The value of a letter, from what is written behind it. -/
def valueBehind : List Char → List Char
  | '=' :: value => value
  | value => value

/-- Takes up joined letters; the first one that has a value ends them. -/
def addLetters? (a : ArgumentsRead) : List Char → Option ArgumentsRead
  | [] => some a
  | letter :: rest => do
      let key ← OptionKey.ofLetter? letter
      if !key.takesValue then (a.give key []).addLetters? rest
      else if rest.isEmpty then return { a with waiting := some key }
      else return a.give key (valueBehind rest)

/-- Whether an argument cannot be a value: it starts with a dash and goes on. -/
def looksLikeOption : List Char → Bool
  | '-' :: _ :: _ => true
  | _ => false

/-- Takes up the next argument. -/
def add? (a : ArgumentsRead) (argument : String) : Option ArgumentsRead :=
  match a.ended, a.waiting, argument.toList with
  | true, _, _ => failure
  | false, some key, value => if looksLikeOption value then failure else a.give key value
  | false, none, ['-', '-'] => some { a with ended := true }
  | false, none, '-' :: '-' :: text => a.addLong? text
  | false, none, '-' :: letter :: rest => a.addLetters? (letter :: rest)
  | false, none, _ => failure

/-- What is given by arguments, if they are complete and none is given twice. -/
def ofList? (arguments : List String) : Option (List (OptionKey × String)) := do
  let a ← arguments.foldlM add? start
  if a.waiting.isNone && decide (a.given.map (·.1)).Nodup then return a.given else failure

end ArgumentsRead

/-! ## Options -/

/-- The options of a program run. -/
structure Options where
  /-- The seed; 0 asks for one of the clock. -/
  seed : UInt64
  /-- Number of events. -/
  events : UInt64
  /-- The name of a scenario, or `all`. -/
  scenario : String
  /-- The file of the setup. -/
  configFile : Option String
  /-- Whether more log lines are wanted. -/
  verbose : Bool
  /-- Whether a summary as JSON is wanted. -/
  json : Bool
  /-- The file that the run is exported to. -/
  exportFile : Option String
  deriving DecidableEq, Repr

namespace Options

/-- How the command line is used. -/
def usage : String :=
  "usage: dctrack-sim [-s SEED] [-e EVENTS] [-S SCENARIO] [-c CONFIG] [-v] [--json] [--export FILE]"

/-- The options that hold if none is given. -/
def standard : Options := ⟨42, 1000, "all", none, false, false, none⟩

/-- The natural number that digits stand for, if it has 64 bits. -/
def wholeNumber? (text : List Char) : Option UInt64 := do
  let ds ← text.mapM Digit.ofChar?
  if !ds.isEmpty && decide (ofDigits ds < UInt64.size) then return (ofDigits ds).toUInt64
  else failure

/-- A count, with or without a plus sign. -/
def count? (text : String) : Option UInt64 :=
  match text.toList with
  | '+' :: rest => wholeNumber? rest
  | cs => wholeNumber? cs

/-- The path of a file; it is not empty. -/
def path? (text : String) : Option String := if text.isEmpty then none else some text

/-- Options with one of them set. -/
def set? (o : Options) : OptionKey × String → Option Options
  | (.seed, value) => (count? value).map fun n => { o with seed := n }
  | (.events, value) => (count? value).map fun n => { o with events := n }
  | (.scenario, value) => some { o with scenario := value }
  | (.config, value) => (path? value).map fun path => { o with configFile := some path }
  | (.verbose, _) => some { o with verbose := true }
  | (.json, _) => some { o with json := true }
  | (.exportFile, value) => (path? value).map fun path => { o with exportFile := some path }

/-- The options that arguments set, unless there is something wrong with them. -/
def ofArguments? (arguments : List String) : Option Options := do
  (← ArgumentsRead.ofList? arguments).foldlM set? standard

end Options

end DriftChamber
