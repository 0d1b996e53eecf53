/-
# Command line

The program with the files and the clock of the computer it runs on.
-/
import DriftChamber.CommandLine.Program

namespace DriftChamber

/-- The failure with a code of the system, which some calls give negated. -/
def FileFailure.ofCode (code : UInt32) (words : String) : FileFailure :=
  .ofNumber (if code < 0x80000000 then code else 0 - code).toNat words

/-- Why a file could not be read or written. -/
def FileFailure.ofError : IO.Error → FileFailure
  | .noFileOrDirectory _ code words => .ofCode code words
  | .inappropriateType _ code words => .ofCode code words
  | .permissionDenied _ code words => .ofCode code words
  | .resourceExhausted _ code words => .ofCode code words
  | .invalidArgument _ code words => .ofCode code words
  | .otherError code words => .ofCode code words
  | e => .other 5 (toString e)

/-- The files and the clock of the computer. -/
def computer : Host IO where
  load path := do
    try
      let content ← IO.FS.readBinFile path
      return .ok content
    catch e => return .error (FileFailure.ofError e)
  save path text := do
    try
      IO.FS.withFile path .write fun file => do
        file.putStr text
        file.flush
      return .ok ()
    catch e => return .error (FileFailure.ofError e)
  clock := return (← IO.monoNanosNow).toUInt64

end DriftChamber

/-- Runs the program, prints the report, and puts the log and the messages on the error stream. -/
def main (arguments : List String) : IO UInt32 := do
  let outcome ← DriftChamber.computer.run arguments
  for line in outcome.log do
    IO.eprintln line.render
  for message in outcome.messages do
    IO.eprintln message
  IO.print outcome.report
  return outcome.code.toUInt32
