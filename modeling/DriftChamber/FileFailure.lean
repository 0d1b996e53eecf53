/-
# File failures

Why a file could not be read or written.
-/
namespace DriftChamber

/-- Why a file could not be read or written. -/
inductive FileFailure where
  /-- There is no such file. -/
  | missing
  /-- Access is not permitted. -/
  | denied
  /-- What stands before a slash is no folder. -/
  | notFolder
  /-- The path is one of a folder. -/
  | folder
  /-- There is no room left. -/
  | noSpace
  /-- A name in the path, or the path, is too long. -/
  | longName
  /-- The content is no text. -/
  | notText
  /-- Any other reason, by the number and the words of the system. -/
  | other (number : Nat) (words : String)
  deriving DecidableEq, Repr

namespace FileFailure

/-- The wording of a reason that has a number in the system. -/
def numbered (number : Nat) (words : String) : String :=
  words ++ " (os error " ++ toString number ++ ")"

/-- What is said of a failure. -/
def message : FileFailure → String
  | .missing => numbered 2 "No such file or directory"
  | .denied => numbered 13 "Permission denied"
  | .notFolder => numbered 20 "Not a directory"
  | .folder => numbered 21 "Is a directory"
  | .noSpace => numbered 28 "No space left on device"
  | .longName => numbered 36 "File name too long"
  | .notText => "stream did not contain valid UTF-8"
  | .other number words => numbered number words

/-- The failure with a number of the system. -/
def ofNumber (number : Nat) (words : String) : FileFailure :=
  match number with
  | 2 => .missing
  | 13 => .denied
  | 20 => .notFolder
  | 21 => .folder
  | 28 => .noSpace
  | 36 => .longName
  | n => .other n words

end FileFailure

end DriftChamber
