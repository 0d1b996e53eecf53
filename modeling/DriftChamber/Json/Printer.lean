/-
# Printing JSON

A value is written in one of two layouts, which differ in the blanks between its parts
(`Json.Spacing`): a compact one without any, and one with an item to a line, each level of nesting
indented by two blanks more.
-/
import DriftChamber.Json.Value

namespace DriftChamber.Json

/-! ## Strings -/

/-- A hexadecimal digit, in lower case. -/
def hexChar (n : Nat) : Char := if n < 10 then Char.ofNat (48 + n) else Char.ofNat (87 + n)

/-- A character inside quotes.  Quote, backslash and control characters are escaped. -/
def escape (c : Char) : List Char :=
  if c = '"' then ['\\', '"']
  else if c = '\\' then ['\\', '\\']
  else if c = '\n' then ['\\', 'n']
  else if c = '\t' then ['\\', 't']
  else if c = '\r' then ['\\', 'r']
  else if c = '\x08' then ['\\', 'b']
  else if c = '\x0c' then ['\\', 'f']
  else if c.toNat < 32 then
    ['\\', 'u', '0', '0', hexChar (c.toNat / 16), hexChar (c.toNat % 16)]
  else [c]

/-- A text in quotes. -/
def quote (s : String) : List Char := '"' :: s.toList.flatMap escape ++ ['"']

/-- Stands for a broken value: a string with half of a surrogate pair. -/
def brokenText : List Char := ['"', '\\', 'u', 'd', '8', '0', '0', '"']

/-- A truth value as text. -/
def boolText (b : Bool) : List Char :=
  if b then ['t', 'r', 'u', 'e'] else ['f', 'a', 'l', 's', 'e']

/-- The null value as text. -/
def nullText : List Char := ['n', 'u', 'l', 'l']

/-! ## Layouts -/

/-- The blanks that a text has between its parts. -/
structure Spacing where
  /-- What stands in front of an item, and in front of the end of a list, at a level of nesting. -/
  line : Nat → List Char
  /-- What stands behind the colon of a key. -/
  gap : List Char

/-- No blanks at all. -/
def Spacing.tight : Spacing := ⟨fun _ => [], []⟩

/-- Each item on a line of its own, indented by two blanks for each level. -/
def Spacing.lines : Spacing := ⟨fun level => '\n' :: List.replicate (2 * level) ' ', [' ']⟩

section Layout

variable (s : Spacing)

mutual

/-- A value at a level of nesting.  Nothing stands in an empty list or object. -/
def written (level : Nat) : Json → List Char
  | .null => nullText
  | .bool b => boolText b
  | .number n => n.print
  | .string text => quote text
  | .array [] => ['[', ']']
  | .array items => '[' :: writtenItems (level + 1) items ++ s.line level ++ [']']
  | .object [] => ['\x7b', '\x7d']
  | .object fields => '\x7b' :: writtenFields (level + 1) fields ++ s.line level ++ ['\x7d']
  | .broken => brokenText

/-- Items with commas between them. -/
def writtenItems (level : Nat) : List Json → List Char
  | [] => []
  | [item] => s.line level ++ written level item
  | item :: rest => s.line level ++ written level item ++ ',' :: writtenItems level rest

/-- Keys and values with commas between them. -/
def writtenFields (level : Nat) : List (String × Json) → List Char
  | [] => []
  | [(key, value)] => s.line level ++ quote key ++ ':' :: s.gap ++ written level value
  | (key, value) :: rest =>
      s.line level ++ quote key ++ ':' :: s.gap ++ written level value ++
        ',' :: writtenFields level rest

end

end Layout

/-- The compact text of a value. -/
def compactText (j : Json) : String := String.ofList (j.written Spacing.tight 0)

/-- The text of a value with one item to a line. -/
def prettyText (j : Json) : String := String.ofList (j.written Spacing.lines 0)

end DriftChamber.Json
