/-
# Reading JSON

The strict grammar: no comments, no comma at the end of a list, nothing after the value.  Blanks
may stand between tokens.  Nesting may be of any depth.

`Json.parse` reads a whole text.
-/
import DriftChamber.Json.Value

namespace DriftChamber.Json

/-! ## Blanks -/

/-- Whether a character may stand between tokens. -/
def isBlank (c : Char) : Bool := c == ' ' || c == '\n' || c == '\t' || c == '\r'

/-- The text from its first character that is no blank. -/
def skipBlanks (cs : List Char) : List Char := cs.dropWhile isBlank

/-! ## Strings

A string is read in two steps: as a list of code points, where an escape may name half of a
surrogate pair, and then, the halves joined, as characters. -/

/-- The value of a hexadecimal digit. -/
def hexValue? (c : Char) : Option Nat :=
  let n := c.toNat
  if 48 ≤ n ∧ n < 58 then some (n - 48)
  else if 97 ≤ n ∧ n < 103 then some (n - 87)
  else if 65 ≤ n ∧ n < 71 then some (n - 55)
  else none

/-- The value of four hexadecimal digits. -/
def hex4? (a b c d : Char) : Option Nat := do
  return (((← hexValue? a) * 16 + (← hexValue? b)) * 16 + (← hexValue? c)) * 16 + (← hexValue? d)

/-- The code point that a letter stands for after a backslash. -/
def escapeValue? (c : Char) : Option Nat :=
  if c = '"' then some 34
  else if c = '\\' then some 92
  else if c = '/' then some 47
  else if c = 'b' then some 8
  else if c = 'f' then some 12
  else if c = 'n' then some 10
  else if c = 'r' then some 13
  else if c = 't' then some 9
  else none

/-- Reads code points up to the closing quote. -/
def codePoints : List Char → Option (List Nat × List Char)
  | [] => none
  | '"' :: rest => some ([], rest)
  | '\\' :: 'u' :: a :: b :: c :: d :: rest =>
      match hex4? a b c d, codePoints rest with
      | some n, some (ns, after) => some (n :: ns, after)
      | _, _ => none
  | '\\' :: c :: rest =>
      match escapeValue? c, codePoints rest with
      | some n, some (ns, after) => some (n :: ns, after)
      | _, _ => none
  | c :: rest =>
      if c.toNat < 32 then none
      else
        match codePoints rest with
        | some (ns, after) => some (c.toNat :: ns, after)
        | none => none

/-- Whether a code point is the first half of a surrogate pair. -/
def isHighHalf (n : Nat) : Bool := decide (0xd800 ≤ n) && decide (n < 0xdc00)

/-- Whether a code point is the second half of a surrogate pair. -/
def isLowHalf (n : Nat) : Bool := decide (0xdc00 ≤ n) && decide (n < 0xe000)

/-- The characters of a list of code points, unless half of a pair stands alone. -/
def joinHalves : List Nat → Option (List Char)
  | [] => some []
  | n :: rest =>
      if isHighHalf n then
        match rest with
        | m :: rest =>
            if isLowHalf m then
              (joinHalves rest).map
                (Char.ofNat (0x10000 + (n - 0xd800) * 0x400 + (m - 0xdc00)) :: ·)
            else none
        | [] => none
      else if isLowHalf n then none
      else (joinHalves rest).map (Char.ofNat n :: ·)

/-- Reads a string after its opening quote; none of its text if it is broken. -/
def readString (cs : List Char) : Option (Option String × List Char) :=
  (codePoints cs).map fun (ns, after) => ((joinHalves ns).map String.ofList, after)

/-! ## Values -/

/-- An object with the given keys, of which none may be broken. -/
def ofFields (fields : List (Option String × Json)) : Json :=
  match fields.mapM fun (key, value) => key.map fun k => (k, value) with
  | some fields => .object fields
  | none => .broken

mutual

/-- Reads a value.  The first argument bounds the number of steps. -/
def readValue : Nat → List Char → Option (Json × List Char)
  | 0, _ => none
  | steps + 1, cs =>
      match skipBlanks cs with
      | 'n' :: 'u' :: 'l' :: 'l' :: rest => some (.null, rest)
      | 't' :: 'r' :: 'u' :: 'e' :: rest => some (.bool true, rest)
      | 'f' :: 'a' :: 'l' :: 's' :: 'e' :: rest => some (.bool false, rest)
      | '"' :: rest =>
          (readString rest).map fun (s, after) => ((s.map Json.string).getD .broken, after)
      | '[' :: rest =>
          match skipBlanks rest with
          | ']' :: after => some (.array [], after)
          | _ => (readItems steps rest).map fun (items, after) => (.array items, after)
      | '\x7b' :: rest =>
          match skipBlanks rest with
          | '\x7d' :: after => some (.object [], after)
          | _ => (readFields steps rest).map fun (fields, after) => (ofFields fields, after)
      | cs => (Numeral.read cs).map fun (n, after) => (.number n, after)

/-- Reads items up to the end of a list. -/
def readItems : Nat → List Char → Option (List Json × List Char)
  | 0, _ => none
  | steps + 1, cs =>
      match readValue steps cs with
      | none => none
      | some (item, rest) =>
        match skipBlanks rest with
        | ',' :: rest => (readItems steps rest).map fun (items, after) => (item :: items, after)
        | ']' :: after => some ([item], after)
        | _ => none

/-- Reads keys and values up to the end of an object. -/
def readFields : Nat → List Char → Option (List (Option String × Json) × List Char)
  | 0, _ => none
  | steps + 1, cs =>
      match skipBlanks cs with
      | '"' :: rest =>
        match readString rest with
        | none => none
        | some (key, rest) =>
          match skipBlanks rest with
          | ':' :: rest =>
            match readValue steps rest with
            | none => none
            | some (value, rest) =>
              match skipBlanks rest with
              | ',' :: rest =>
                  (readFields steps rest).map fun (fields, after) =>
                    ((key, value) :: fields, after)
              | '\x7d' :: after => some ([(key, value)], after)
              | _ => none
          | _ => none
      | _ => none

end

/-- The value of a whole text.  Every step but one for each value reads a character, so twice the
length bounds their number. -/
def parse (text : String) : Option Json :=
  let cs := text.toList
  match readValue (2 * cs.length + 2) cs with
  | some (value, rest) => if (skipBlanks rest).isEmpty then some value else none
  | none => none

end DriftChamber.Json
