/-
# Decoding JSON

From JSON values to values of a known kind.  A record may be written as an object, its fields
under their names, or as a list of its fields in order.  In an object, other keys are ignored, but
a field given twice is refused; in a list, fields may be missing at the end only.
-/
import DriftChamber.Json.Value

namespace DriftChamber.Json

/-- The value under a key, if it is there; a key given twice is refused. -/
def fieldOnce (fields : List (String × Json)) (name : String) : Option (Option Json) :=
  match fields.filter fun field => field.1 == name with
  | [] => some none
  | [field] => some (some field.2)
  | _ => none

/-- The fields of a record, in the order of the given names. -/
def record (names : List String) : Json → Option (List (Option Json))
  | .array items =>
      if items.length ≤ names.length then
        some (items.map some ++ List.replicate (names.length - items.length) none)
      else none
  | .object fields => names.mapM (fieldOnce fields)
  | _ => none

/-- A truth value. -/
def bool? : Json → Option Bool
  | .bool b => some b
  | _ => none

/-- A string. -/
def string? : Json → Option String
  | .string s => some s
  | _ => none

/-- A double: any number that is not too large. -/
def float? : Json → Option Float
  | .number n => n.toFloat?
  | _ => none

/-- A natural number below a bound. -/
def natBelow? (bound : Nat) : Json → Option Nat
  | .number n => n.toNat?.bind fun value => if value < bound then some value else none
  | _ => none

/-- A natural number of 64 bits. -/
def nat64? : Json → Option Nat := natBelow? UInt64.size

/-- A natural number of 32 bits. -/
def uint32? (j : Json) : Option UInt32 := (natBelow? UInt32.size j).map UInt32.ofNat

/-- A signed integer of 32 bits. -/
def int32? : Json → Option Int32
  | .number n => n.toInt?.bind fun value =>
      if -0x80000000 ≤ value ∧ value < 0x80000000 then some (Int32.ofInt value) else none
  | _ => none

/-- A list of values of one kind. -/
def list? {β : Type} (decode : Json → Option β) : Json → Option (List β)
  | .array items => items.mapM decode
  | _ => none

/-- A list of a given number of values. -/
def vector? {β : Type} (size : Nat) (decode : Json → Option β) (j : Json) :
    Option (Vector β size) :=
  (list? decode j).bind fun values =>
    if h : values.length = size then some ⟨values.toArray, by simpa using h⟩ else none

/-- A field that has to be there. -/
def required {β : Type} (decode : Json → Option β) (field : Option Json) : Option β :=
  field.bind decode

/-- A field that has a default. -/
def withDefault {β : Type} (default : β) (decode : Json → Option β) : Option Json → Option β
  | some j => decode j
  | none => some default

end DriftChamber.Json
