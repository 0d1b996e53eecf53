/-
# JSON values

Values as JSON text writes them.  Numbers keep their written form, so that a whole number and the
same number with a decimal place stay apart.  Objects keep the order and the repetitions of their
keys.
-/
import DriftChamber.Decimal.Shortest

namespace DriftChamber

/-- A JSON value. -/
inductive Json where
  /-- The null value. -/
  | null
  /-- A truth value. -/
  | bool (value : Bool)
  /-- A number. -/
  | number (value : Numeral)
  /-- A string. -/
  | string (value : String)
  /-- A list. -/
  | array (items : List Json)
  /-- A list of values under keys. -/
  | object (fields : List (String × Json))
  /-- Well-formed text that stands for no value: a string with half of a surrogate pair, or an
  object with such a key. -/
  | broken

namespace Json

/-- A natural number. -/
def nat (n : Nat) : Json := .number (.ofNat n)

/-- An integer. -/
def int (n : Int) : Json := .number (.ofInt n)

/-- A double in stored form; what is not finite becomes null. -/
def float (x : Float) : Json :=
  if x.isFinite then .number (.ofFloat Layout.stored x) else .null

/-- A list of values of one kind. -/
def list {β : Type} (encode : β → Json) (values : List β) : Json := .array (values.map encode)

/-- A value that may be missing. -/
def option {β : Type} (encode : β → Json) : Option β → Json
  | some value => encode value
  | none => .null

mutual

/-- How deep lists and objects are nested in a value; one that stands alone counts 1. -/
def depth : Json → Nat
  | .array items => depthOfItems items + 1
  | .object fields => depthOfFields fields + 1
  | _ => 0

/-- The depth of the deepest item. -/
def depthOfItems : List Json → Nat
  | [] => 0
  | item :: rest => max item.depth (depthOfItems rest)

/-- The depth of the deepest value under a key. -/
def depthOfFields : List (String × Json) → Nat
  | [] => 0
  | (_, value) :: rest => max value.depth (depthOfFields rest)

end

mutual

/-- Whether every part of a value stands for something: no broken text, no number too large for a
double. -/
def isSound : Json → Bool
  | .broken => false
  | .number n => n.toFloat?.isSome
  | .array items => areSoundItems items
  | .object fields => areSoundFields fields
  | _ => true

/-- Whether all items are sound. -/
def areSoundItems : List Json → Bool
  | [] => true
  | item :: rest => item.isSound && areSoundItems rest

/-- Whether all values under keys are sound. -/
def areSoundFields : List (String × Json) → Bool
  | [] => true
  | (_, value) :: rest => value.isSound && areSoundFields rest

end

end Json

end DriftChamber
