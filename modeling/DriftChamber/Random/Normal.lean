/-
# Normal deviates

Drawing from the standard normal distribution by layers: a word picks a layer and a place across
it.  A place under the next narrower layer is taken at once, another one if a second draw says that
it lies under the curve.  The lowest layer falls back on the tail, which is drawn by rejection from
an exponential distribution.
-/
import DriftChamber.Random.Layers
import DriftChamber.Random.Stream

namespace DriftChamber.Draw

/-- The double from 1 up to 2 with the given 52 places. -/
def fromOne (places : UInt64) : Float := Float.ofBits (0x3ff0000000000000 ||| places)

/-- The double from 2 up to 4 with the given 52 places. -/
def fromTwo (places : UInt64) : Float := Float.ofBits (0x4000000000000000 ||| places)

/-- Draws a double strictly between 0 and 1. -/
def openInterval : Draw Float := do
  let w ← word
  return fromOne (w >>> 12) - Float.ofBits 0x3fefffffffffffff

/-- Draws a distance beyond the start of the tail. -/
def beyondTail : Nat → Draw Float
  | 0 => return 0
  | tries + 1 => do
      let a ← openInterval
      let b ← openInterval
      let x := a.log / Layers.tailStart
      let y := b.log
      if -2.0 * y < x * x then beyondTail tries else return x

/-- Draws from the tail, on the side of `u`. -/
def tail (u : Float) : Draw Float := do
  let x ← beyondTail attempts
  return if u < 0.0 then x - Layers.tailStart else Layers.tailStart - x

/-- Draws places until one lies under the curve. -/
def normalWithin : Nat → Draw Float
  | 0 => return 0
  | tries + 1 => do
      let w ← word
      let layer : Fin 256 := ⟨w.toNat % 256, Nat.mod_lt _ (by decide)⟩
      let u := fromTwo (w >>> 12) - 3.0
      let x := u * Layers.edge layer.castSucc
      if x.abs < Layers.edge layer.succ then return x
      else if layer = 0 then tail u
      else
        let upper := Layers.height layer.succ
        let v ← unitInterval
        if upper + (Layers.height layer.castSucc - upper) * v < (-x * x / 2.0).exp then return x
        else normalWithin tries

/-- Draws from the standard normal distribution. -/
def normal : Draw Float := normalWithin attempts

end DriftChamber.Draw
