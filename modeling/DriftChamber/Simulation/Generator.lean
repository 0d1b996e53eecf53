/-
# Synthetic events

Events with a known truth.  Rays are drawn at random and cross the detector; each plane they cross
answers with a smeared coordinate, or not at all; the hits of a chamber are reduced to a space
point by fitting a local ray to them.  Noise points come from rays of their own, each seen by one
chamber only, and are put in at random places.

An event starts with a list for each chamber and one for the rays.  A detector may claim more
chambers than such a list has room for, and then there is no event (`Generator.generate?`).
-/
import DriftChamber.Fit
import DriftChamber.Random.Normal

namespace DriftChamber

/-- How rays are drawn and how the detector answers. -/
structure Conditions where
  /-- Spread of the two positions of a ray. -/
  positionSpread : Vector Float 2
  /-- Spread of the two slopes of a ray. -/
  slopeSpread : Vector Float 2
  /-- Probability that a plane answers. -/
  planeEfficiency : Float
  /-- Number of noise points in an event. -/
  noisePoints : Nat
  /-- Distance between wires. -/
  wirePitch : Float

namespace Conditions

/-- The usual conditions: every plane answers and there is no noise. -/
def standard : Conditions where
  positionSpread := #v[10.0, 5.0]
  slopeSpread := #v[0.03, 0.02]
  planeEfficiency := 1.0
  noisePoints := 0
  wirePitch := 1.0

/-- The wire at coordinate 0. -/
def centralWire : Float := 64.0

/-- The number of the wire nearest to a coordinate; there is none below 1. -/
def wireAt (c : Conditions) (coord : Float) : UInt32 :=
  let place := (coord / c.wirePitch).round + centralWire
  if 1.0 < place then place.toUInt32 else 1

end Conditions

/-- An event with its truth. -/
structure GeneratedEvent where
  /-- The rays of the particles. -/
  truth : List (Ray Float)
  /-- What the detector made of them, chamber after chamber. -/
  points : List (SpacePoint Float)

/-- Whether a list of so many entries, each of the given size, can be laid out in memory: it takes
fewer than 2 ^ 63 bytes.  How much memory there is does not count. -/
def Addressable (size count : Nat) : Prop := size * count < Nat.pow 2 63

instance (size count : Nat) : Decidable (Addressable size count) :=
  inferInstanceAs (Decidable (_ < _))

/-- What events are made with. -/
structure Generator where
  /-- The detector, and the coefficients through which local rays are fitted. -/
  fitter : Fitter Float
  /-- How rays are drawn and how the detector answers. -/
  conditions : Conditions

namespace Generator

/-- Draws a ray. -/
def spawn (g : Generator) : Draw (Ray Float) := do
  let x ← Draw.normal
  let y ← Draw.normal
  let xp ← Draw.normal
  let yp ← Draw.normal
  let position := g.conditions.positionSpread
  let slope := g.conditions.slopeSpread
  return ⟨position[0] * x, position[1] * y, slope[0] * xp, slope[1] * yp⟩

/-- The hits of a ray on the given planes, in their order. -/
def hitsOn (g : Generator) (ray : Ray Float) : List (Nat × Plane Float) → Draw (List (Hit Float))
  | [] => return []
  | (number, plane) :: rest => do
      let u ← Draw.unitInterval
      if g.conditions.planeEfficiency ≤ u then g.hitsOn ray rest
      else
        let z ← Draw.normal
        let coord := plane.project ray + plane.sigma * z
        let hits ← g.hitsOn ray rest
        return ⟨number, g.conditions.wireAt coord, coord⟩ :: hits

/-- The hits of a ray in a chamber. -/
def digitize (g : Generator) (ray : Ray Float) (chamber : Nat) : Draw (List (Hit Float)) :=
  g.hitsOn ray (g.fitter.geometry.inChamber chamber)

/-- The space point that the hits of a chamber make, if they determine a local ray. -/
def findPoint (g : Generator) (chamber : Nat) (hits : List (Hit Float)) :
    Option (SpacePoint Float) :=
  match g.fitter.solve hits with
  | .ok stub => some ⟨chamber, stub, hits⟩
  | .error _ => none

/-- Lets a ray cross the chambers of the given numbers, and adds the points found to theirs. -/
def crossChambers (g : Generator) (ray : Ray Float) :
    List (List (SpacePoint Float) × Nat) → Draw (List (List (SpacePoint Float)))
  | [] => return []
  | (points, chamber) :: rest => do
      let hits ← g.digitize ray chamber
      let others ← g.crossChambers ray rest
      return (points ++ (g.findPoint chamber hits).toList) :: others

/-- Draws so many rays and lets them cross all chambers. -/
def addRays (g : Generator) :
    Nat → List (List (SpacePoint Float)) → Draw (List (Ray Float) × List (List (SpacePoint Float)))
  | 0, chambers => return ([], chambers)
  | count + 1, chambers => do
      let ray ← g.spawn
      let chambers ← g.crossChambers ray (chambers.zipIdx 1)
      let (rays, chambers) ← g.addRays count chambers
      return (ray :: rays, chambers)

/-- Draws so many noise rays, each seen by one chamber, and puts their points in. -/
def addNoise (g : Generator) :
    Nat → List (List (SpacePoint Float)) → Draw (List (List (SpacePoint Float)))
  | 0, chambers => return chambers
  | count + 1, chambers => do
      let ray ← g.spawn
      let chamber ← Draw.between 1 g.fitter.geometry.numChambers
      let hits ← g.digitize ray chamber
      match g.findPoint chamber hits with
      | none => g.addNoise count chambers
      | some point =>
          let points := chambers[chamber - 1]?.getD []
          let place ← Draw.between 0 points.length
          g.addNoise count (chambers.set (chamber - 1) (points.insertIdx place point))

/-- Draws an event of so many rays, for which there is room. -/
def generate (g : Generator) (rays : Nat) : Draw GeneratedEvent := do
  let (truth, chambers) ←
    g.addRays rays (List.replicate g.fitter.geometry.numChambers [])
  let chambers ← g.addNoise g.conditions.noisePoints chambers
  return ⟨truth, SpacePoint.flatten chambers⟩

/-- Whether there is room for the lists that an event of so many rays starts with: an entry of 24
bytes for the points of each chamber, and one of 32 bytes for each ray. -/
def HasRoom (g : Generator) (rays : Nat) : Prop :=
  Addressable 24 g.fitter.geometry.numChambers ∧ Addressable 32 rays

instance (g : Generator) (rays : Nat) : Decidable (g.HasRoom rays) :=
  inferInstanceAs (Decidable (_ ∧ _))

/-- Draws an event of so many rays.  Where there is no room for it, there is none, and nothing is
drawn. -/
def generate? (g : Generator) (rays : Nat) : OptionT Draw GeneratedEvent :=
  if g.HasRoom rays then OptionT.lift (g.generate rays) else failure

section Room

variable {g : Generator} {rays : Nat}

/-- With room for it, the event is there. -/
theorem generate?_of_hasRoom (h : g.HasRoom rays) (s : Stream) :
    (g.generate? rays).run s = (some (g.generate rays s).1, (g.generate rays s).2) := by
  rw [generate?, if_pos h]
  rfl

/-- Without room for it, nothing happens. -/
theorem generate?_of_not_hasRoom (h : ¬g.HasRoom rays) (s : Stream) :
    (g.generate? rays).run s = (none, s) := by
  rw [generate?, if_neg h]
  rfl

end Room

end Generator

end DriftChamber
