/-
# Hits and space points

What a tracking event consists of.  A hit is one measured coordinate on one wire plane.  A space
point gathers the hits that one chamber saw of one particle, with the stub fitted to them.
-/
import DriftChamber.Ray

namespace DriftChamber

/-- A measured coordinate on a wire plane. -/
structure Hit (α : Type) where
  /-- Number of the plane. -/
  plane : Nat
  /-- Number of the wire in the plane. -/
  wire : UInt32
  /-- The measured coordinate. -/
  coord : α
  deriving DecidableEq, Repr

/-- What one chamber saw of one particle. -/
structure SpacePoint (α : Type) where
  /-- Number of the chamber. -/
  chamber : Nat
  /-- The local ray. -/
  stub : Ray α
  /-- The hits, in the order the chamber gave them. -/
  hits : List (Hit α)
  deriving DecidableEq, Repr

namespace SpacePoint

variable {α : Type}

/-- All points of an event in one list, chamber after chamber.  The first list holds the points of
chamber 1, and each point is stamped with the number of its chamber. -/
def flatten (chambers : List (List (SpacePoint α))) : List (SpacePoint α) :=
  (chambers.zipIdx 1).flatMap fun (points, number) =>
    points.map fun point => { point with chamber := number }

end SpacePoint

end DriftChamber
