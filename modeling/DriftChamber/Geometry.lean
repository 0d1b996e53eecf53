/-
# Detector geometry

The table of all wire planes of a detector.  Planes are numbered from 1 in table order; each
belongs to one of the chambers `1 … numChambers`.  A `Geometry` is a table that passed its check,
so whoever holds one need not ask again:

* `Geometry.ofPlanes?` builds it, or names the first defect of the first defective plane;
* `Geometry.plane?` looks a plane up by number.

A `RayMap` says at which four of a plane's coefficients the ray parameters `x, y, xp, yp` stand.
-/
import DriftChamber.Plane

namespace DriftChamber

/-- Why a table of planes, or a choice of ray coefficients, is refused. -/
inductive GeometryError (α : Type) where
  /-- There are no planes. -/
  | emptyTable
  /-- A plane claims a chamber that the detector does not have. -/
  | invalidChamber (plane chamber numChambers : Nat)
  /-- The uncertainty of a plane is not finite and positive. -/
  | invalidSigma (plane : Nat) (sigma : α)
  /-- A projection coefficient of a plane is not finite. -/
  | nonFiniteCoefficients (plane : Nat)
  /-- A ray parameter is sought past the nine coefficients. -/
  | coefficientIndex (index : Nat)
  deriving DecidableEq, Repr

variable {α : Type} [Scalar α]

/-! ## Sound planes -/

/-- What a plane has to satisfy to stand in a table of `numChambers` chambers. -/
structure Plane.Sound (numChambers : Nat) (p : Plane α) : Prop where
  /-- Chambers are numbered from 1. -/
  chamber_pos : 0 < p.chamber
  /-- The chamber exists. -/
  chamber_le : p.chamber ≤ numChambers
  /-- The uncertainty is finite and positive. -/
  sigma_pos : Scalar.isPositive p.sigma = true
  /-- All coefficients are finite. -/
  coefficients_finite : p.coefficients.all Scalar.isFinite = true

/-- The first thing wrong with the plane of the given number: chamber, then uncertainty, then
coefficients. -/
def Plane.defect? (numChambers number : Nat) (p : Plane α) : Option (GeometryError α) :=
  if p.chamber = 0 ∨ numChambers < p.chamber then
    some (.invalidChamber number p.chamber numChambers)
  else if Scalar.isPositive p.sigma = false then some (.invalidSigma number p.sigma)
  else if p.coefficients.all Scalar.isFinite = false then some (.nonFiniteCoefficients number)
  else none

/-- A plane has no defect exactly if it is sound. -/
theorem Plane.defect?_eq_none_iff {numChambers number : Nat} {p : Plane α} :
    p.defect? numChambers number = none ↔ p.Sound numChambers := by
  unfold Plane.defect?
  constructor
  · intro h
    split at h
    · simp at h
    · rename_i hc
      split at h
      · simp at h
      · split at h
        · simp at h
        · exact ⟨by omega, by omega, by simp_all, by simp_all⟩
  · rintro ⟨h0, hle, hs, hf⟩
    rw [if_neg (by omega), if_neg (by simp [hs]), if_neg (by simp [hf])]

/-- The first defect of a list of planes, numbered from 1. -/
def firstDefect? (numChambers : Nat) (planes : List (Plane α)) : Option (GeometryError α) :=
  (planes.zipIdx 1).findSome? fun (p, number) => p.defect? numChambers number

/-- A list without a defect holds sound planes only. -/
theorem firstDefect?_eq_none_iff {numChambers : Nat} {planes : List (Plane α)} :
    firstDefect? numChambers planes = none ↔ ∀ p ∈ planes, p.Sound numChambers := by
  unfold firstDefect?
  rw [List.findSome?_eq_none_iff]
  constructor
  · intro h p hp
    obtain ⟨i, hi, rfl⟩ := List.mem_iff_getElem.mp hp
    exact Plane.defect?_eq_none_iff.mp
      (h (planes[i], 1 + i) (by simp [List.mk_mem_zipIdx_iff_le_and_getElem?_sub, hi]))
  · rintro h ⟨p, number⟩ hmem
    exact Plane.defect?_eq_none_iff.mpr (h p (List.fst_mem_of_mem_zipIdx hmem))

/-! ## The table -/

/-- A checked table of planes.  The plane at index `i` has number `i + 1`. -/
structure Geometry (α : Type) [Scalar α] where
  /-- The planes, in the order of their numbers. -/
  planes : List (Plane α)
  /-- Number of chambers. -/
  numChambers : Nat
  /-- There is at least one plane. -/
  planes_ne_nil : planes ≠ []
  /-- Every plane is sound. -/
  sound : ∀ p ∈ planes, p.Sound numChambers

namespace Geometry

/-- The table of the given planes, unless it is empty or a plane is defective. -/
def ofPlanes? (planes : List (Plane α)) (numChambers : Nat) :
    Except (GeometryError α) (Geometry α) :=
  if hne : planes = [] then .error .emptyTable
  else
    match h : firstDefect? numChambers planes with
    | some defect => .error defect
    | none => .ok ⟨planes, numChambers, hne, firstDefect?_eq_none_iff.mp h⟩

/-- Number of planes. -/
def numPlanes (g : Geometry α) : Nat := g.planes.length

/-- The plane of the given number, counted from 1. -/
def plane? (g : Geometry α) : Nat → Option (Plane α)
  | 0 => none
  | index + 1 => g.planes[index]?

/-- The chamber that the plane of the given number belongs to. -/
def chamberOf? (g : Geometry α) (number : Nat) : Option Nat :=
  (g.plane? number).map (·.chamber)

/-- All planes with their numbers. -/
def numbered (g : Geometry α) : List (Nat × Plane α) :=
  (g.planes.zipIdx 1).map fun (p, number) => (number, p)

/-- The planes of a chamber with their numbers, in increasing order. -/
def inChamber (g : Geometry α) (chamber : Nat) : List (Nat × Plane α) :=
  g.numbered.filter fun entry => entry.2.chamber == chamber

/-- The numbers of the planes of a chamber, in increasing order. -/
def planesInChamber (g : Geometry α) (chamber : Nat) : List Nat :=
  (g.inChamber chamber).map (·.1)

end Geometry

/-! ## Ray coefficients -/

/-- Where the parameters `x, y, xp, yp` of a ray stand among a plane's coefficients. -/
abbrev RayMap : Type := Vector (Fin 9) 4

namespace RayMap

/-- The positions used for planes that measure a linear combination of `x` and `y`. -/
def standardIndices : Vector Nat 4 := #v[4, 5, 2, 3]

/-- The map with the given positions; the first position past the coefficients is an error. -/
def ofIndices? (indices : Vector Nat 4) : Except (GeometryError α) RayMap :=
  if h : ∀ k : Fin 4, indices.get k < 9 then .ok (Vector.ofFn fun k => ⟨indices.get k, h k⟩)
  else .error (.coefficientIndex ((indices.toList.find? fun index => 9 ≤ index).getD 9))

/-- The four coefficients that multiply the ray parameters. -/
def select (map : RayMap) (coefficients : Coefficients α) : Vector α 4 :=
  map.map fun index => coefficients[index]

end RayMap

end DriftChamber
