/-
# The first fault of a table

What the check of a table says of planes that it refuses.  A plane may be wrong in three ways
(`Fault`), and it is sound if it is in none of them (`Plane.sound_iff`).  The check goes through the
planes in their order and through the faults of each in theirs, so what it reports is the first
fault of the first plane that has one (`Geometry.ofPlanes?_outcome`).
-/
import DriftChamber.Proofs.Float.Order
import DriftChamber.Proofs.Geometry.Table

namespace DriftChamber

/-! ## Faults of a plane -/

/-- In what a plane may be wrong. -/
inductive Fault where
  /-- The chamber that it claims does not exist. -/
  | chamber
  /-- Its uncertainty is not finite, or not positive. -/
  | sigma
  /-- A coefficient is not finite. -/
  | coefficients
  deriving DecidableEq, Repr

namespace Fault

/-- The faults that are looked for before a fault. -/
def earlier : Fault → List Fault
  | .chamber => []
  | .sigma => [.chamber]
  | .coefficients => [.chamber, .sigma]

/-- What is said of a fault of the plane of the given number. -/
def report (numChambers number : Nat) (p : Plane Float) : Fault → GeometryError Float
  | .chamber => .invalidChamber number p.chamber numChambers
  | .sigma => .invalidSigma number p.sigma
  | .coefficients => .nonFiniteCoefficients number

end Fault

namespace Plane

variable (numChambers : Nat) (p : Plane Float)

/-- Whether a plane of a detector with so many chambers has a fault. -/
def HasFault : Fault → Prop
  | .chamber => ¬(1 ≤ p.chamber ∧ p.chamber ≤ numChambers)
  | .sigma => p.sigma.isFinite = false ∨ p.sigma ≤ 0
  | .coefficients => ∃ k : Fin 9, (p.coefficients.get k).isFinite = false

/-- Whether a fault of a plane is the first that is found. -/
def FirstFault (fault : Fault) : Prop :=
  p.HasFault numChambers fault ∧ ∀ other ∈ fault.earlier, ¬p.HasFault numChambers other

instance : (fault : Fault) → Decidable (p.HasFault numChambers fault)
  | .chamber => inferInstanceAs (Decidable (¬(1 ≤ p.chamber ∧ p.chamber ≤ numChambers)))
  | .sigma => inferInstanceAs (Decidable (p.sigma.isFinite = false ∨ p.sigma ≤ 0))
  | .coefficients =>
      inferInstanceAs (Decidable (∃ k : Fin 9, (p.coefficients.get k).isFinite = false))

instance (fault : Fault) : Decidable (p.FirstFault numChambers fault) :=
  inferInstanceAs (Decidable (_ ∧ ∀ other ∈ fault.earlier, ¬p.HasFault numChambers other))

variable {numChambers p}

theorem hasFault_chamber_iff :
    p.HasFault numChambers .chamber ↔ p.chamber = 0 ∨ numChambers < p.chamber := by
  show ¬_ ↔ _
  omega

theorem hasFault_sigma_iff :
    p.HasFault numChambers .sigma ↔ Scalar.isPositive p.sigma = false :=
  Binary64.isPositive_eq_false_iff.symm

theorem hasFault_coefficients_iff :
    p.HasFault numChambers .coefficients ↔ p.coefficients.all Scalar.isFinite = false := by
  rw [Vector.all_eq_false]
  constructor
  · rintro ⟨⟨k, hk⟩, hinfinite⟩
    exact ⟨k, hk, Bool.eq_false_iff.mp hinfinite⟩
  · rintro ⟨k, hk, hinfinite⟩
    exact ⟨⟨k, hk⟩, Bool.eq_false_iff.mpr hinfinite⟩

/-- A sound plane is one without faults. -/
theorem sound_iff : p.Sound numChambers ↔ ∀ fault, ¬p.HasFault numChambers fault := by
  constructor
  · intro h fault
    cases fault with
    | chamber => exact not_not_intro ⟨h.chamber_pos, h.chamber_le⟩
    | sigma => rw [hasFault_sigma_iff, Bool.not_eq_false, h.sigma_pos]
    | coefficients => rw [hasFault_coefficients_iff, Bool.not_eq_false, h.coefficients_finite]
  · intro h
    obtain ⟨hpos, hle⟩ := not_not.mp (h .chamber)
    refine ⟨hpos, hle, ?_, ?_⟩
    · exact (Bool.not_eq_false _).mp (hasFault_sigma_iff.not.mp (h .sigma))
    · exact (Bool.not_eq_false _).mp (hasFault_coefficients_iff.not.mp (h .coefficients))

variable {number : Nat} {fault : Fault}

/-- A plane with a fault has a first one. -/
theorem exists_firstFault (h : p.HasFault numChambers fault) :
    ∃ first, p.FirstFault numChambers first := by
  by_cases hchamber : p.HasFault numChambers .chamber
  · exact ⟨.chamber, hchamber, by simp [Fault.earlier]⟩
  · by_cases hsigma : p.HasFault numChambers .sigma
    · exact ⟨.sigma, hsigma, by simp [Fault.earlier, hchamber]⟩
    · refine ⟨.coefficients, ?_, by simp [Fault.earlier, hchamber, hsigma]⟩
      cases fault with
      | chamber => exact absurd h hchamber
      | sigma => exact absurd h hsigma
      | coefficients => exact h

/-- The first fault of a plane is what its check tells. -/
theorem defect?_of_firstFault (h : p.FirstFault numChambers fault) :
    p.defect? numChambers number = some (fault.report numChambers number p) := by
  obtain ⟨hfault, hearlier⟩ := h
  unfold defect?
  cases fault with
  | chamber => exact if_pos (hasFault_chamber_iff.mp hfault)
  | sigma =>
      have hchamber := hearlier .chamber (by simp [Fault.earlier])
      rw [if_neg (hasFault_chamber_iff.not.mp hchamber)]
      exact if_pos (hasFault_sigma_iff.mp hfault)
  | coefficients =>
      have hchamber := hearlier .chamber (by simp [Fault.earlier])
      have hsigma := hearlier .sigma (by simp [Fault.earlier])
      rw [if_neg (hasFault_chamber_iff.not.mp hchamber),
        if_neg (hasFault_sigma_iff.not.mp hsigma)]
      exact if_pos (hasFault_coefficients_iff.mp hfault)

/-- The check tells of a plane exactly if it has a first fault. -/
theorem defect?_eq_some_iff {e : GeometryError Float} :
    p.defect? numChambers number = some e ↔
      ∃ fault, p.FirstFault numChambers fault ∧ fault.report numChambers number p = e := by
  constructor
  · intro h
    have hunsound : ¬p.Sound numChambers := fun hsound => by
      rw [defect?_eq_none_iff.mpr hsound] at h
      cases h
    obtain ⟨fault, hfault⟩ := not_forall_not.mp (sound_iff.not.mp hunsound)
    obtain ⟨first, hfirst⟩ := exists_firstFault hfault
    rw [defect?_of_firstFault hfirst] at h
    exact ⟨first, hfirst, Option.some.inj h⟩
  · rintro ⟨fault, hfirst, rfl⟩
    exact defect?_of_firstFault hfirst

end Plane

/-! ## What is said of a table -/

namespace Geometry

/-- What is said of a list of planes that is refused. -/
inductive Refusal (numChambers : Nat) : List (Plane Float) → GeometryError Float → Prop
  /-- There is no plane. -/
  | empty : Refusal numChambers [] .emptyTable
  /-- The first plane with a fault is named by its number, and its first fault is told. -/
  | fault {before after : List (Plane Float)} {p : Plane Float} {fault : Fault}
      (hbefore : ∀ q ∈ before, ∀ other, ¬q.HasFault numChambers other)
      (hfirst : p.FirstFault numChambers fault) :
      Refusal numChambers (before ++ p :: after)
        (fault.report numChambers (before.length + 1) p)

variable {numChambers : Nat} {planes : List (Plane Float)}

theorem ofPlanes?_eq_error_iff_refusal {e : GeometryError Float} :
    ofPlanes? planes numChambers = .error e ↔ Refusal numChambers planes e := by
  rw [ofPlanes?_eq_error_iff, firstDefect?_eq_some_iff]
  constructor
  · rintro (⟨rfl, rfl⟩ | ⟨before, p, after, rfl, hsound, hdefect⟩)
    · exact .empty
    · obtain ⟨fault, hfirst, rfl⟩ := Plane.defect?_eq_some_iff.mp hdefect
      exact .fault (fun q hq => Plane.sound_iff.mp (hsound q hq)) hfirst
  · rintro (_ | ⟨hbefore, hfirst⟩)
    · exact Or.inl ⟨rfl, rfl⟩
    · exact Or.inr ⟨_, _, _, rfl, fun q hq => Plane.sound_iff.mpr (hbefore q hq),
        Plane.defect?_eq_some_iff.mpr ⟨_, hfirst, rfl⟩⟩

/-- A list of planes is refused exactly if it is empty or one of them has a fault. -/
theorem exists_error_iff :
    (∃ e, ofPlanes? planes numChambers = .error e) ↔
      planes = [] ∨ ∃ p ∈ planes, ∃ fault, p.HasFault numChambers fault := by
  have hrefused : (∃ e, ofPlanes? planes numChambers = .error e) ↔
      ¬∃ g, ofPlanes? planes numChambers = .ok g := by
    cases ofPlanes? planes numChambers <;> simp
  rw [hrefused, exists_ofPlanes?_iff, not_and_or, not_not]
  simp only [Plane.sound_iff, not_forall, not_not, exists_prop]

/-- What comes of a list of planes.  It is refused exactly if it is empty or if a plane claims a
chamber that does not exist, has an uncertainty that is not finite or not positive, or has a
coefficient that is not finite.  Of the planes with such a fault the first is named, and of its
faults the first in that order is told.  Otherwise there is a table of the planes as they are given,
with at least one chamber, and it sorts the numbers of the planes into chambers: each stands once,
in increasing order, in the chamber that its plane belongs to. -/
theorem ofPlanes?_outcome (planes : List (Plane Float)) (numChambers : Nat) :
    ((∃ e, ofPlanes? planes numChambers = .error e) ↔
        planes = [] ∨ ∃ p ∈ planes, ∃ fault, p.HasFault numChambers fault) ∧
      (∀ e, ofPlanes? planes numChambers = .error e ↔ Refusal numChambers planes e) ∧
      ∀ g, ofPlanes? planes numChambers = .ok g →
        g.planes = planes ∧ g.numChambers = numChambers ∧ g.Partitioned := by
  refine ⟨exists_error_iff, fun e => ofPlanes?_eq_error_iff_refusal, fun g h => ?_⟩
  obtain ⟨hplanes, hchambers⟩ := eq_of_ofPlanes? h
  exact ⟨hplanes, hchambers, g.partitioned⟩

/-- A plane of the given chamber and uncertainty. -/
def levelPlane (chamber : Nat) (sigma : Float) : Plane Float :=
  ⟨chamber, sigma, #v[0, 0, 0, 0, 1, 0, 0, 0, 1]⟩

/-- Planes of the chambers 1 and 3 in turn. -/
def alternating : List (Plane Float) :=
  [levelPlane 1 0.5, levelPlane 3 0.5, levelPlane 1 0.25, levelPlane 3 0.25]

/-- A plane without uncertainty, and with a coefficient that is no number. -/
def faultyPlane : Plane Float := ⟨3, 0, #v[0, 0, 0, 0, 0 / 0, 0, 0, 0, 1]⟩

/-- Such a plane before one that claims no chamber at all is the one that is named, for its
uncertainty.  The alternating ones make a table of three chambers, one of them empty. -/
theorem ofPlanes?_outcome_alternating :
    ofPlanes? [levelPlane 1 0.5, faultyPlane, levelPlane 0 0.5] 3 = .error (.invalidSigma 2 0) ∧
      ∃ g, ofPlanes? alternating 3 = .ok g ∧
        ([1, 2, 3].flatMap g.planesInChamber).Perm [1, 2, 3, 4] ∧
        2 ∈ g.planesInChamber 3 ∧ 2 ∉ g.planesInChamber 2 := by
  have hlevel : (levelPlane 1 0.5).defect? 3 1 = none := by decide +kernel
  have hfirst : faultyPlane.FirstFault 3 .sigma := by decide +kernel
  obtain ⟨-, hreport, -⟩ := ofPlanes?_outcome [levelPlane 1 0.5, faultyPlane, levelPlane 0 0.5] 3
  obtain ⟨-, -, htable⟩ := ofPlanes?_outcome alternating 3
  have hbefore : ∀ q ∈ [levelPlane 1 0.5], ∀ other, ¬q.HasFault 3 other :=
    List.forall_mem_singleton.mpr (Plane.sound_iff.mp (Plane.defect?_eq_none_iff.mp hlevel))
  have hsound : firstDefect? 3 alternating = none := by decide +kernel
  obtain ⟨g, hg⟩ := exists_ofPlanes?_iff.mpr
    ⟨List.cons_ne_nil _ _, firstDefect?_eq_none_iff.mp hsound⟩
  obtain ⟨hplanes, hchambers, hsorted⟩ := htable g hg
  have hperm := hsorted.perm
  have hchamber : g.chamberOf? 2 = some 3 := by rw [chamberOf?, plane?, hplanes]; rfl
  rw [hchambers, numPlanes, hplanes] at hperm
  refine ⟨(hreport _).mpr (.fault hbefore hfirst), g, hg, hperm, ?_, ?_⟩
  · exact (hsorted.mem_iff 2 3).mpr hchamber
  · rw [hsorted.mem_iff, hchamber]
    decide

end Geometry

end DriftChamber
