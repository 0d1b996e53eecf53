/-
# The table of planes

A table takes planes as they are given, if there are any and all are sound
(`Geometry.exists_ofPlanes?_iff`); else the first that is not sound decides what is said of them
(`firstDefect?_eq_some_iff`).  It numbers them from 1 (`Geometry.isSome_plane?_iff`) and sorts
the numbers into chambers, each in increasing order (`Geometry.pairwise_planesInChamber`).  A number
stands in the chamber that its plane belongs to, and in no other
(`Geometry.mem_planesInChamber_iff`), so the chambers of a detector together have every number once
(`Geometry.partitioned`).
-/
import Mathlib
import DriftChamber.Geometry

namespace DriftChamber

variable {α : Type} [Scalar α]

/-! ## Tables that are accepted -/

section Accepted

variable {planes : List (Plane α)} {numChambers : Nat}

/-- The check of a list of planes stops at the first plane that is not sound. -/
theorem firstDefect?_eq_some_iff {e : GeometryError α} :
    firstDefect? numChambers planes = some e ↔ ∃ before p after, planes = before ++ p :: after ∧
      (∀ q ∈ before, q.Sound numChambers) ∧ p.defect? numChambers (before.length + 1) = some e := by
  constructor
  · intro h
    obtain ⟨passed, ⟨p, number⟩, rest, hzip, hdefect, hnone⟩ := List.findSome?_eq_some_iff.mp h
    obtain ⟨before, others, rfl, rfl, hothers⟩ := List.zipIdx_eq_append_iff.mp hzip
    obtain ⟨_, after, rfl, heq, -⟩ := List.zipIdx_eq_cons_iff.mp hothers.symm
    cases heq
    have hsound : firstDefect? numChambers before = none := List.findSome?_eq_none_iff.mpr hnone
    exact ⟨before, p, after, rfl, firstDefect?_eq_none_iff.mp hsound,
      Nat.add_comm 1 before.length ▸ hdefect⟩
  · rintro ⟨before, p, after, rfl, hsound, hdefect⟩
    refine List.findSome?_eq_some_iff.mpr ⟨before.zipIdx 1, (p, before.length + 1),
      after.zipIdx (before.length + 2), ?_, hdefect, ?_⟩
    · rw [List.zipIdx_append, List.zipIdx_cons, Nat.add_comm 1]
    · exact List.findSome?_eq_none_iff.mp (firstDefect?_eq_none_iff.mpr hsound)

namespace Geometry

theorem ofPlanes?_eq_error_iff {e : GeometryError α} :
    ofPlanes? planes numChambers = .error e ↔
      planes = [] ∧ e = .emptyTable ∨ firstDefect? numChambers planes = some e := by
  unfold ofPlanes?
  split
  · next hnil => simp [hnil, firstDefect?, eq_comm]
  · next hne =>
      split
      · next defect hdefect => simp [hne, hdefect]
      · next hnone => simp [hne, hnone]

/-- A table that is accepted holds the planes as they are given. -/
theorem eq_of_ofPlanes? {g : Geometry α} (h : ofPlanes? planes numChambers = .ok g) :
    g.planes = planes ∧ g.numChambers = numChambers := by
  unfold ofPlanes? at h
  split at h
  · cases h
  · split at h
    · cases h
    · cases h
      exact ⟨rfl, rfl⟩

/-- A table takes planes, and sound ones only. -/
theorem exists_ofPlanes?_iff :
    (∃ g, ofPlanes? planes numChambers = .ok g) ↔
      planes ≠ [] ∧ ∀ p ∈ planes, p.Sound numChambers := by
  unfold ofPlanes?
  split
  · next hnil => exact iff_of_false (by simp) fun h => h.1 hnil
  · next hne =>
      split
      · next defect hdefect =>
          refine iff_of_false (by simp) fun h => ?_
          rw [firstDefect?_eq_none_iff.mpr h.2] at hdefect
          cases hdefect
      · next hnone => exact iff_of_true ⟨_, rfl⟩ ⟨hne, firstDefect?_eq_none_iff.mp hnone⟩

/-- A detector has a chamber, since it has a plane. -/
theorem numChambers_pos (g : Geometry α) : 0 < g.numChambers := by
  obtain ⟨plane, hplane⟩ := List.exists_mem_of_ne_nil _ g.planes_ne_nil
  have hsound := g.sound plane hplane
  exact Nat.lt_of_lt_of_le hsound.chamber_pos hsound.chamber_le

end Geometry

end Accepted

namespace Geometry

/-! ## Numbers -/

section Numbers

variable {g : Geometry α} {number chamber : Nat} {plane : Plane α}

/-- The planes of a detector are numbered from 1. -/
theorem isSome_plane?_iff :
    (g.plane? number).isSome = true ↔ 0 < number ∧ number ≤ g.numPlanes := by
  cases number with
  | zero => simp [plane?]
  | succ index => simp [plane?, numPlanes]

/-- So they belong to a chamber. -/
theorem exists_chamberOf?_iff :
    (∃ chamber, g.chamberOf? number = some chamber) ↔ 0 < number ∧ number ≤ g.numPlanes := by
  rw [← isSome_plane?_iff, ← Option.isSome_iff_exists, chamberOf?, Option.isSome_map]

theorem mem_planes_of_plane? (h : g.plane? number = some plane) : plane ∈ g.planes := by
  cases number with
  | zero => cases h
  | succ index => exact List.mem_of_getElem? h

/-- A plane belongs to a chamber of the detector. -/
theorem chamber_mem_of_chamberOf? (h : g.chamberOf? number = some chamber) :
    1 ≤ chamber ∧ chamber ≤ g.numChambers := by
  obtain ⟨plane, hplane, rfl⟩ := Option.map_eq_some_iff.mp h
  have hsound := g.sound plane (mem_planes_of_plane? hplane)
  exact ⟨hsound.chamber_pos, hsound.chamber_le⟩

theorem mem_numbered_iff : (number, plane) ∈ g.numbered ↔ g.plane? number = some plane := by
  have hzip : (number, plane) ∈ g.numbered ↔ (plane, number) ∈ g.planes.zipIdx 1 := by
    simp [numbered]
  rw [hzip, List.mk_mem_zipIdx_iff_le_and_getElem?_sub]
  cases number with
  | zero => exact iff_of_false (fun h => Nat.not_succ_le_zero 0 h.1) nofun
  | succ index => exact and_iff_right (Nat.le_add_left 1 index)

/-! ## Chambers -/

/-- The planes of a chamber are those that belong to it. -/
theorem mem_planesInChamber_iff :
    number ∈ g.planesInChamber chamber ↔ g.chamberOf? number = some chamber := by
  rw [planesInChamber, List.mem_map, chamberOf?, Option.map_eq_some_iff]
  constructor
  · rintro ⟨⟨_, plane⟩, hmem, rfl⟩
    obtain ⟨hnumbered, hchamber⟩ := List.mem_filter.mp hmem
    exact ⟨plane, mem_numbered_iff.mp hnumbered, beq_iff_eq.mp hchamber⟩
  · rintro ⟨plane, hplane, hchamber⟩
    refine ⟨(number, plane), List.mem_filter.mpr ⟨mem_numbered_iff.mpr hplane, ?_⟩, rfl⟩
    exact beq_iff_eq.mpr hchamber

end Numbers

variable (g : Geometry α)

theorem planesInChamber_sublist (chamber : Nat) :
    (g.planesInChamber chamber).Sublist (List.range' 1 g.numPlanes) := by
  have hnumbers : g.numbered.map (·.1) = List.range' 1 g.numPlanes := by
    rw [numbered, List.map_map]
    exact List.zipIdx_map_snd 1 g.planes
  rw [← hnumbers]
  exact List.filter_sublist.map _

/-- The planes of a chamber come in increasing order. -/
theorem pairwise_planesInChamber (chamber : Nat) :
    (g.planesInChamber chamber).Pairwise (· < ·) :=
  List.Pairwise.sublist (g.planesInChamber_sublist chamber) List.pairwise_lt_range'

/-- No plane stands twice, neither in its chamber nor in two of them. -/
theorem nodup_flatMap_planesInChamber :
    ((List.range' 1 g.numChambers).flatMap g.planesInChamber).Nodup := by
  rw [List.nodup_flatMap]
  refine ⟨fun chamber _ => (g.pairwise_planesInChamber chamber).imp Nat.ne_of_lt, ?_⟩
  refine List.Pairwise.imp ?_ (List.nodup_range' (s := 1) (n := g.numChambers))
  intro chamber other hne number hmem hmem'
  rw [mem_planesInChamber_iff] at hmem hmem'
  rw [hmem] at hmem'
  exact hne (Option.some.inj hmem')

/-- The chambers of the detector together have each plane once. -/
theorem perm_planesInChamber :
    ((List.range' 1 g.numChambers).flatMap g.planesInChamber).Perm (List.range' 1 g.numPlanes) := by
  rw [List.perm_ext_iff_of_nodup g.nodup_flatMap_planesInChamber List.nodup_range']
  intro number
  have hplanes : number ∈ List.range' 1 g.numPlanes ↔
      ∃ chamber, g.chamberOf? number = some chamber := by
    rw [exists_chamberOf?_iff, List.mem_range'_1]
    omega
  rw [hplanes, List.mem_flatMap]
  simp only [mem_planesInChamber_iff, List.mem_range'_1]
  constructor
  · rintro ⟨chamber, -, hchamber⟩
    exact ⟨chamber, hchamber⟩
  · rintro ⟨chamber, hchamber⟩
    obtain ⟨hpos, hle⟩ := chamber_mem_of_chamberOf? hchamber
    exact ⟨chamber, ⟨hpos, by omega⟩, hchamber⟩

/-- How a table sorts its planes into chambers. -/
structure Partitioned : Prop where
  /-- There is a chamber. -/
  numChambers_pos : 1 ≤ g.numChambers
  /-- The planes of a chamber come in increasing order. -/
  increasing : ∀ chamber, (g.planesInChamber chamber).Pairwise (· < ·)
  /-- Each plane stands in one chamber, once. -/
  perm : ((List.range' 1 g.numChambers).flatMap g.planesInChamber).Perm (List.range' 1 g.numPlanes)
  /-- It is the chamber that the plane belongs to. -/
  mem_iff : ∀ number chamber,
    number ∈ g.planesInChamber chamber ↔ g.chamberOf? number = some chamber

theorem partitioned : g.Partitioned :=
  ⟨g.numChambers_pos, g.pairwise_planesInChamber, g.perm_planesInChamber,
    fun _ _ => mem_planesInChamber_iff⟩

end Geometry

end DriftChamber
