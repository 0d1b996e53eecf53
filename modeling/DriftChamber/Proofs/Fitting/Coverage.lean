/-
# Tracks for fewer planes than the detector has

How many planes a track has values for is up to whoever builds it (`Track.Built`), and a fit does
not ask whether they are all the planes of the detector.  It takes the ray from all hits, but it
reads the coordinates back from the track to work out the residuals, and a hit on a plane without
one is passed over (`Fitter.hitResiduals_predictions_eq_filter`).  So a fit that succeeds counts
the hits on the planes that the track has values for, and those only
(`Fitter.chiSquare_fit_of_built`).
-/
import DriftChamber.Proofs.Fitting.Residuals

namespace DriftChamber

variable {α : Type} [Scalar α]

/-! ## Building a track -/

/-- Tracks that are built from an empty one with values for `numPlanes` planes: members and hits
are added in any order, hits are dropped again, and it may be fitted and given double residuals on
the way. -/
inductive Track.Built (numPlanes : Nat) : Track α → Prop
  /-- The empty track. -/
  | empty : Built numPlanes (Track.empty numPlanes)
  /-- One more member. -/
  | addPoint {t : Track α} (h : Built numPlanes t) (id : Nat) : Built numPlanes (t.addPoint id)
  /-- One more hit. -/
  | addHit {t : Track α} (h : Built numPlanes t) (hit : Hit α) : Built numPlanes (t.addHit hit)
  /-- No hits. -/
  | clearHits {t : Track α} (h : Built numPlanes t) : Built numPlanes t.clearHits
  /-- A fit, by whatever fitter. -/
  | fit {t : Track α} (h : Built numPlanes t) (f : Fitter α) : Built numPlanes (f.fit t)
  /-- Double residuals, against the hits of whatever other track. -/
  | confront {t : Track α} (h : Built numPlanes t) (f : Fitter α) (ray : Ray α)
      (hits : List (Hit α)) : Built numPlanes (f.confront t ray hits)

/-- Nothing but the number it starts from decides how many planes a track has values for. -/
theorem Track.Built.length {numPlanes : Nat} {t : Track α} (h : t.Built numPlanes) :
    t.coords.length = numPlanes ∧ t.residuals.length = numPlanes := by
  induction h with
  | empty => exact ⟨List.length_replicate, List.length_replicate⟩
  | addPoint _ _ ih => exact ih
  | addHit _ _ ih => exact ih
  | clearHits _ ih => exact ih
  | @fit t _ f ih =>
      have halike := f.alike_fit t
      exact ⟨halike.length_coords.trans ih.1, halike.length_residuals.trans ih.2⟩
  | confront _ _ _ _ ih => exact ih

/-- In particular, hits are added to the empty track one by one. -/
theorem Track.built_hits (numPlanes : Nat) (hits : List (Hit α)) :
    ({ Track.empty numPlanes with hits := hits } : Track α).Built numPlanes := by
  induction hits using List.reverseRecOn with
  | nil => exact .empty
  | append_singleton hits hit ih => exact ih.addHit hit

namespace Fitter

/-! ## Hits that are counted -/

/-- How far a hit lies from a ray, in units of the uncertainty of its plane. -/
def deviationFrom? (f : Fitter α) (ray : Ray α) (hit : Hit α) : Option α :=
  (f.geometry.plane? hit.plane).map fun plane => (hit.coord - f.predict plane ray) / plane.sigma

/-- Residuals are worked out for the hits on planes that there is a value for. -/
theorem hitResiduals_predictions_eq_filter (f : Fitter α) (numPlanes : Nat) (ray : Ray α)
    (hits : List (Hit α)) :
    f.hitResiduals (f.predictions numPlanes ray) hits =
      (hits.filter fun hit => decide (hit.plane ≤ numPlanes)).filterMap fun hit =>
        (f.geometry.plane? hit.plane).map fun plane =>
          (hit.plane, hit.coord - f.predict plane ray, plane.sigma) := by
  rw [List.filterMap_filter, hitResiduals]
  refine List.filterMap_congr fun hit _ => ?_
  cases hplane : f.geometry.plane? hit.plane with
  | none => cases valueOn? (f.predictions numPlanes ray) hit.plane <;> simp
  | some plane =>
      rw [valueOn?_predictions_eq_ite f numPlanes ray hplane]
      by_cases hle : hit.plane ≤ numPlanes <;> simp [hle]

/-- The chi-square of a track that is filled in from a ray is the sum over these hits. -/
theorem chiSquare_attach_eq_filter (f : Fitter α) (t : Track α) (ray : Ray α) :
    (f.attach t ray).chiSquare =
      ((t.hits.filter fun hit => decide (hit.plane ≤ t.numPlanes)).filterMap
        (f.deviationFrom? ray)).foldl (fun s x => s + Scalar.square x) 0 := by
  have hdeviations : (t.hits.filter fun hit => decide (hit.plane ≤ t.numPlanes)).filterMap
      (f.deviationFrom? ray) =
        (f.hitResiduals (f.predictions t.numPlanes ray) t.hits).map fun r => r.2.1 / r.2.2 := by
    rw [hitResiduals_predictions_eq_filter, List.map_filterMap]
    refine List.filterMap_congr fun hit _ => ?_
    rw [deviationFrom?, Option.map_map]
    rfl
  rw [hdeviations, List.foldl_map]
  rfl

/-- Hits on planes of the detector lie off a ray by some amount each. -/
theorem map_deviationFrom? {f : Fitter α} (ray : Ray α) {hits : List (Hit α)}
    (hknown : ∀ hit ∈ hits, (f.geometry.plane? hit.plane).isSome = true) :
    hits.map (f.deviationFrom? ray) = (hits.filterMap (f.deviationFrom? ray)).map some := by
  symm
  rw [List.map_filterMap, List.filterMap_eq_map_iff_forall_eq_some]
  intro hit hhit
  obtain ⟨plane, hplane⟩ := Option.isSome_iff_exists.mp (hknown hit hhit)
  rw [deviationFrom?, hplane]
  rfl

/-- What a fit that succeeds counts.  The track may have values for any number of planes, whatever
the detector has.  Of its hits, those on planes that it has values for lie off the fitted ray by
some amount each, and the chi-square is the sum of the squares of these, in their order; the other
hits add nothing.  A plane that was hit has a residual exactly if the track has values for it.  If
the track has values for all planes of the detector, these are all hits. -/
theorem chiSquare_fit_of_built (f : Fitter α) (numPlanes : Nat) (t : Track α)
    (hbuilt : t.Built numPlanes) (hfitted : (f.fit t).isFitted = true) :
    (∃ deviations : List α,
      (t.hits.filter fun hit => decide (hit.plane ≤ numPlanes)).map
          (f.deviationFrom? (f.fit t).ray) = deviations.map some ∧
        (f.fit t).chiSquare = deviations.foldl (fun s x => s + Scalar.square x) 0) ∧
      (∀ hit ∈ t.hits,
        (((f.fit t).residual? hit.plane).isSome = true ↔ hit.plane ≤ numPlanes)) ∧
      (f.geometry.numPlanes ≤ numPlanes → ∀ hit ∈ t.hits, hit.plane ≤ numPlanes) := by
  obtain ⟨hcoords, hresiduals⟩ := hbuilt.length
  obtain ⟨ray, hsolve, heq⟩ := exists_ray_of_isFitted hfitted
  have hknown := isSome_plane?_of_solve hsolve
  refine ⟨⟨_, map_deviationFrom? _ ?_, ?_⟩, ?_, ?_⟩
  · intro hit hmem
    exact hknown hit (List.mem_of_mem_filter hmem)
  · have hblank : t.blank.numPlanes = numPlanes := (List.length_map _).trans hcoords
    rw [heq, chiSquare_attach_eq_filter, hblank]
    rfl
  · intro hit hhit
    have hpos : 0 < hit.plane := (Geometry.isSome_plane?_iff.mp (hknown hit hhit)).1
    have hlength : (f.fit t).residuals.length = numPlanes :=
      (f.alike_fit t).length_residuals.trans hresiduals
    rw [Track.residual?, isSome_valueOn?_iff, hlength]
    exact ⟨fun h => h.2, fun hle => ⟨hpos, hle⟩⟩
  · intro hall hit hhit
    exact (Geometry.isSome_plane?_iff.mp (hknown hit hhit)).2.trans hall

/-- The noisy hits, and values for the first four planes. -/
def scant : Track Rat := { Track.empty 4 with hits := noisyHits }

/-- The scant track counts five of its six hits, and it has no residual on plane 10. -/
theorem chiSquare_fit_of_built_scant :
    (∃ deviations : List Rat, deviations.length = 5 ∧
      (small.fit scant).chiSquare = deviations.foldl (fun s x => s + Scalar.square x) 0) ∧
      ((small.fit scant).residual? 4).isSome = true ∧
      ((small.fit scant).residual? 10).isSome = false := by
  obtain ⟨⟨deviations, hdeviations, hchi⟩, hresiduals, -⟩ :=
    chiSquare_fit_of_built small 4 scant (Track.built_hits 4 noisyHits) (by decide +kernel)
  refine ⟨⟨deviations, ?_, hchi⟩, ?_, ?_⟩
  · have hlength := congrArg List.length hdeviations
    rw [List.length_map, List.length_map] at hlength
    exact hlength.symm
  · exact (hresiduals ⟨4, 1, 1⟩ (by decide)).mpr (by decide)
  · have hnot := mt (hresiduals ⟨10, 1, 2⟩ (by decide)).mp (by decide)
    simpa using hnot

end Fitter

/-! ## Four planes -/

/-- One chamber of four planes with unit uncertainty: two that measure the horizontal position, one
unit before and one behind the centre, and two that measure the vertical one. -/
def fourPlanes : Geometry Float where
  planes := [.ofDirection 1 1 (-1) 1 0, .ofDirection 1 1 1 1 0, .ofDirection 1 1 (-1) 0 1,
    .ofDirection 1 1 1 0 1]
  numChambers := 1
  planes_ne_nil := by simp
  sound := firstDefect?_eq_none_iff.mp (by decide +kernel)

namespace Fitter

/-- The fitter of the four planes. -/
def four : Fitter Float := ⟨fourPlanes, small.map⟩

/-- A hit on each of four planes and another one on the last, and values for three planes. -/
def narrow : Track Float :=
  { Track.empty 3 with hits := [⟨1, 1, 0⟩, ⟨2, 1, 0⟩, ⟨3, 1, 0⟩, ⟨4, 1, 0⟩, ⟨4, 2, 1⟩] }

/-- The narrow track is fitted with a chi-square of zero, though two of its hits lie off the ray by
one half, and it has no residual on their plane. -/
theorem not_chiSquare_fit_narrow :
    narrow.Built 3 ∧ (four.fit narrow).isFitted = true ∧
      narrow.hits.map (four.deviationFrom? (four.fit narrow).ray) =
        [0, 0, 0, -0.5, 0.5].map some ∧
      (four.fit narrow).chiSquare ≠
        ([0, 0, 0, -0.5, 0.5] : List Float).foldl (fun s x => s + Scalar.square x) 0 ∧
      (four.fit narrow).residual? 4 = none :=
  ⟨Track.built_hits 3 _, by decide +kernel⟩

end Fitter

end DriftChamber
