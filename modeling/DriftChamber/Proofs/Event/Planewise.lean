/-
# Fitted tracks plane by plane

What a fitted track of an event shows on the planes of the detector (`Track.Planewise`).  Every
plane has the coordinate of the fitted ray, whether it was hit or not.  A plane that was hit has
the residual of the last hit on it, so of several hits on one plane only the last is seen there.
The chi-square counts all of them (`Fitter.chiSquare_attach_eq_foldl`).  A track that was not fitted
has a fixed chi-square instead, which a sum of squares may come to as well
(`Tracker.chiSquare_eq_unfit_iff`).

All of it holds as the arithmetic evaluates it, rounded or exact: products and squares are summed in
the order in which they stand.
-/
import DriftChamber.Proofs.Event.Outcome
import DriftChamber.Proofs.Fitting.Coverage
import DriftChamber.Proofs.Fitting.Refit

namespace DriftChamber

variable {α : Type} [Scalar α]

/-! ## Bookkeeping -/

/-- How far a hit lies from the coordinate that a track shows on its plane, in units of the
uncertainty of the plane. -/
def Track.deviation? (g : Geometry α) (t : Track α) (hit : Hit α) : Option α :=
  (g.plane? hit.plane).bind fun plane =>
    (t.coord? hit.plane).map fun coord => (hit.coord - coord) / plane.sigma

/-- What a fitted track shows on the planes of the detector. -/
structure Track.Planewise (f : Fitter α) (t : Track α) : Prop where
  /-- The coordinate on a plane is the product of its coefficients and the fitted ray. -/
  coord?_eq : ∀ p plane, f.geometry.plane? p = some plane → t.coord? p = some (Scalar.sum
    [plane.coefficients.get (f.map.get 0) * t.ray.x,
      plane.coefficients.get (f.map.get 1) * t.ray.y,
      plane.coefficients.get (f.map.get 2) * t.ray.xp,
      plane.coefficients.get (f.map.get 3) * t.ray.yp])
  /-- The residual on a plane is that of the last hit there. -/
  residual?_of_hit : ∀ p plane, f.geometry.plane? p = some plane →
    ∀ hit, lastOn? t.hits p = some hit → ∃ coord, t.coord? p = some coord ∧
      t.residual? p = some (hit.coord - coord)
  /-- A plane without hits has none. -/
  residual?_of_not : ∀ p plane, f.geometry.plane? p = some plane → p ∉ t.hits.map (·.plane) →
    t.residual? p = some Track.residualUnset
  /-- Every hit deviates by some amount, and the chi-square is the sum of all squares. -/
  chiSquare_eq : ∃ deviations : List α, t.hits.map (t.deviation? f.geometry) = deviations.map some ∧
    t.chiSquare = deviations.foldl (fun s x => s + Scalar.square x) 0

/-- Double residuals are kept apart from all of this. -/
theorem Track.Planewise.with_doubleResiduals {f : Fitter α} {t : Track α} (h : t.Planewise f)
    (values : List α) : ({ t with doubleResiduals := values } : Track α).Planewise f :=
  ⟨h.coord?_eq, h.residual?_of_hit, h.residual?_of_not, h.chiSquare_eq⟩

/-! ## Fits -/

namespace Fitter

/-- The chi-square of a track that is filled in from a ray, where all planes of its hits exist: no
hit is passed over, and none counts for another. -/
theorem chiSquare_attach_eq_foldl (f : Fitter α) {t : Track α} (ray : Ray α)
    (hsized : t.numPlanes = f.geometry.numPlanes)
    (hknown : ∀ hit ∈ t.hits, (f.geometry.plane? hit.plane).isSome = true) :
    ∃ deviations : List α,
      t.hits.map ((f.attach t ray).deviation? f.geometry) = deviations.map some ∧
        (f.attach t ray).chiSquare =
          deviations.foldl (fun s x => s + Scalar.square x) 0 := by
  refine ⟨(f.hitResiduals (f.predictions t.numPlanes ray) t.hits).map fun r => r.2.1 / r.2.2,
    ?_, ?_⟩
  · rw [hsized, hitResiduals_predictions, List.map_filterMap, List.map_filterMap]
    symm
    rw [List.filterMap_eq_map_iff_forall_eq_some]
    intro hit hhit
    -- the plane of the hit exists, so it has a coordinate and the hit is not passed over
    obtain ⟨plane, hplane⟩ := Option.isSome_iff_exists.mp (hknown hit hhit)
    rw [Track.deviation?, coord?_attach f ray hsized, hplane]
    rfl
  · rw [List.foldl_map]
    rfl

/-- A fit that succeeds keeps its books plane by plane. -/
theorem planewise_fit {f : Fitter α} {t : Track α}
    (hcoords : t.coords.length = f.geometry.numPlanes)
    (hresiduals : t.residuals.length = f.geometry.numPlanes)
    (hfitted : (f.fit t).isFitted = true) : (f.fit t).Planewise f := by
  have hhits : (f.fit t).hits = t.hits := (f.alike_fit t).hits_eq
  refine ⟨?_, ?_, ?_, ?_⟩
  · intro p plane hplane
    rw [coord?_fit hfitted hcoords hplane, predict_eq_sum]
  · intro p plane hplane hit hlast
    rw [hhits] at hlast
    refine ⟨_, coord?_fit hfitted hcoords hplane, ?_⟩
    rw [residual?_fit hfitted hcoords hresiduals hplane, hlast]
    rfl
  · intro p plane hplane hnot
    rw [hhits] at hnot
    rw [residual?_fit hfitted hcoords hresiduals hplane, lastOn?_eq_none hnot]
    rfl
  · obtain ⟨ray, hsolve, heq⟩ := exists_ray_of_isFitted hfitted
    rw [heq]
    exact f.chiSquare_attach_eq_foldl ray ((List.length_map _).trans hcoords)
      (isSome_plane?_of_solve hsolve)

end Fitter

/-! ## The tracks of an event -/

namespace Tracker

/-- The fitted tracks of an event, plane by plane.  Every plane of the detector shows the coordinate
of the fitted ray, and the residual of the last hit on it if there is one.  The chi-square is the
sum over all hits, in their order, of the squared deviation from the coordinate on their plane. -/
theorem planewise_of_mem_process (t : Tracker α) (points : List (SpacePoint α)) {track : Track α}
    (hmem : track ∈ (t.process points).tracks) (hfitted : track.isFitted = true) :
    track.Planewise t.fitter := by
  obtain ⟨c, values, rfl⟩ := exists_fit_of_mem_process hmem
  obtain ⟨hcoords, hresiduals, -⟩ := c.length_toTrack t.linker.numPlanes
  exact (Fitter.planewise_fit hcoords hresiduals hfitted).with_doubleResiduals values

/-- Parameters that make a track of every point. -/
def everyPoint : Tracking Rat := ⟨⟨1, 1, 1, 1⟩, 0, true, RayMap.standardIndices⟩

theorem check_everyPoint : everyPoint.check = .ok Fitter.small.map := rfl

/-- A tracker over the small detector. -/
def smallTracker : Tracker Rat := ⟨twoChambers, everyPoint, Fitter.small.map, check_everyPoint⟩

/-- One point on the noisy hits, the first and the last of which lie on plane 1. -/
def noisy : List (SpacePoint Rat) := [⟨1, ⟨0, 0, 0, 0⟩, Fitter.noisyHits⟩]

/-- The noisy track has the residual of its last hit on plane 1 and none on plane 5, which it did
not hit.  Its chi-square counts all six hits. -/
theorem planewise_noisy : ∃ track ∈ (smallTracker.process noisy).tracks, track.isFitted = true ∧
    (∃ coord, track.coord? 1 = some coord ∧ track.residual? 1 = some (3 - coord)) ∧
    track.residual? 5 = some Track.residualUnset ∧
    ∃ deviations : List Rat,
      Fitter.noisyHits.map (track.deviation? twoChambers) = deviations.map some ∧
        track.chiSquare = deviations.foldl (fun s x => s + Scalar.square x) 0 := by
  obtain ⟨track, hmem, hfitted, hhits⟩ : ∃ track ∈ (smallTracker.process noisy).tracks,
      track.isFitted = true ∧ track.hits = Fitter.noisyHits := by decide +kernel
  have hbooks := planewise_of_mem_process smallTracker noisy hmem hfitted
  obtain ⟨deviations, hdeviations, hchiSquare⟩ := hbooks.chiSquare_eq
  rw [hhits] at hdeviations
  refine ⟨track, hmem, hfitted, ?_, ?_, deviations, hdeviations, hchiSquare⟩
  · exact hbooks.residual?_of_hit 1 _ rfl ⟨1, 2, 3⟩ (by rw [hhits]; rfl)
  · exact hbooks.residual?_of_not 5 _ rfl (by rw [hhits]; decide)

/-! ## The mark of an unfitted track -/

/-- When a track of an event has the chi-square that stands for a track without a fit: if it was not
fitted, and besides if it was fitted and the squares of its deviations sum up to this very value. -/
theorem chiSquare_eq_unfit_iff (t : Tracker α) (points : List (SpacePoint α)) {track : Track α}
    (hmem : track ∈ (t.process points).tracks) :
    track.chiSquare = Track.chiSquareUnfit ↔
      track.status ≠ .fitted ∨
        (track.status = .fitted ∧ ∃ deviations : List α,
          track.hits.map (track.deviation? t.geometry) = deviations.map some ∧
            deviations.foldl (fun s x => s + Scalar.square x) 0 = Track.chiSquareUnfit) := by
  obtain ⟨c, values, rfl⟩ := exists_fit_of_mem_process hmem
  by_cases hstatus : (t.fitter.fit (c.toTrack t.linker.numPlanes)).status = .fitted
  · obtain ⟨hcoords, hresiduals, -⟩ := c.length_toTrack t.linker.numPlanes
    have hfitted : (t.fitter.fit (c.toTrack t.linker.numPlanes)).isFitted = true := by
      rw [Track.isFitted, hstatus]
      rfl
    have hbooks := (Fitter.planewise_fit hcoords hresiduals hfitted).with_doubleResiduals values
    obtain ⟨deviations, hdeviations, hchi⟩ := hbooks.chiSquare_eq
    rw [hchi]
    constructor
    · intro hsum
      exact Or.inr ⟨hstatus, deviations, hdeviations, hsum⟩
    · rintro (hunfit | ⟨-, others, hothers, hsum⟩)
      · exact absurd hstatus hunfit
      · -- the deviations of the hits are what they are
        have hsame : others = deviations :=
          List.map_injective_iff.mpr (Option.some_injective α) (hothers.symm.trans hdeviations)
        rwa [← hsame]
  · have hbare := Fitter.isBare_fit hstatus
    exact ⟨fun _ => Or.inl hstatus, fun _ => hbare.chiSquare_eq⟩

/-- The usual parameters, but every point makes a track. -/
def pointwise : Tracking Float := { Tracking.standard with singleStub := true }

theorem check_pointwise : pointwise.check = .ok Fitter.four.map := by rfl

/-- A tracker over the four planes. -/
def fourTracker : Tracker Float := ⟨fourPlanes, pointwise, Fitter.four.map, check_pointwise⟩

/-- A point with a hit on each of the four planes. -/
def thin : SpacePoint Float := ⟨1, ⟨0, 0, 0, 0⟩, [⟨1, 1, 0⟩, ⟨2, 1, 0⟩, ⟨3, 1, 0⟩, ⟨4, 1, 0⟩]⟩

/-- A point with two hits on the second and on the fourth plane, far off to both sides. -/
def loud : SpacePoint Float :=
  ⟨1, ⟨0, 0, 0, 0⟩, [⟨1, 1, 0⟩, ⟨2, 1, 50⟩, ⟨2, 2, -50⟩, ⟨3, 1, 0⟩, ⟨4, 1, 50⟩, ⟨4, 2, -50⟩]⟩

/-- The thin point has too few hits for a fit.  Those of the loud one deviate by zero or by fifty,
four of them by fifty, and the squares sum up to the mark. -/
theorem chiSquare_eq_unfit_iff_loud :
    (∃ track ∈ (fourTracker.process [thin, loud]).tracks,
      track.status = .underconstrained ∧ track.chiSquare = Track.chiSquareUnfit) ∧
      ∃ track ∈ (fourTracker.process [thin, loud]).tracks, track.status = .fitted ∧
        track.hits.map (track.deviation? fourPlanes) = [0, 50, -50, 0, 50, -50].map some ∧
        track.chiSquare = Track.chiSquareUnfit := by
  obtain ⟨few, hfew, hstatus⟩ : ∃ track ∈ (fourTracker.process [thin, loud]).tracks,
      track.status = .underconstrained := by decide +kernel
  obtain ⟨many, hmany, hfitted, hdeviations⟩ : ∃ track ∈ (fourTracker.process [thin, loud]).tracks,
      track.status = .fitted ∧
        track.hits.map (track.deviation? fourPlanes) = [0, 50, -50, 0, 50, -50].map some := by
    decide +kernel
  refine ⟨⟨few, hfew, hstatus, ?_⟩, many, hmany, hfitted, hdeviations, ?_⟩
  · exact (chiSquare_eq_unfit_iff fourTracker [thin, loud] hfew).mpr (Or.inl (by simp [hstatus]))
  · exact (chiSquare_eq_unfit_iff fourTracker [thin, loud] hmany).mpr
      (Or.inr ⟨hfitted, _, hdeviations, by decide +kernel⟩)

/-- So the chi-square alone does not tell whether a track was fitted. -/
theorem exists_not_chiSquare_eq_unfit_iff : ∃ track ∈ (fourTracker.process [loud]).tracks,
    ¬(track.chiSquare = Track.chiSquareUnfit ↔ track.status ≠ .fitted) := by decide +kernel

end Tracker

end DriftChamber
