/-
# The fit as an optimum

In exact arithmetic the ray of a list of hits is the one of least weighted squares, and the
chi-square of a fitted track is that least value (`Fitter.misfit_lt_of_solve`).  The squares are
summed by a loop of their own, over residuals against the coordinates that the fit has just filled
in, so the proof has to find the coefficients of each hit's plane behind them
(`Fitter.hitResiduals_predictions`).
-/
import DriftChamber.Proofs.Fitting.Solution
import DriftChamber.Proofs.Geometry.Table

namespace DriftChamber

open Matrix

/-- The coefficients that a map selects, in the order of the ray parameters. -/
theorem RayMap.toList_select {α : Type} (map : RayMap) (k : Coefficients α) :
    (map.select k).toList =
      [k.get (map.get 0), k.get (map.get 1), k.get (map.get 2), k.get (map.get 3)] := by
  obtain ⟨⟨entries⟩, hsize⟩ := map
  obtain ⟨a, b, c, d, rfl⟩ := List.length_eq_four.mp hsize
  simp [select, Vector.get]

/-! ## Planes and their values -/

/-- The planes with a value are the first ones, as many as there are values. -/
theorem isSome_valueOn?_iff {α : Type} {values : List α} {p : Nat} :
    (valueOn? values p).isSome = true ↔ 0 < p ∧ p ≤ values.length := by
  cases p with
  | zero => simp [valueOn?]
  | succ index => simp [valueOn?]

namespace Fitter

/-! ## Coordinates of a ray -/

section Coordinates

variable {α : Type} [Scalar α]

/-- The coordinate of a ray on a plane, product by product. -/
theorem predict_eq_sum (f : Fitter α) (plane : Plane α) (ray : Ray α) :
    f.predict plane ray = Scalar.sum
      [plane.coefficients.get (f.map.get 0) * ray.x,
        plane.coefficients.get (f.map.get 1) * ray.y,
        plane.coefficients.get (f.map.get 2) * ray.xp,
        plane.coefficients.get (f.map.get 3) * ray.yp] := by
  rw [predict, RayMap.toList_select]
  rfl

/-- A plane of the detector shows the coordinate of the ray if there is a value for it. -/
theorem valueOn?_predictions_eq_ite (f : Fitter α) (numPlanes : Nat) (ray : Ray α) {p : Nat}
    {plane : Plane α} (hplane : f.geometry.plane? p = some plane) :
    valueOn? (f.predictions numPlanes ray) p =
      if p ≤ numPlanes then some (f.predict plane ray) else none := by
  cases p with
  | zero => cases hplane
  | succ index =>
      have hindex : f.geometry.planes[index]? = some plane := hplane
      show (f.predictions numPlanes ray)[index]? = _
      rw [predictions, List.getElem?_map]
      by_cases hle : index + 1 ≤ numPlanes
      · rw [List.getElem?_range hle, if_pos hle, Option.map_some, hindex]
      · rw [List.getElem?_eq_none (by simpa using hle), if_neg hle]
        rfl

/-- Where there is a value for every plane, each plane shows the coordinate of the ray on it. -/
theorem valueOn?_predictions (f : Fitter α) (ray : Ray α) (p : Nat) :
    valueOn? (f.predictions f.geometry.numPlanes ray) p =
      (f.geometry.plane? p).map fun plane => f.predict plane ray := by
  cases hplane : f.geometry.plane? p with
  | none =>
      -- as many planes as values, so that one is missing where the other is
      rw [Option.map_none, ← Option.not_isSome_iff_eq_none, isSome_valueOn?_iff,
        length_predictions, ← Geometry.isSome_plane?_iff, hplane]
      simp
  | some plane =>
      have hle : p ≤ f.geometry.numPlanes :=
        (Geometry.isSome_plane?_iff.mp (by rw [hplane]; rfl)).2
      rw [valueOn?_predictions_eq_ite f _ ray hplane, if_pos hle, Option.map_some]

/-- The residuals of hits against the coordinates of a ray, where every plane has one. -/
theorem hitResiduals_predictions (f : Fitter α) (ray : Ray α) (hits : List (Hit α)) :
    f.hitResiduals (f.predictions f.geometry.numPlanes ray) hits =
      hits.filterMap fun hit => (f.geometry.plane? hit.plane).map fun plane =>
        (hit.plane, hit.coord - f.predict plane ray, plane.sigma) := by
  unfold hitResiduals
  refine List.filterMap_congr fun hit _ => ?_
  rw [valueOn?_predictions]
  cases f.geometry.plane? hit.plane <;> rfl

end Coordinates

/-! ## Weighted squares -/

theorem sum_eq_sum (values : List Rat) : Scalar.sum values = values.sum := by
  rw [List.sum_eq_foldl]
  rfl

/-- In exact arithmetic the coordinate of a ray is the product with the coefficients. -/
theorem predict_eq_dotProduct (f : Fitter Rat) (plane : Plane Rat) (ray : Ray Rat) :
    f.predict plane ray = column (f.map.select plane.coefficients) ⬝ᵥ ray.coordinates := by
  have hselect : ∀ i, column (f.map.select plane.coefficients) i =
      plane.coefficients.get (f.map.get i) := by
    intro i
    exact Vector.getElem_map _ _
  rw [predict_eq_sum, sum_eq_sum, dotProduct, Fin.sum_univ_four]
  simp only [hselect, List.sum_cons, List.sum_nil]
  simp [Ray.coordinates]
  ring

/-- Measured minus described coordinate of a hit, in units of the uncertainty of its plane. -/
def deviation (f : Fitter Rat) (r : Ray Rat) (hit : Hit Rat) : Rat :=
  match f.geometry.plane? hit.plane with
  | some plane =>
      (hit.coord - column (f.map.select plane.coefficients) ⬝ᵥ r.coordinates) / plane.sigma
  | none => 0

/-- The sum of the squared deviations of hits from a ray. -/
def misfit (f : Fitter Rat) (hits : List (Hit Rat)) (r : Ray Rat) : Rat :=
  (hits.map fun hit => f.deviation r hit ^ 2).sum

section Deviations

variable {f : Fitter Rat} {r : Ray Rat} {hit : Hit Rat}

theorem deviation_of_none (h : f.geometry.plane? hit.plane = none) : f.deviation r hit = 0 := by
  rw [deviation, h]

theorem deviation_of_some {plane : Plane Rat} (h : f.geometry.plane? hit.plane = some plane) :
    f.deviation r hit = (hit.coord - f.predict plane r) / plane.sigma := by
  rw [deviation, h, predict_eq_dotProduct]

/-- The squared deviation is the weighted square of the measurement. -/
theorem deviation_sq_of_measurement {m : Measurement Rat} (h : f.measurement hit = .ok m) :
    f.deviation r hit ^ 2 =
      m.weight * (m.value - column m.coefficients ⬝ᵥ r.coordinates) ^ 2 := by
  obtain ⟨plane, hplane, rfl⟩ := measurement_eq_ok_iff.mp h
  rw [deviation_of_some hplane, predict_eq_dotProduct]
  show _ = 1 / (plane.sigma * plane.sigma) * _
  ring

end Deviations

/-- The sum of the squared deviations is the squared misfit of the measurements. -/
theorem misfit_eq_of_measurements {f : Fitter Rat} {hits : List (Hit Rat)}
    {ms : List (Measurement Rat)} (h : f.measurements hits = .ok ms) (r : Ray Rat) :
    f.misfit hits r = Measurement.misfit ms r := by
  have hlists := measurements_eq_ok_iff.mp h
  clear h
  unfold misfit Measurement.misfit
  induction hits generalizing ms with
  | nil =>
      cases ms with
      | nil => rfl
      | cons m ms => cases hlists
  | cons hit rest ih =>
      cases ms with
      | nil => cases hlists
      | cons m ms =>
          rw [List.map_cons, List.map_cons, List.cons.injEq] at hlists
          rw [List.map_cons, List.map_cons, List.sum_cons, List.sum_cons,
            deviation_sq_of_measurement hlists.1, ih hlists.2]

/-- The chi-square of a track that has a value for every plane is the sum of the squared
deviations. -/
theorem chiSquare_attach (f : Fitter Rat) (t : Track Rat) (ray : Ray Rat)
    (hsized : t.numPlanes = f.geometry.numPlanes) :
    (f.attach t ray).chiSquare = f.misfit t.hits ray := by
  unfold attach misfit
  simp only
  rw [hsized, hitResiduals_predictions]
  refine (foldl_add_eq_sum _ _).trans ?_
  -- a hit on an unknown plane is passed over here, and deviates by zero there
  induction t.hits with
  | nil => rfl
  | cons hit rest ih =>
      rw [List.map_cons, List.sum_cons, ← ih]
      cases hplane : f.geometry.plane? hit.plane with
      | none =>
          rw [List.filterMap_cons_none (by rw [hplane]; rfl), deviation_of_none hplane]
          exact (zero_add _).symm
      | some plane =>
          rw [List.filterMap_cons_some (by rw [hplane]; rfl), deviation_of_some hplane, sq]
          rfl

/-- The fit is the optimum.  If hits have a ray, every other ray has a larger sum of squared
deviations.  So for a track with values for all planes, whose hits have a ray and leave a degree of
freedom, the fit succeeds, and the chi-square of a fit that succeeds is the least such sum of
all rays. -/
theorem misfit_lt_of_solve (f : Fitter Rat) :
    (∀ hits r, f.solve hits = .ok r → ∀ r', r' ≠ r → f.misfit hits r < f.misfit hits r') ∧
      ∀ t : Track Rat, t.numPlanes = f.geometry.numPlanes →
        (∀ r, f.solve t.hits = .ok r → 5 ≤ t.hits.length → t.hits.length < 2 ^ 31 →
          (f.fit t).isFitted = true) ∧
        ((f.fit t).isFitted = true →
          IsLeast (Set.range (f.misfit t.hits)) (f.fit t).chiSquare) := by
  have hbest : ∀ hits r, f.solve hits = .ok r → ∀ r', r' ≠ r →
      f.misfit hits r < f.misfit hits r' := by
    intro hits r hsolve r' hne
    obtain ⟨-, ms, hms, hray⟩ := solve_eq_ok_iff.mp hsolve
    rw [misfit_eq_of_measurements hms, misfit_eq_of_measurements hms]
    exact Measurement.misfit_lt_of_bestRay? (weight_pos_of_measurements hms) hray hne
  refine ⟨hbest, fun t hsized => ⟨?_, ?_⟩⟩
  · intro r hsolve hfive hsmall
    exact isFitted_fit (degreesOfFreedom_pos hfive hsmall) hsolve
  · intro hfitted
    obtain ⟨ray, hsolve, heq⟩ := exists_ray_of_isFitted hfitted
    have hblank : t.blank.numPlanes = f.geometry.numPlanes := by
      rw [← hsized]
      simp [Track.numPlanes, Track.blank, Track.reset]
    have hchi : (f.fit t).chiSquare = f.misfit t.hits ray := by
      rw [heq]
      exact chiSquare_attach f t.blank ray hblank
    rw [hchi]
    refine ⟨⟨ray, rfl⟩, ?_⟩
    rintro _ ⟨r', rfl⟩
    by_cases hsame : r' = ray
    · rw [hsame]
    · exact (hbest t.hits ray hsolve r' hsame).le

/-- Six hits that no ray describes exactly, two of them on one plane. -/
def noisyHits : List (Hit Rat) :=
  [⟨1, 1, 1⟩, ⟨2, 1, 2⟩, ⟨3, 1, 3⟩, ⟨4, 1, 1⟩, ⟨10, 1, 2⟩, ⟨1, 2, 3⟩]

/-- The ray of the noisy hits. -/
def noisyRay : Ray Rat :=
  ⟨-6323777 / 551667, 66542 / 32451, -59000 / 183889, -216 / 183889⟩

/-- The ray of the noisy hits is better than another one, and their chi-square is the least. -/
theorem fit_noisyHits :
    small.solve noisyHits = .ok noisyRay ∧
      small.misfit noisyHits noisyRay < small.misfit noisyHits ⟨1, 2, 0, 0⟩ ∧
      (small.fit { (Track.empty 10 : Track Rat) with hits := noisyHits }).chiSquare =
        953890000 / 183889 ∧
      IsLeast (Set.range (small.misfit noisyHits))
        (small.fit { (Track.empty 10 : Track Rat) with hits := noisyHits }).chiSquare := by
  have hsolve : small.solve noisyHits = .ok noisyRay := by decide +kernel
  obtain ⟨hbest, hfit⟩ := misfit_lt_of_solve small
  obtain ⟨hfitted, hleast⟩ := hfit { (Track.empty 10 : Track Rat) with hits := noisyHits } rfl
  refine ⟨hsolve, hbest noisyHits noisyRay hsolve _ (by decide +kernel), by decide +kernel, ?_⟩
  exact hleast (hfitted noisyRay hsolve (by decide) (by decide))

end Fitter

end DriftChamber
