/-
# The fit of shifted hits

In exact arithmetic and on ideal planes, the coordinate that a fitted ray has on a plane is the one
at which the ray crosses it (`Fitter.predict_eq_project`).  So the coordinates of hits and the ray
fitted to them move together: if every hit is shifted by what a ray has on its plane, the fitted
ray is shifted by that ray, and all deviations stay as they were (`Fitter.misfit_shifted`).  In
particular a fit recovers a ray from the coordinates at which it crosses the planes
(`Fitter.fit_shifted`).
-/
import DriftChamber.Proofs.Fitting.Residuals

namespace DriftChamber

open Matrix

/-! ## Ideal planes -/

/-- A plane whose coordinate is linear in the ray: the coefficients of the products and of the
slopes in the denominator vanish, and the constant of the denominator is one. -/
structure Plane.IsIdeal (p : Plane Rat) : Prop where
  /-- No product of horizontal slope and vertical position. -/
  xp_mul_y : p.coefficients.get 0 = 0
  /-- No product of vertical slope and horizontal position. -/
  yp_mul_x : p.coefficients.get 1 = 0
  /-- The denominator does not depend on the horizontal slope. -/
  denominator_xp : p.coefficients.get 6 = 0
  /-- The denominator does not depend on the vertical slope. -/
  denominator_yp : p.coefficients.get 7 = 0
  /-- The constant of the denominator. -/
  denominator_one : p.coefficients.get 8 = 1

namespace Plane

/-- A plane given by the cosine and the sine of its angle is ideal, whatever the two numbers. -/
theorem isIdeal_ofDirection (chamber : Nat) (sigma z cos sin : Rat) :
    (ofDirection chamber sigma z cos sin).IsIdeal :=
  ⟨rfl, rfl, rfl, rfl, rfl⟩

/-- A ray crosses an ideal plane at a coordinate that is linear in the ray. -/
theorem project_of_isIdeal {p : Plane Rat} (h : p.IsIdeal) (r : Ray Rat) :
    p.project r = r.xp * p.coefficients.get 2 + r.yp * p.coefficients.get 3 +
      r.x * p.coefficients.get 4 + r.y * p.coefficients.get 5 := by
  have hcrossed : ¬Scalar.abs (1 : Rat) < nearlyParallel := by decide +kernel
  have hdenominator : r.xp * p.coefficients.get 6 + r.yp * p.coefficients.get 7 +
      p.coefficients.get 8 = 1 := by
    rw [h.denominator_xp, h.denominator_yp, h.denominator_one]
    ring
  show (if Scalar.abs (r.xp * p.coefficients.get 6 + r.yp * p.coefficients.get 7 +
      p.coefficients.get 8) < nearlyParallel then farAway else
    (r.xp * r.y * p.coefficients.get 0 + r.yp * r.x * p.coefficients.get 1 +
      r.xp * p.coefficients.get 2 + r.yp * p.coefficients.get 3 + r.x * p.coefficients.get 4 +
      r.y * p.coefficients.get 5) / (r.xp * p.coefficients.get 6 + r.yp * p.coefficients.get 7 +
      p.coefficients.get 8)) = _
  rw [hdenominator, if_neg hcrossed, h.xp_mul_y, h.yp_mul_x]
  ring

end Plane

/-! ## Sums of rays -/

/-- Sum, component by component. -/
def Ray.add (r s : Ray Rat) : Ray Rat := ⟨r.x + s.x, r.y + s.y, r.xp + s.xp, r.yp + s.yp⟩

theorem Plane.project_add {p : Plane Rat} (h : p.IsIdeal) (r s : Ray Rat) :
    p.project (r.add s) = p.project r + p.project s := by
  rw [project_of_isIdeal h, project_of_isIdeal h, project_of_isIdeal h]
  unfold Ray.add
  ring

/-- Every ray differs from every other one by a ray. -/
theorem Ray.exists_add_eq (r s : Ray Rat) : ∃ d : Ray Rat, d.add s = r :=
  ⟨⟨r.x - s.x, r.y - s.y, r.xp - s.xp, r.yp - s.yp⟩, by simp [Ray.add]⟩

namespace Fitter

/-! ## The best ray -/

section Best

variable {f : Fitter Rat} {hits : List (Hit Rat)} {r r' : Ray Rat}

/-- Only the ray of the hits deviates from them so little. -/
theorem eq_of_misfit_le (hsolve : f.solve hits = .ok r)
    (hle : f.misfit hits r' ≤ f.misfit hits r) : r' = r := by
  obtain ⟨-, ms, hms, hbest⟩ := solve_eq_ok_iff.mp hsolve
  by_contra hne
  rw [misfit_eq_of_measurements hms, misfit_eq_of_measurements hms] at hle
  exact hle.not_gt (Measurement.misfit_lt_of_bestRay? (weight_pos_of_measurements hms) hbest hne)

/-- No ray deviates less from the hits than theirs. -/
theorem misfit_le_of_solve (hsolve : f.solve hits = .ok r) (r' : Ray Rat) :
    f.misfit hits r ≤ f.misfit hits r' := by
  by_contra hlt
  have hsame := eq_of_misfit_le hsolve (not_le.mp hlt).le
  rw [hsame] at hlt
  exact hlt le_rfl

end Best

/-! ## Shifted hits -/

/-- The hit with its coordinate shifted by that of a ray on its plane. -/
def shiftHit (f : Fitter Rat) (s : Ray Rat) (hit : Hit Rat) : Hit Rat :=
  match f.geometry.plane? hit.plane with
  | some plane => { hit with coord := hit.coord + plane.project s }
  | none => hit

/-- The track with all its hits shifted by a ray. -/
def shifted (f : Fitter Rat) (s : Ray Rat) (t : Track Rat) : Track Rat :=
  { t with hits := t.hits.map (f.shiftHit s) }

theorem plane_shiftHit (f : Fitter Rat) (s : Ray Rat) (hit : Hit Rat) :
    (f.shiftHit s hit).plane = hit.plane := by
  unfold shiftHit
  split <;> rfl

theorem shiftHit_of_some {f : Fitter Rat} {s : Ray Rat} {hit : Hit Rat} {plane : Plane Rat}
    (h : f.geometry.plane? hit.plane = some plane) :
    f.shiftHit s hit = { hit with coord := hit.coord + plane.project s } := by
  unfold shiftHit
  rw [h]

/-- A fitter for ideal planes, which takes the ray parameters from where such planes have them. -/
structure Ideal (f : Fitter Rat) : Prop where
  /-- All planes are ideal. -/
  planes : ∀ plane ∈ f.geometry.planes, plane.IsIdeal
  /-- The ray coefficients stand where ideal planes have them. -/
  map_eq : f.map = #v[4, 5, 2, 3]

section Shifts

variable {f : Fitter Rat} (hf : f.Ideal)

include hf

theorem Ideal.isIdeal {number : Nat} {plane : Plane Rat}
    (h : f.geometry.plane? number = some plane) : plane.IsIdeal := by
  cases number with
  | zero => cases h
  | succ index => exact hf.planes plane (List.mem_of_getElem? h)

/-- The fit foretells the coordinate at which a ray crosses the plane. -/
theorem predict_eq_project {number : Nat} {plane : Plane Rat}
    (h : f.geometry.plane? number = some plane) (r : Ray Rat) :
    f.predict plane r = plane.project r := by
  rw [predict_eq_sum, sum_eq_sum, hf.map_eq, Plane.project_of_isIdeal (hf.isIdeal h)]
  show [plane.coefficients.get 4 * r.x, plane.coefficients.get 5 * r.y,
    plane.coefficients.get 2 * r.xp, plane.coefficients.get 3 * r.yp].sum = _
  simp only [List.sum_cons, List.sum_nil]
  ring

/-- What a shifted hit is off the shifted ray, the hit was off the ray. -/
theorem shiftHit_coord_sub {hit : Hit Rat} {plane : Plane Rat}
    (h : f.geometry.plane? hit.plane = some plane) (r s : Ray Rat) :
    (f.shiftHit s hit).coord - f.predict plane (r.add s) =
      hit.coord - f.predict plane r := by
  rw [shiftHit_of_some h, predict_eq_project hf h, predict_eq_project hf h,
    Plane.project_add (hf.isIdeal h)]
  ring

theorem misfit_shifted (hits : List (Hit Rat)) (r s : Ray Rat) :
    f.misfit (hits.map (f.shiftHit s)) (r.add s) = f.misfit hits r := by
  unfold misfit
  rw [List.map_map]
  refine congrArg List.sum (List.map_congr_left fun hit _ => ?_)
  show f.deviation (r.add s) (f.shiftHit s hit) ^ 2 = _
  have hplane := plane_shiftHit f s hit
  cases h : f.geometry.plane? hit.plane with
  | none => rw [deviation_of_none h, deviation_of_none (by rw [hplane, h])]
  | some plane =>
      rw [deviation_of_some h, deviation_of_some (by rw [hplane, h]), shiftHit_coord_sub hf h]

/-- The ray of shifted hits is the shifted ray. -/
theorem solve_shifted {hits : List (Hit Rat)} {r : Ray Rat} (hsolve : f.solve hits = .ok r)
    (s : Ray Rat) : f.solve (hits.map (f.shiftHit s)) = .ok (r.add s) := by
  have hknown := isSome_plane?_of_solve hsolve
  have hfour : 4 ≤ hits.length := (solve_eq_ok_iff.mp hsolve).1
  have hplanes : ∀ p, p ∈ (hits.map (f.shiftHit s)).map (·.plane) ↔ p ∈ hits.map (·.plane) := by
    intro p
    rw [List.map_map, Function.comp_def, List.map_congr_left fun hit _ => plane_shiftHit f s hit]
  have hknown' : ∀ hit ∈ hits.map (f.shiftHit s),
      (f.geometry.plane? hit.plane).isSome = true := by
    intro hit' hhit'
    obtain ⟨hit, hhit, rfl⟩ := List.mem_map.mp hhit'
    rw [plane_shiftHit]
    exact hknown hit hhit
  -- the same planes were hit, so the shifted hits have a ray too
  obtain ⟨r', hr'⟩ : ∃ r', f.solve (hits.map (f.shiftHit s)) = .ok r' := by
    rcases solve_cases (by rwa [List.length_map]) hknown' with ⟨⟨v, hv, hunseen⟩, -⟩ | ⟨-, hray⟩
    · rw [unseen_congr rfl (fun _ => rfl) hplanes] at hunseen
      rcases solve_cases hfour hknown with ⟨-, hsingular⟩ | ⟨hseen, -⟩
      · rw [hsolve] at hsingular
        cases hsingular
      · exact absurd ⟨v, hv, hunseen⟩ hseen
    · exact hray
  -- and it deviates as little from them as `r` does from the hits
  obtain ⟨d, rfl⟩ := Ray.exists_add_eq r' s
  have hle : f.misfit (hits.map (f.shiftHit s)) (r.add s) ≤
      f.misfit (hits.map (f.shiftHit s)) (d.add s) := by
    rw [misfit_shifted hf, misfit_shifted hf]
    exact misfit_le_of_solve hsolve d
  rw [hr', eq_of_misfit_le hr' hle]

/-- Shifted hits leave the residuals that the hits left. -/
theorem hitResiduals_shifted (hits : List (Hit Rat)) (r s : Ray Rat) :
    f.hitResiduals (f.predictions f.geometry.numPlanes (r.add s)) (hits.map (f.shiftHit s)) =
      f.hitResiduals (f.predictions f.geometry.numPlanes r) hits := by
  rw [hitResiduals_predictions, hitResiduals_predictions, List.filterMap_map]
  refine List.filterMap_congr fun hit _ => ?_
  show Option.map _ (f.geometry.plane? (f.shiftHit s hit).plane) = _
  rw [plane_shiftHit]
  cases h : f.geometry.plane? hit.plane with
  | none => rfl
  | some plane => rw [Option.map_some, Option.map_some, shiftHit_coord_sub hf h]

/-- A track filled in from shifted hits and the shifted ray has the same residuals and the same
chi-square. -/
theorem attach_shifted {t : Track Rat} (hsized : t.numPlanes = f.geometry.numPlanes)
    (r s : Ray Rat) :
    (f.attach (f.shifted s t) (r.add s)).residuals = (f.attach t r).residuals ∧
      (f.attach (f.shifted s t) (r.add s)).chiSquare = (f.attach t r).chiSquare := by
  have hfound : f.hitResiduals (f.predictions (f.shifted s t).numPlanes (r.add s))
      (f.shifted s t).hits = f.hitResiduals (f.predictions t.numPlanes r) t.hits := by
    show f.hitResiduals (f.predictions t.numPlanes (r.add s)) (t.hits.map (f.shiftHit s)) = _
    rw [hsized, hitResiduals_shifted hf]
  unfold attach
  simp only [hfound]
  exact ⟨rfl, trivial⟩

/-- The fit of a shifted track: the ray is shifted, residuals and chi-square are not. -/
theorem exists_fit_shifted {t : Track Rat} (hfitted : (f.fit t).isFitted = true) (s : Ray Rat) :
    ∃ r, f.fit t = f.attach t.blank r ∧
      f.fit (f.shifted s t) = f.attach (f.shifted s t.blank) (r.add s) := by
  obtain ⟨r, hsolve, heq⟩ := exists_ray_of_isFitted hfitted
  have hhits : (f.shifted s t).hits.length = t.hits.length := List.length_map _
  have hblank : (f.shifted s t).blank = f.shifted s t.blank := by
    unfold Track.blank
    rw [hhits]
    rfl
  refine ⟨r, heq, ?_⟩
  rcases fit_cases f (f.shifted s t) with ⟨hnone, -⟩ | ⟨-, e, herror, -⟩ | ⟨-, r', hsolve', heq'⟩
  · rw [hhits] at hnone
    rcases fit_cases f t with ⟨-, heq'⟩ | ⟨hfree, -⟩ | ⟨hfree, -⟩
    · rw [heq'] at hfitted
      cases hfitted
    · exact absurd hnone hfree
    · exact absurd hnone hfree
  · rw [show (f.shifted s t).hits = t.hits.map (f.shiftHit s) from rfl,
      solve_shifted hf hsolve] at herror
    cases herror
  · rw [show (f.shifted s t).hits = t.hits.map (f.shiftHit s) from rfl,
      solve_shifted hf hsolve] at hsolve'
    cases hsolve'
    rw [heq', hblank]

end Shifts

/-! ## Exact hits -/

/-- Whether each hit has the coordinate at which a ray crosses its plane. -/
def Exact (f : Fitter Rat) (r : Ray Rat) (hits : List (Hit Rat)) : Prop :=
  ∀ hit ∈ hits, ∃ plane, f.geometry.plane? hit.plane = some plane ∧ hit.coord = plane.project r

/-- The coefficients of the planes that were hit, as columns. -/
def columnsOf (f : Fitter Rat) (hits : List (Hit Rat)) : Set (Fin 4 → ℚ) :=
  {v | ∃ hit ∈ hits, ∃ plane, f.geometry.plane? hit.plane = some plane ∧
    v = column (f.map.select plane.coefficients)}

/-- If the coefficients of the planes span all directions, none goes unseen. -/
theorem eq_zero_of_unseen {f : Fitter Rat} {hits : List (Hit Rat)}
    (hspan : Submodule.span ℚ (f.columnsOf hits) = ⊤) {v : Fin 4 → ℚ}
    (hunseen : f.Unseen hits v) : v = 0 := by
  have hall : ∀ w ∈ Submodule.span ℚ (f.columnsOf hits), w ⬝ᵥ v = 0 := by
    intro w hw
    induction hw using Submodule.span_induction with
    | mem w hw =>
        obtain ⟨hit, hhit, plane, hplane, rfl⟩ := hw
        exact hunseen hit hhit plane hplane
    | zero => exact zero_dotProduct v
    | add w w' _ _ hw hw' => rw [add_dotProduct, hw, hw', add_zero]
    | smul a w _ hw => rw [smul_dotProduct, hw, smul_zero]
  exact dotProduct_self_eq_zero.mp (hall v (hspan ▸ Submodule.mem_top))

section Recovery

variable {f : Fitter Rat} (hf : f.Ideal) {r : Ray Rat}

include hf

/-- A ray does not deviate from the coordinates at which it crosses the planes. -/
theorem misfit_of_exact {hits : List (Hit Rat)} (hexact : f.Exact r hits) :
    f.misfit hits r = 0 := by
  refine List.sum_eq_zero fun x hx => ?_
  obtain ⟨hit, hhit, rfl⟩ := List.mem_map.mp hx
  obtain ⟨plane, hplane, hcoord⟩ := hexact hit hhit
  rw [deviation_of_some hplane, predict_eq_project hf hplane, hcoord, sub_self, zero_div, sq,
    mul_zero]

/-- Exact hits that have a ray have the one that they come from. -/
theorem eq_of_exact {hits : List (Hit Rat)} (hexact : f.Exact r hits) {r' : Ray Rat}
    (hsolve : f.solve hits = .ok r') : r' = r := by
  refine (eq_of_misfit_le hsolve ?_).symm
  rw [misfit_of_exact hf hexact]
  exact List.sum_nonneg (by
    intro x hx
    obtain ⟨hit, -, rfl⟩ := List.mem_map.mp hx
    exact sq_nonneg _)

/-- Exact hits leave no residual. -/
theorem residual?_of_exact {t : Track Rat} (hsized : t.numPlanes = f.geometry.numPlanes)
    (hresiduals : t.residuals.length = f.geometry.numPlanes) (hexact : f.Exact r t.hits)
    {hit : Hit Rat} (hhit : hit ∈ t.hits) : (f.attach t r).residual? hit.plane = some 0 := by
  obtain ⟨plane, hplane, -⟩ := hexact hit hhit
  obtain ⟨last, hlast⟩ := exists_lastOn? hhit
  obtain ⟨hmem, hsame⟩ := mem_of_lastOn? hlast
  obtain ⟨plane', hplane', hcoord⟩ := hexact last hmem
  rw [hsame, hplane] at hplane'
  cases hplane'
  obtain ⟨old, hold⟩ := exists_residual? hresiduals hplane
  rw [residual?_attach f r hsized hplane, hlast, hold, Option.map_some, Option.map_some,
    Option.getD_some, hcoord, predict_eq_project hf hplane, sub_self]

end Recovery

/-- Fitting goes along with a shift and recovers exact rays, on ideal planes in exact arithmetic.
If a track is fitted and all its hits are shifted by what a ray has on their planes, it is fitted
with the shifted ray, its coordinate on every plane is shifted likewise, and its residuals and its
chi-square stay.  If the hits have the coordinates at which a ray crosses their planes, a track
whose planes span the ray parameters is fitted, with this ray, its coordinate on every plane, no
residual on any plane that was hit, and a chi-square of zero. -/
theorem fit_shifted (f : Fitter Rat) (hf : f.Ideal) (t : Track Rat)
    (hcoords : t.coords.length = f.geometry.numPlanes)
    (hresiduals : t.residuals.length = f.geometry.numPlanes) :
    ((f.fit t).isFitted = true → ∀ s : Ray Rat,
        (f.fit (f.shifted s t)).isFitted = true ∧
        (f.fit (f.shifted s t)).ray = (f.fit t).ray.add s ∧
        (∀ p plane, f.geometry.plane? p = some plane → ∃ u, (f.fit t).coord? p = some u ∧
          (f.fit (f.shifted s t)).coord? p = some (u + plane.project s)) ∧
        (f.fit (f.shifted s t)).residuals = (f.fit t).residuals ∧
        (f.fit (f.shifted s t)).chiSquare = (f.fit t).chiSquare) ∧
      ∀ r : Ray Rat, f.Exact r t.hits →
        (Submodule.span ℚ (f.columnsOf t.hits) = ⊤ → 5 ≤ t.hits.length →
          t.hits.length < 2 ^ 31 → (f.fit t).isFitted = true) ∧
        ((f.fit t).isFitted = true →
          (f.fit t).ray = r ∧
          (∀ p plane, f.geometry.plane? p = some plane →
            (f.fit t).coord? p = some (plane.project r)) ∧
          (∀ hit ∈ t.hits, (f.fit t).residual? hit.plane = some 0) ∧
          (f.fit t).chiSquare = 0) := by
  have hsized : t.blank.numPlanes = f.geometry.numPlanes := by
    rw [← hcoords]
    simp [Track.numPlanes, Track.blank, Track.reset]
  have hblank : t.blank.residuals.length = f.geometry.numPlanes := by
    rw [← hresiduals]
    simp [Track.blank, Track.reset]
  refine ⟨fun hfitted s => ?_, fun r hexact => ⟨fun hspan hfive hsmall => ?_, fun hfitted => ?_⟩⟩
  · obtain ⟨r, heq, heq'⟩ := exists_fit_shifted hf hfitted s
    have hmoved : (f.shifted s t.blank).numPlanes = f.geometry.numPlanes := hsized
    obtain ⟨hsame, hchi⟩ := attach_shifted hf hsized r s
    rw [heq, heq']
    refine ⟨rfl, rfl, fun p plane hplane => ?_, hsame, hchi⟩
    refine ⟨plane.project r, ?_, ?_⟩
    · rw [coord?_attach f r hsized, hplane, Option.map_some, predict_eq_project hf hplane]
    · rw [coord?_attach f _ hmoved, hplane, Option.map_some, predict_eq_project hf hplane,
        Plane.project_add (hf.isIdeal hplane)]
  · have hknown : ∀ hit ∈ t.hits, (f.geometry.plane? hit.plane).isSome = true := by
      intro hit hhit
      obtain ⟨plane, hplane, -⟩ := hexact hit hhit
      rw [hplane]
      rfl
    rcases solve_cases (by omega) hknown with ⟨⟨v, hv, hunseen⟩, -⟩ | ⟨-, r', hsolve⟩
    · exact absurd (eq_zero_of_unseen hspan hunseen) hv
    · exact isFitted_fit (degreesOfFreedom_pos hfive hsmall) hsolve
  · obtain ⟨r', hsolve, heq⟩ := exists_ray_of_isFitted hfitted
    obtain rfl := eq_of_exact hf hexact hsolve
    rw [heq]
    refine ⟨rfl, fun p plane hplane => ?_, fun hit hhit => ?_, ?_⟩
    · rw [coord?_attach f _ hsized, hplane, Option.map_some, predict_eq_project hf hplane]
    · exact residual?_of_exact hf hsized hblank hexact hhit
    · rw [chiSquare_attach f t.blank _ hsized]
      exact misfit_of_exact hf hexact

theorem ideal_small : small.Ideal where
  planes := by
    intro plane hplane
    simp only [small, twoChambers, fivePlanes, List.cons_append, List.nil_append, List.mem_cons,
      List.not_mem_nil, or_false] at hplane
    rcases hplane with rfl | rfl | rfl | rfl | rfl | rfl | rfl | rfl | rfl | rfl <;>
      exact Plane.isIdeal_ofDirection _ _ _ _ _
  map_eq := rfl

/-- The hits of one ray on five planes. -/
def crossingHits : List (Hit Rat) :=
  [⟨1, 1, -16 / 5⟩, ⟨2, 1, -31 / 5⟩, ⟨3, 1, -33 / 5⟩, ⟨4, 1, -29 / 10⟩, ⟨10, 1, 52 / 5⟩]

/-- The ray of the crossing hits. -/
def crossingRay : Ray Rat := ⟨1, 2, 1 / 10, 1 / 5⟩

theorem exact_crossingHits : small.Exact crossingRay crossingHits := by
  intro hit hhit
  simp only [crossingHits, List.mem_cons, List.not_mem_nil, or_false] at hhit
  rcases hhit with rfl | rfl | rfl | rfl | rfl <;> exact ⟨_, rfl, by decide +kernel⟩

/-- The planes of the crossing hits span all directions. -/
theorem span_crossingHits : Submodule.span ℚ (small.columnsOf crossingHits) = ⊤ := by
  have hmem : ∀ v : Fin 4 → ℚ, (∃ hit ∈ crossingHits, ∃ plane,
      small.geometry.plane? hit.plane = some plane ∧
        v = column (small.map.select plane.coefficients)) →
      v ∈ Submodule.span ℚ (small.columnsOf crossingHits) :=
    fun v hv => Submodule.subset_span hv
  have hfirst := hmem ![1, 0, -42, 0] ⟨⟨1, 1, -16 / 5⟩, by simp [crossingHits], _, rfl,
    by decide +kernel⟩
  have hsecond := hmem ![0, 1, 0, -41] ⟨⟨2, 1, -31 / 5⟩, by simp [crossingHits], _, rfl,
    by decide +kernel⟩
  have hfourth := hmem ![1, 0, -39, 0] ⟨⟨4, 1, -29 / 10⟩, by simp [crossingHits], _, rfl,
    by decide +kernel⟩
  have hlast := hmem ![0, 1, 0, 42] ⟨⟨10, 1, 52 / 5⟩, by simp [crossingHits], _, rfl,
    by decide +kernel⟩
  -- two planes measure `x`, two measure `y`, each pair at two places
  refine (Submodule.eq_top_iff').mpr fun v => ?_
  have hv : v = (v 0 - (v 2 + 42 * v 0) / 3) • ![1, 0, -42, 0] +
      ((v 2 + 42 * v 0) / 3) • ![1, 0, -39, 0] +
      ((v 1 - (v 3 + 41 * v 1) / 83) • ![0, 1, 0, -41] +
        ((v 3 + 41 * v 1) / 83) • ![0, 1, 0, 42]) := by
    funext i
    fin_cases i <;> simp <;> ring
  rw [hv]
  exact Submodule.add_mem _
    (Submodule.add_mem _ (Submodule.smul_mem _ _ hfirst) (Submodule.smul_mem _ _ hfourth))
    (Submodule.add_mem _ (Submodule.smul_mem _ _ hsecond) (Submodule.smul_mem _ _ hlast))

/-- Shifting the noisy hits shifts their ray and leaves their chi-square, and the crossing hits give
their ray back. -/
theorem fit_shifted_noisyHits :
    (small.fit (small.shifted ⟨1, 2, 3, 4⟩
        { (Track.empty 10 : Track Rat) with hits := noisyHits })).ray =
      noisyRay.add ⟨1, 2, 3, 4⟩ ∧
      (small.fit (small.shifted ⟨1, 2, 3, 4⟩
        { (Track.empty 10 : Track Rat) with hits := noisyHits })).chiSquare =
          953890000 / 183889 ∧
      (small.fit { (Track.empty 10 : Track Rat) with hits := crossingHits }).ray = crossingRay ∧
      (small.fit { (Track.empty 10 : Track Rat) with hits := crossingHits }).chiSquare = 0 := by
  obtain ⟨hshift, -⟩ := fit_shifted small ideal_small
    { (Track.empty 10 : Track Rat) with hits := noisyHits } rfl rfl
  obtain ⟨-, hray, -, -, hchi⟩ := hshift (by decide +kernel) ⟨1, 2, 3, 4⟩
  obtain ⟨-, hrecover⟩ := fit_shifted small ideal_small
    { (Track.empty 10 : Track Rat) with hits := crossingHits } rfl rfl
  obtain ⟨hfits, hexact⟩ := hrecover crossingRay exact_crossingHits
  obtain ⟨hsame, -, -, hzero⟩ :=
    hexact (hfits span_crossingHits (by decide) (by decide))
  refine ⟨?_, ?_, hsame, hzero⟩
  · rw [hray]
    decide +kernel
  · rw [hchi]
    decide +kernel

end Fitter

end DriftChamber
