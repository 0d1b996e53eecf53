/-
# The normal equations in exact arithmetic

Over the rationals the matrix of the normal equations is a sum of squares: along a direction `v` it
takes the value `Σ w (c · v)²` (`Measurement.dotProduct_gram_mulVec`).  So for positive weights

* it vanishes along exactly those directions that no measurement sees, and has an inverse unless
  there is one (`Measurement.bestRay?_eq_none_iff`);
* a solution of the normal equations is the only ray of least squared misfit
  (`Measurement.misfit_lt_of_bestRay?`).
-/
import DriftChamber.Proofs.Fitting.Inverse

namespace DriftChamber

open Matrix

theorem foldl_add_eq_sum {β : Type} (g : β → Rat) (entries : List β) :
    entries.foldl (fun s e => s + g e) 0 = (entries.map g).sum := by
  rw [List.sum_eq_foldl, List.foldl_map]

/-! ## Rays as columns -/

/-- The four parameters of a ray, as a column. -/
def Ray.coordinates (r : Ray Rat) : Fin 4 → ℚ := ![r.x, r.y, r.xp, r.yp]

theorem Ray.coordinates_ofVector (v : Vector Rat 4) : (Ray.ofVector v).coordinates = column v := by
  funext i
  fin_cases i <;> rfl

theorem Ray.coordinates_injective : Function.Injective Ray.coordinates := by
  rintro ⟨x, y, xp, yp⟩ ⟨x', y', xp', yp'⟩ h
  have hx : x = x' := congrFun h 0
  have hy : y = y' := congrFun h 1
  have hxp : xp = xp' := congrFun h 2
  have hyp : yp = yp' := congrFun h 3
  rw [hx, hy, hxp, hyp]

namespace Measurement

/-! ## The normal equations -/

/-- Squared misfit of a ray: over the measurements, the weighted squares of measured minus
described value. -/
def misfit (measured : List (Measurement Rat)) (r : Ray Rat) : Rat :=
  (measured.map fun m => m.weight * (m.value - column m.coefficients ⬝ᵥ r.coordinates) ^ 2).sum

/-- The entries of the matrix, as sums over the measurements. -/
theorem entry_gram (measured : List (Measurement Rat)) (k l : Fin 4) :
    (gram measured).toMatrix k l =
      (measured.map fun m =>
        column m.coefficients k * column m.coefficients l * m.weight).sum := by
  unfold gram
  rw [Matrix4.toMatrix_ofFn, Matrix.of_apply]
  exact foldl_add_eq_sum _ measured

theorem column_moments (measured : List (Measurement Rat)) (k : Fin 4) :
    column (moments measured) k =
      (measured.map fun m => column m.coefficients k * (m.value * m.weight)).sum := by
  have hget : column (moments measured) k =
      measured.foldl (fun s m => s + m.coefficients[k] * (m.value * m.weight)) 0 := by
    unfold column moments
    exact Vector.getElem_ofFn k.isLt
  rw [hget]
  exact foldl_add_eq_sum _ measured

/-- The matrix of the normal equations, between two directions. -/
theorem dotProduct_gram_mulVec (measured : List (Measurement Rat)) (v x : Fin 4 → ℚ) :
    v ⬝ᵥ (gram measured).toMatrix *ᵥ x =
      (measured.map fun m =>
        m.weight * (column m.coefficients ⬝ᵥ v) * (column m.coefficients ⬝ᵥ x)).sum := by
  simp only [dotProduct, Matrix.mulVec, Fin.sum_univ_four, entry_gram]
  induction measured with
  | nil => simp
  | cons m rest ih =>
      simp only [List.map_cons, List.sum_cons]
      rw [← ih]
      ring

/-- The right-hand side of the normal equations, along a direction. -/
theorem dotProduct_moments (measured : List (Measurement Rat)) (v : Fin 4 → ℚ) :
    v ⬝ᵥ column (moments measured) =
      (measured.map fun m => m.weight * m.value * (column m.coefficients ⬝ᵥ v)).sum := by
  simp only [dotProduct, Fin.sum_univ_four, column_moments]
  induction measured with
  | nil => simp
  | cons m rest ih =>
      simp only [List.map_cons, List.sum_cons]
      rw [← ih]
      ring

/-- What a ray loses or gains in misfit against another one. -/
theorem misfit_eq_add (measured : List (Measurement Rat)) (r r' : Ray Rat) :
    misfit measured r' =
      misfit measured r -
        2 * ((r'.coordinates - r.coordinates) ⬝ᵥ
          (column (moments measured) - (gram measured).toMatrix *ᵥ r.coordinates)) +
        (r'.coordinates - r.coordinates) ⬝ᵥ
          (gram measured).toMatrix *ᵥ (r'.coordinates - r.coordinates) := by
  rw [dotProduct_sub, dotProduct_moments, dotProduct_gram_mulVec, dotProduct_gram_mulVec]
  unfold misfit
  induction measured with
  | nil => simp
  | cons m rest ih =>
      simp only [List.map_cons, List.sum_cons, ih, dotProduct_sub]
      ring

/-- The best ray solves the normal equations. -/
theorem gram_mulVec_of_bestRay? {measured : List (Measurement Rat)} {r : Ray Rat}
    (h : bestRay? measured = some r) :
    (gram measured).toMatrix *ᵥ r.coordinates = column (moments measured) := by
  unfold bestRay? at h
  cases hinverse : (gram measured).inverse? with
  | none =>
      rw [hinverse] at h
      cases h
  | some inverse =>
      rw [hinverse] at h
      have hray : some (Ray.ofVector (inverse.apply (moments measured))) = some r := h
      rw [← Option.some.inj hray, Ray.coordinates_ofVector]
      exact Matrix4.mulVec_apply_of_inverse? hinverse (moments measured)

section Weights

variable {measured : List (Measurement Rat)} (hweight : ∀ m ∈ measured, 0 < m.weight)

include hweight

/-- Each measurement contributes a square, times its weight. -/
theorem gram_term_nonneg (v : Fin 4 → ℚ) :
    ∀ x ∈ measured.map fun m =>
      m.weight * (column m.coefficients ⬝ᵥ v) * (column m.coefficients ⬝ᵥ v), 0 ≤ x := by
  intro x hx
  obtain ⟨m, hm, rfl⟩ := List.mem_map.mp hx
  rw [mul_assoc]
  exact mul_nonneg (hweight m hm).le (mul_self_nonneg _)

/-- Along a direction the matrix vanishes exactly if no measurement sees the direction. -/
theorem dotProduct_gram_self_eq_zero_iff (v : Fin 4 → ℚ) :
    v ⬝ᵥ (gram measured).toMatrix *ᵥ v = 0 ↔
      ∀ m ∈ measured, column m.coefficients ⬝ᵥ v = 0 := by
  rw [dotProduct_gram_mulVec]
  constructor
  · intro hsum m hm
    have hterm := List.all_zero_of_le_zero_le_of_sum_eq_zero (gram_term_nonneg hweight v) hsum
      (List.mem_map_of_mem hm)
    rw [mul_assoc, mul_eq_zero, mul_self_eq_zero] at hterm
    exact hterm.resolve_left (hweight m hm).ne'
  · intro hall
    refine List.sum_eq_zero fun x hx => ?_
    obtain ⟨m, hm, rfl⟩ := List.mem_map.mp hx
    rw [hall m hm, mul_zero]

theorem dotProduct_gram_self_nonneg (v : Fin 4 → ℚ) :
    0 ≤ v ⬝ᵥ (gram measured).toMatrix *ᵥ v := by
  rw [dotProduct_gram_mulVec]
  exact List.sum_nonneg (gram_term_nonneg hweight v)

/-- The matrix is singular exactly if there is a direction that no measurement sees. -/
theorem det_gram_eq_zero_iff :
    (gram measured).toMatrix.det = 0 ↔
      ∃ v : Fin 4 → ℚ, v ≠ 0 ∧ ∀ m ∈ measured, column m.coefficients ⬝ᵥ v = 0 := by
  rw [← Matrix.exists_mulVec_eq_zero_iff]
  refine exists_congr fun v => and_congr_right fun _ => ?_
  rw [← dotProduct_gram_self_eq_zero_iff hweight]
  constructor
  · intro hzero
    rw [hzero, dotProduct_zero]
  · -- no measurement sees the direction, so every term is zero, whatever the other direction
    intro hself
    have hunseen := (dotProduct_gram_self_eq_zero_iff hweight v).mp hself
    refine dotProduct_eq_zero _ fun w => ?_
    rw [dotProduct_comm, dotProduct_gram_mulVec]
    refine List.sum_eq_zero fun x hx => ?_
    obtain ⟨m, hm, rfl⟩ := List.mem_map.mp hx
    rw [hunseen m hm, mul_zero]

/-- There is no best ray exactly if there is a direction that no measurement sees. -/
theorem bestRay?_eq_none_iff :
    bestRay? measured = none ↔
      ∃ v : Fin 4 → ℚ, v ≠ 0 ∧ ∀ m ∈ measured, column m.coefficients ⬝ᵥ v = 0 := by
  rw [← det_gram_eq_zero_iff hweight, ← Matrix4.inverse?_eq_none_iff]
  unfold bestRay?
  cases (gram measured).inverse? with
  | none => exact iff_of_true rfl rfl
  | some inverse => exact iff_of_false (by simp [Ray.isFinite, Scalar.isFinite]) (by simp)

/-- The best ray has less squared misfit than any other one. -/
theorem misfit_lt_of_bestRay? {r r' : Ray Rat} (h : bestRay? measured = some r) (hne : r' ≠ r) :
    misfit measured r < misfit measured r' := by
  have hdet : (gram measured).toMatrix.det ≠ 0 := by
    rw [Ne, det_gram_eq_zero_iff hweight, ← bestRay?_eq_none_iff hweight, h]
    simp
  have hmove : r'.coordinates - r.coordinates ≠ 0 := by
    rw [sub_ne_zero]
    exact fun heq => hne (Ray.coordinates_injective heq)
  have hpos : (r'.coordinates - r.coordinates) ⬝ᵥ
      (gram measured).toMatrix *ᵥ (r'.coordinates - r.coordinates) ≠ 0 := by
    intro hzero
    rw [dotProduct_gram_self_eq_zero_iff hweight] at hzero
    exact hdet ((det_gram_eq_zero_iff hweight).mpr ⟨_, hmove, hzero⟩)
  have hnonneg := dotProduct_gram_self_nonneg hweight (r'.coordinates - r.coordinates)
  -- the linear term goes, since the ray solves the normal equations
  have hsplit := misfit_eq_add measured r r'
  rw [gram_mulVec_of_bestRay? h, sub_self, dotProduct_zero] at hsplit
  have hlt := lt_of_le_of_ne hnonneg hpos.symm
  linarith

end Weights

end Measurement

end DriftChamber
