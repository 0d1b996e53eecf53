/-
# The inverse in exact arithmetic

Over the rationals the inverse by cofactors is the inverse of the matrix, and it is missing exactly
if the determinant is zero: `Matrix4.inverse?_eq_none_iff` and `Matrix4.mulVec_apply_of_inverse?`.
The entries are read as a matrix of the library, whose adjugate and determinant are those written
out by cofactors.
-/
import Mathlib
import DriftChamber.LeastSquares

namespace DriftChamber

open Matrix

/-- The values of a column, by index. -/
def column (v : Vector Rat 4) : Fin 4 → ℚ := fun i => v.get i

namespace Matrix4

/-- The entries of a matrix, by row and column. -/
def toMatrix (m : Matrix4 Rat) : Matrix (Fin 4) (Fin 4) ℚ := Matrix.of fun i j => m.entry i j

theorem toMatrix_ofFn (entry : Fin 4 → Fin 4 → Rat) :
    (Matrix4.ofFn entry).toMatrix = Matrix.of entry := by
  ext i j
  simp [toMatrix, Matrix4.entry, Matrix4.ofFn]

theorem others_eq_succAbove (i : Fin 4) (k : Fin 3) : others i k = i.succAbove k := rfl

/-- The cofactors are the entries of the adjugate. -/
theorem cofactor_eq_adjugate (m : Matrix4 Rat) (i j : Fin 4) :
    m.cofactor i j = m.toMatrix.adjugate i j := by
  rw [Matrix.adjugate_fin_succ_eq_det_submatrix, Matrix.det_fin_three]
  unfold cofactor det3
  simp only [others_eq_succAbove, Matrix.submatrix_apply, toMatrix, Matrix.of_apply]
  by_cases heven : (i.val + j.val) % 2 = 0
  · have hsign : (-1 : ℚ) ^ (j.val + i.val) = 1 := by
      rw [Nat.add_comm]
      exact (Nat.even_iff.mpr heven).neg_one_pow
    simp only [if_pos heven]
    rw [hsign]
    ring
  · have hsign : (-1 : ℚ) ^ (j.val + i.val) = -1 := by
      rw [Nat.add_comm]
      exact (Nat.odd_iff.mpr (by omega)).neg_one_pow
    simp only [if_neg heven]
    rw [hsign]
    ring

/-- The determinant by the first column is the determinant. -/
theorem det_eq_det (m : Matrix4 Rat) : m.det = m.toMatrix.det := by
  rw [Matrix.det_eq_sum_mul_adjugate_col m.toMatrix 0, Fin.sum_univ_four]
  simp only [← cofactor_eq_adjugate]
  rfl

theorem column_apply (m : Matrix4 Rat) (v : Vector Rat 4) :
    column (m.apply v) = m.toMatrix *ᵥ column v := by
  funext i
  have hget : column (m.apply v) i = m.entry i 0 * v.get 0 + m.entry i 1 * v.get 1 +
      m.entry i 2 * v.get 2 + m.entry i 3 * v.get 3 := by
    unfold column apply
    exact Vector.getElem_ofFn i.isLt
  rw [hget, Matrix.mulVec, dotProduct, Fin.sum_univ_four]
  rfl

/-- The inverse is the adjugate divided by the determinant, unless that is zero. -/
theorem inverse?_eq (m : Matrix4 Rat) :
    m.inverse? = if m.toMatrix.det = 0 then none
      else some (ofFn fun i j => m.toMatrix.adjugate i j * (1 / m.toMatrix.det)) := by
  have hiszero : Scalar.isZero m.toMatrix.det = decide (m.toMatrix.det = 0) := by
    show (m.toMatrix.det == 0) = _
    rw [beq_eq_decide]
  unfold inverse?
  simp only [det_eq_det, hiszero, decide_eq_true_eq, cofactor_eq_adjugate]

/-- A matrix has no inverse exactly if its determinant is zero. -/
theorem inverse?_eq_none_iff (m : Matrix4 Rat) : m.inverse? = none ↔ m.toMatrix.det = 0 := by
  rw [inverse?_eq]
  by_cases hdet : m.toMatrix.det = 0
  · rw [if_pos hdet]
    exact iff_of_true rfl hdet
  · rw [if_neg hdet]
    exact iff_of_false (by simp) hdet

/-- The inverse undoes the matrix. -/
theorem mulVec_apply_of_inverse? {m n : Matrix4 Rat} (h : m.inverse? = some n)
    (v : Vector Rat 4) : m.toMatrix *ᵥ column (n.apply v) = column v := by
  rw [inverse?_eq] at h
  split at h
  · cases h
  · next hdet =>
      have hinverse : n.toMatrix = m.toMatrix⁻¹ := by
        rw [← Option.some.inj h, toMatrix_ofFn, Matrix.inv_def, Ring.inverse_eq_inv']
        ext i j
        rw [Matrix.of_apply, Matrix.smul_apply, smul_eq_mul, mul_comm, one_div]
      rw [column_apply, hinverse, Matrix.mulVec_mulVec,
        Matrix.mul_nonsing_inv _ (isUnit_iff_ne_zero.mpr hdet), Matrix.one_mulVec]

end Matrix4

end DriftChamber
