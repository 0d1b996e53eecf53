/-
# Weighted least squares in four parameters

Measurements that are linear in four parameters determine them by the normal equations
`A r = t`, with

  A[k][l] = Σ c[k] * c[l] * w        t[k] = Σ c[k] * (u * w)

over the measurements, `c` the coefficients, `w` the weight and `u` the measured value.  The
system is solved through the inverse of `A`, written out by its cofactors: a matrix has no inverse
exactly if its determinant is zero.  No conditioning is asked for.
-/
import DriftChamber.Ray

namespace DriftChamber

/-- A measured value that is linear in four parameters. -/
structure Measurement (α : Type) where
  /-- What multiplies each parameter. -/
  coefficients : Vector α 4
  /-- What the measurement counts. -/
  weight : α
  /-- The measured value. -/
  value : α

/-- A matrix of four rows and four columns, by rows. -/
abbrev Matrix4 (α : Type) : Type := Vector (Vector α 4) 4

namespace Matrix4

variable {α : Type}

/-- The matrix with the given entries. -/
def ofFn (entry : Fin 4 → Fin 4 → α) : Matrix4 α :=
  Vector.ofFn fun i => Vector.ofFn fun j => entry i j

/-- The entry in a row and a column. -/
def entry (m : Matrix4 α) (i j : Fin 4) : α := (m[i])[j]

/-- The three indices other than `i`, in order. -/
def others (i : Fin 4) (k : Fin 3) : Fin 4 := if k.castSucc < i then k.castSucc else k.succ

variable [Scalar α]

/-- Determinant of three rows and three columns, by rows. -/
def det3 (a b c d e f g h i : α) : α :=
  a * e * i - a * f * h - d * b * i + d * c * h + g * b * f - g * c * e

/-- The signed determinant that is left without row `j` and column `i`: the entry of the adjugate
in row `i` and column `j`.  The sign is carried by the first row. -/
def cofactor (m : Matrix4 α) (i j : Fin 4) : α :=
  let at3 := fun (r c : Fin 3) => m.entry (others j r) (others i c)
  let first := fun (c : Fin 3) => if (i.val + j.val) % 2 = 0 then at3 0 c else -(at3 0 c)
  det3 (first 0) (at3 1 0) (at3 2 0) (first 1) (at3 1 1) (at3 2 1) (first 2) (at3 1 2) (at3 2 2)

/-- Determinant, by the first column. -/
def det (m : Matrix4 α) : α :=
  m.entry 0 0 * m.cofactor 0 0 + m.entry 1 0 * m.cofactor 0 1 + m.entry 2 0 * m.cofactor 0 2 +
    m.entry 3 0 * m.cofactor 0 3

/-- The inverse, unless the determinant is zero. -/
def inverse? (m : Matrix4 α) : Option (Matrix4 α) :=
  let determinant := m.det
  if Scalar.isZero determinant then none
  else
    let scale := 1 / determinant
    some (ofFn fun i j => m.cofactor i j * scale)

/-- Product with a column. -/
def apply (m : Matrix4 α) (v : Vector α 4) : Vector α 4 :=
  Vector.ofFn fun i =>
    m.entry i 0 * v.get 0 + m.entry i 1 * v.get 1 + m.entry i 2 * v.get 2 + m.entry i 3 * v.get 3

end Matrix4

namespace Measurement

variable {α : Type} [Scalar α]

/-- The matrix of the normal equations. -/
def gram (measured : List (Measurement α)) : Matrix4 α :=
  Matrix4.ofFn fun k l =>
    measured.foldl (fun s m => s + m.coefficients[k] * m.coefficients[l] * m.weight) 0

/-- The right-hand side of the normal equations. -/
def moments (measured : List (Measurement α)) : Vector α 4 :=
  Vector.ofFn fun k =>
    measured.foldl (fun s m => s + m.coefficients[k] * (m.value * m.weight)) 0

/-- The parameters that describe the measurements best.  There are none if the matrix has no
inverse, or if a parameter comes out infinite or as no number. -/
def bestRay? (measured : List (Measurement α)) : Option (Ray α) := do
  let inverse ← (gram measured).inverse?
  let ray := Ray.ofVector (inverse.apply (moments measured))
  if ray.isFinite then some ray else none

end Measurement

end DriftChamber
