/-
# Coordinates and residuals of a fitted track

What a track shows plane by plane once it is filled in from a ray.  Every plane of the detector
has the coordinate of the ray on it (`Fitter.coord?_attach`).  The residuals are written hit by
hit, so a plane keeps the residual of the last hit on it, and one without hits keeps the value from
before (`Fitter.residual?_attach`), which in a fit is the mark of a plane without a residual
(`Fitter.residual?_fit`).  So where no plane was hit twice, no residual is lost
(`Fitter.residual?_fit_of_nodup`).
-/
import DriftChamber.Proofs.Fitting.Optimum

namespace DriftChamber

variable {α : Type}

/-! ## The last hit on a plane -/

/-- The last of the hits on the plane of the given number. -/
def lastOn? (hits : List (Hit α)) (plane : Nat) : Option (Hit α) :=
  (hits.filter fun hit => hit.plane == plane).getLast?

theorem lastOn?_cons_of_ne {hit : Hit α} {plane : Nat} (hne : hit.plane ≠ plane)
    (rest : List (Hit α)) : lastOn? (hit :: rest) plane = lastOn? rest plane := by
  unfold lastOn?
  rw [List.filter_cons_of_neg (by simpa using hne)]

theorem lastOn?_cons_self (hit : Hit α) (rest : List (Hit α)) :
    lastOn? (hit :: rest) hit.plane = some ((lastOn? rest hit.plane).getD hit) := by
  unfold lastOn?
  rw [List.filter_cons_of_pos (by simp), List.getLast?_cons]

theorem mem_of_lastOn? {hits : List (Hit α)} {plane : Nat} {hit : Hit α}
    (h : lastOn? hits plane = some hit) : hit ∈ hits ∧ hit.plane = plane := by
  have hmem := List.mem_of_getLast? h
  rw [List.mem_filter, beq_iff_eq] at hmem
  exact hmem

/-- A plane that was hit has a last hit. -/
theorem exists_lastOn? {hits : List (Hit α)} {hit : Hit α} (hhit : hit ∈ hits) :
    ∃ last, lastOn? hits hit.plane = some last := by
  have hmem : hit ∈ hits.filter fun other => other.plane == hit.plane :=
    List.mem_filter.mpr ⟨hhit, by simp⟩
  exact ⟨_, List.getLast?_eq_getLast_of_ne_nil (List.ne_nil_of_mem hmem)⟩

/-- A plane that was not hit has none. -/
theorem lastOn?_eq_none {hits : List (Hit α)} {plane : Nat} (hnot : plane ∉ hits.map (·.plane)) :
    lastOn? hits plane = none := by
  cases hlast : lastOn? hits plane with
  | none => rfl
  | some hit =>
      obtain ⟨hmem, hplane⟩ := mem_of_lastOn? hlast
      exact absurd (List.mem_map.mpr ⟨hit, hmem, hplane⟩) hnot

/-- Where no plane was hit twice, a hit is the last one on its plane. -/
theorem lastOn?_of_nodup {hits : List (Hit α)} (hnodup : (hits.map (·.plane)).Nodup)
    {hit : Hit α} (hhit : hit ∈ hits) : lastOn? hits hit.plane = some hit := by
  obtain ⟨last, hlast⟩ := exists_lastOn? hhit
  obtain ⟨hmem, hplane⟩ := mem_of_lastOn? hlast
  rw [hlast, List.inj_on_of_nodup_map hnodup hmem hhit hplane]

variable [Scalar α]

/-- Values written hit by hit, each on the plane of its hit if there is such a plane: a plane ends
with that of its last hit. -/
theorem valueOn?_foldl_setOn (g : Geometry α) (value : Plane α → Hit α → α) (p : Nat)
    (hits : List (Hit α)) (values : List α) :
    valueOn? (hits.foldl (fun values hit =>
        match g.plane? hit.plane with
        | some plane => setOn values hit.plane (value plane hit)
        | none => values) values) p =
      (valueOn? values p).map fun old =>
        ((g.plane? p).bind fun plane => (lastOn? hits p).map (value plane)).getD old := by
  induction hits generalizing values with
  | nil => simp [lastOn?]
  | cons hit rest ih =>
      rw [List.foldl_cons, ih]
      by_cases heq : hit.plane = p
      · subst heq
        rw [lastOn?_cons_self]
        cases g.plane? hit.plane with
        | none => rfl
        | some plane =>
            simp only [Option.bind_some]
            rw [valueOn?_setOn]
            cases valueOn? values hit.plane <;> cases lastOn? rest hit.plane <;> simp
      · rw [lastOn?_cons_of_ne heq]
        -- a hit on another plane, known or not, leaves the value on `p`
        cases g.plane? hit.plane with
        | none => rfl
        | some plane =>
            simp only
            rw [valueOn?_setOn, if_neg fun h => heq h.1.symm]

namespace Fitter

/-! ## The ray -/

/-- A track that is filled in from a ray shows the ray. -/
theorem fittedRay?_attach (f : Fitter α) (t : Track α) (ray : Ray α) :
    (f.attach t ray).fittedRay? = some ray := rfl

/-! ## Plane by plane -/

theorem coord?_attach (f : Fitter α) {t : Track α} (ray : Ray α)
    (hsized : t.numPlanes = f.geometry.numPlanes) (p : Nat) :
    (f.attach t ray).coord? p = (f.geometry.plane? p).map fun plane => f.predict plane ray := by
  show valueOn? (f.predictions t.numPlanes ray) p = _
  rw [hsized, valueOn?_predictions]

/-- A list of values for all planes has one for each plane of the detector. -/
theorem exists_residual? {f : Fitter α} {t : Track α}
    (hsized : t.residuals.length = f.geometry.numPlanes) {p : Nat} {plane : Plane α}
    (hplane : f.geometry.plane? p = some plane) : ∃ old, t.residual? p = some old := by
  cases p with
  | zero => cases hplane
  | succ index =>
      obtain ⟨hlt, -⟩ := List.getElem?_eq_some_iff.mp hplane
      exact ⟨_, List.getElem?_eq_getElem (hsized ▸ hlt)⟩

/-- Residuals written hit by hit: each plane ends with that of its last hit. -/
theorem valueOn?_foldl_residuals (f : Fitter α) (ray : Ray α) {p : Nat} {plane : Plane α}
    (hplane : f.geometry.plane? p = some plane) (hits : List (Hit α)) (values : List α) :
    valueOn? ((f.hitResiduals (f.predictions f.geometry.numPlanes ray) hits).foldl
        (fun values r => setOn values r.1 r.2.1) values) p =
      (valueOn? values p).map fun old =>
        ((lastOn? hits p).map fun hit => hit.coord - f.predict plane ray).getD old := by
  have hloop := valueOn?_foldl_setOn f.geometry
    (fun own hit => hit.coord - f.predict own ray) p hits values
  rw [hplane] at hloop
  rw [hitResiduals_predictions, List.foldl_filterMap]
  refine Eq.trans ?_ hloop
  congr 2
  funext values hit
  cases f.geometry.plane? hit.plane <;> rfl

/-- A plane of the detector shows the residual of the last hit on it. -/
theorem residual?_attach (f : Fitter α) {t : Track α} (ray : Ray α)
    (hsized : t.numPlanes = f.geometry.numPlanes) {p : Nat} {plane : Plane α}
    (hplane : f.geometry.plane? p = some plane) :
    (f.attach t ray).residual? p = (t.residual? p).map fun old =>
      ((lastOn? t.hits p).map fun hit => hit.coord - f.predict plane ray).getD old := by
  have hvalues := valueOn?_foldl_residuals f ray hplane t.hits t.residuals
  rw [← hsized] at hvalues
  exact hvalues

/-! ## What a fit shows -/

/-- A fit starts without a residual on any plane. -/
theorem residual?_blank {f : Fitter α} {t : Track α}
    (hresiduals : t.residuals.length = f.geometry.numPlanes) {p : Nat} {plane : Plane α}
    (hplane : f.geometry.plane? p = some plane) :
    t.blank.residual? p = some Track.residualUnset := by
  obtain ⟨old, hold⟩ := exists_residual? hresiduals hplane
  cases p with
  | zero => cases hplane
  | succ index =>
      show (t.residuals.map fun _ => Track.residualUnset)[index]? = _
      rw [List.getElem?_map]
      exact congrArg (Option.map fun _ => Track.residualUnset) hold

section Fitted

variable {f : Fitter α} {t : Track α} (hfitted : (f.fit t).isFitted = true)
include hfitted

/-- On a plane of the detector, a track that was fitted shows the coordinate of its ray. -/
theorem coord?_fit (hcoords : t.coords.length = f.geometry.numPlanes) {p : Nat} {plane : Plane α}
    (hplane : f.geometry.plane? p = some plane) :
    (f.fit t).coord? p = some (f.predict plane (f.fit t).ray) := by
  obtain ⟨ray, -, heq⟩ := exists_ray_of_isFitted hfitted
  have hsized : t.blank.numPlanes = f.geometry.numPlanes := (List.length_map _).trans hcoords
  rw [heq, coord?_attach f ray hsized, hplane]
  rfl

/-- It shows the residual of the last hit there, or the mark of a plane without hits. -/
theorem residual?_fit (hcoords : t.coords.length = f.geometry.numPlanes)
    (hresiduals : t.residuals.length = f.geometry.numPlanes) {p : Nat} {plane : Plane α}
    (hplane : f.geometry.plane? p = some plane) :
    (f.fit t).residual? p = some (((lastOn? t.hits p).map fun hit =>
      hit.coord - f.predict plane (f.fit t).ray).getD Track.residualUnset) := by
  obtain ⟨ray, -, heq⟩ := exists_ray_of_isFitted hfitted
  have hsized : t.blank.numPlanes = f.geometry.numPlanes := (List.length_map _).trans hcoords
  rw [heq, residual?_attach f ray hsized hplane, residual?_blank hresiduals hplane]
  rfl

/-- Where no plane was hit twice, each hit of a fitted track has a residual of its own. -/
theorem residual?_fit_of_nodup (hcoords : t.coords.length = f.geometry.numPlanes)
    (hresiduals : t.residuals.length = f.geometry.numPlanes)
    (hnodup : (t.hits.map (·.plane)).Nodup) {hit : Hit α} (hhit : hit ∈ t.hits) {plane : Plane α}
    (hplane : f.geometry.plane? hit.plane = some plane) :
    ∃ coord, (f.fit t).coord? hit.plane = some coord ∧
      (f.fit t).residual? hit.plane = some (hit.coord - coord) := by
  refine ⟨_, coord?_fit hfitted hcoords hplane, ?_⟩
  rw [residual?_fit hfitted hcoords hresiduals hplane, lastOn?_of_nodup hnodup hhit]
  rfl

end Fitted

end Fitter

end DriftChamber
