/-
# What a fit leaves of a track

A fit has three endings (`Fitter.fit_cases`): there is no degree of freedom to spare, the hits give
no ray, or the track is filled in from their ray.  Whatever the ending, the members and hits of the
track and the lengths of its lists stay as they were (`Fitter.alike_fit`), and the track is fit to
be read (`Fitter.processed_fit`).  Double residuals change nothing else (`Fitter.alike_confront`,
`Fitter.processed_confront`).
-/
import Mathlib
import DriftChamber.Fit

namespace DriftChamber

variable {α : Type}

/-! ## Degrees of freedom -/

namespace Fitter

/-- Below `2 ^ 31` hits the degrees of freedom are hits less ray parameters. -/
theorem toInt_degreesOfFreedom {hits : Nat} (h : hits < 2 ^ 31) :
    (degreesOfFreedom hits).toInt = (hits : Int) - 4 := by
  have hfour : (4 : Int32).toInt = 4 := rfl
  unfold degreesOfFreedom
  rw [Int32.toInt_sub, Int32.toInt_ofNat_of_lt h, hfour]
  exact Int.bmod_eq_of_le (by omega) (by omega)

/-- Up to four hits leave no degree of freedom. -/
theorem degreesOfFreedom_nonpos {hits : Nat} (h : hits ≤ 4) : degreesOfFreedom hits ≤ 0 := by
  have hsmall : hits < 2 ^ 31 := by omega
  rw [Int32.le_iff_toInt_le, toInt_degreesOfFreedom hsmall]
  show (hits : Int) - 4 ≤ 0
  omega

/-- From five hits on there is a degree of freedom. -/
theorem degreesOfFreedom_pos {hits : Nat} (hfive : 5 ≤ hits) (h : hits < 2 ^ 31) :
    ¬degreesOfFreedom hits ≤ 0 := by
  rw [Int32.le_iff_toInt_le, toInt_degreesOfFreedom h]
  show ¬(hits : Int) - 4 ≤ 0
  omega

end Fitter

/-! ## Lists of values -/

/-- A loop whose steps keep the number of values keeps it. -/
theorem length_foldl {β : Type} {step : List α → β → List α}
    (hstep : ∀ values b, (step values b).length = values.length) (bs : List β)
    (values : List α) : (bs.foldl step values).length = values.length := by
  induction bs generalizing values with
  | nil => rfl
  | cons b rest ih => rw [List.foldl_cons, ih, hstep]

variable [Scalar α]

/-! ## Fitting -/

/-- The track as a fit starts from it: without earlier results, and with its degrees of freedom. -/
def Track.blank (t : Track α) : Track α :=
  { t.reset with nfree := Fitter.degreesOfFreedom t.hits.length }

namespace Fitter

/-- The three endings of a fit. -/
theorem fit_cases (f : Fitter α) (t : Track α) :
    (degreesOfFreedom t.hits.length ≤ 0 ∧
        f.fit t = { t.blank with status := .underconstrained }) ∨
      (¬degreesOfFreedom t.hits.length ≤ 0 ∧ ∃ e, f.solve t.hits = .error e ∧
        f.fit t = { t.blank with status := e.status }) ∨
      (¬degreesOfFreedom t.hits.length ≤ 0 ∧ ∃ ray, f.solve t.hits = .ok ray ∧
        f.fit t = f.attach t.blank ray) := by
  unfold fit
  show (_ ∧ (if degreesOfFreedom t.hits.length ≤ 0 then _ else _) = _) ∨ _
  by_cases hfree : degreesOfFreedom t.hits.length ≤ 0
  · exact Or.inl ⟨hfree, if_pos hfree⟩
  · right
    cases hsolve : f.solve t.hits with
    | error e => exact Or.inl ⟨hfree, e, rfl, if_neg hfree⟩
    | ok ray => exact Or.inr ⟨hfree, ray, rfl, if_neg hfree⟩

/-- The degrees of freedom are counted whatever comes of the fit. -/
theorem nfree_fit (f : Fitter α) (t : Track α) :
    (f.fit t).nfree = degreesOfFreedom t.hits.length := by
  rcases fit_cases f t with ⟨-, heq⟩ | ⟨-, e, -, heq⟩ | ⟨-, ray, -, heq⟩ <;> rw [heq] <;> rfl

/-- A fit succeeds with the ray of the hits only, and fills the track in from it. -/
theorem exists_ray_of_isFitted {f : Fitter α} {t : Track α} (h : (f.fit t).isFitted = true) :
    ∃ ray, f.solve t.hits = .ok ray ∧ f.fit t = f.attach t.blank ray := by
  rcases fit_cases f t with ⟨-, heq⟩ | ⟨-, e, -, heq⟩ | ⟨-, ray, hsolve, heq⟩
  · rw [heq] at h
    cases h
  · rw [heq] at h
    cases e <;> cases h
  · exact ⟨ray, hsolve, heq⟩

/-- A fit that succeeds leaves a degree of freedom, whatever 32 bits make of the number of hits. -/
theorem nfree_pos_of_isFitted {f : Fitter α} {t : Track α} (h : (f.fit t).isFitted = true) :
    0 < (f.fit t).nfree := by
  rcases f.fit_cases t with ⟨-, heq⟩ | ⟨-, e, -, heq⟩ | ⟨hfree, ray, -, heq⟩
  · rw [heq] at h
    cases h
  · rw [heq] at h
    cases e <;> cases h
  · rw [heq]
    exact Int32.not_le.mp hfree

/-- Where hits have a ray and leave a degree of freedom, the fit succeeds. -/
theorem isFitted_fit {f : Fitter α} {t : Track α} {ray : Ray α}
    (hfree : ¬degreesOfFreedom t.hits.length ≤ 0) (hsolve : f.solve t.hits = .ok ray) :
    (f.fit t).isFitted = true := by
  rcases fit_cases f t with ⟨hnone, -⟩ | ⟨-, e, herror, -⟩ | ⟨-, ray', -, heq⟩
  · exact absurd hnone hfree
  · rw [hsolve] at herror
    cases herror
  · rw [heq]
    rfl

/-- Up to four hits are too few. -/
theorem status_fit_of_few (f : Fitter α) {t : Track α} (hfew : t.hits.length ≤ 4) :
    (f.fit t).status = .underconstrained := by
  have hnone := degreesOfFreedom_nonpos hfew
  rcases fit_cases f t with ⟨-, heq⟩ | ⟨hfree, -⟩ | ⟨hfree, -⟩
  · rw [heq]
  · exact absurd hnone hfree
  · exact absurd hnone hfree

/-- Where hits that leave a degree of freedom have no ray, the fit says why. -/
theorem status_fit_of_error {f : Fitter α} {t : Track α} {e : FitError}
    (hfree : ¬degreesOfFreedom t.hits.length ≤ 0) (hsolve : f.solve t.hits = .error e) :
    (f.fit t).status = e.status := by
  rcases fit_cases f t with ⟨hnone, -⟩ | ⟨-, e', herror, heq⟩ | ⟨-, ray, hray, -⟩
  · exact absurd hnone hfree
  · rw [hsolve] at herror
    cases herror
    rw [heq]
  · rw [hsolve] at hray
    cases hray

theorem length_predictions (f : Fitter α) (numPlanes : Nat) (ray : Ray α) :
    (f.predictions numPlanes ray).length = numPlanes := by
  unfold predictions
  rw [List.length_map, List.length_range]

end Fitter

/-! ## What stays -/

/-- Two tracks with the same members and hits, and with lists of the same lengths. -/
structure Track.Alike (t t' : Track α) : Prop where
  /-- The members are the same. -/
  spacePoints_eq : t'.spacePoints = t.spacePoints
  /-- The hits are the same. -/
  hits_eq : t'.hits = t.hits
  /-- There are as many coordinates. -/
  length_coords : t'.coords.length = t.coords.length
  /-- There are as many residuals. -/
  length_residuals : t'.residuals.length = t.residuals.length
  /-- There are as many double residuals. -/
  length_doubleResiduals : t'.doubleResiduals.length = t.doubleResiduals.length

namespace Fitter

theorem alike_blank (t : Track α) : t.Alike t.blank :=
  ⟨rfl, rfl, List.length_map _, List.length_map _, List.length_map _⟩

/-- A fit keeps the members, the hits and the lengths of the lists. -/
theorem alike_fit (f : Fitter α) (t : Track α) : t.Alike (f.fit t) := by
  have hblank := alike_blank t
  rcases fit_cases f t with ⟨-, heq⟩ | ⟨-, e, -, heq⟩ | ⟨-, ray, -, heq⟩
  · rw [heq]
    exact ⟨rfl, rfl, hblank.length_coords, hblank.length_residuals,
      hblank.length_doubleResiduals⟩
  · rw [heq]
    exact ⟨rfl, rfl, hblank.length_coords, hblank.length_residuals,
      hblank.length_doubleResiduals⟩
  · rw [heq]
    refine ⟨rfl, rfl, ?_, ?_, hblank.length_doubleResiduals⟩
    · exact (length_predictions f _ ray).trans hblank.length_coords
    · exact (length_foldl (fun _ _ => length_setOn _ _ _) _ _).trans hblank.length_residuals

/-- So does working out double residuals. -/
theorem alike_confront (f : Fitter α) (t : Track α) (ray : Ray α) (hits : List (Hit α)) :
    t.Alike (f.confront t ray hits) := by
  refine ⟨rfl, rfl, rfl, rfl, length_foldl (fun values hit => ?_) hits t.doubleResiduals⟩
  split
  · exact length_setOn _ _ _
  · rfl

end Fitter

/-! ## Tracks that were fitted -/

/-- A track has a chi-square per degree of freedom exactly if it has a ray. -/
theorem Track.isSome_reducedChiSquare? {t : Track α} (h : t.isFitted = true → 0 < t.nfree) :
    t.reducedChiSquare?.isSome = t.isFitted := by
  rw [reducedChiSquare?]
  cases hfitted : t.isFitted with
  | false => rfl
  | true =>
      rw [decide_eq_true (h hfitted)]
      rfl

/-- A track that was fitted, whether with success or not, and that has values for `numPlanes`
planes. -/
structure Track.Processed (numPlanes : Nat) (t : Track α) : Prop where
  /-- Every plane has a coordinate. -/
  length_coords : t.coords.length = numPlanes
  /-- Every plane has a residual. -/
  length_residuals : t.residuals.length = numPlanes
  /-- Every plane has a double residual. -/
  length_doubleResiduals : t.doubleResiduals.length = numPlanes
  /-- The fit came to an end. -/
  status_ne_pending : t.status ≠ .pending
  /-- The degrees of freedom are hits less ray parameters. -/
  nfree_eq : t.hits.length < 2 ^ 31 → t.nfree.toInt = (t.hits.length : Int) - 4
  /-- A fit takes five hits to succeed. -/
  five_le_of_fitted : t.isFitted = true → 5 ≤ t.hits.length

namespace Fitter

theorem status_ne (e : FitError) : e.status ≠ .pending ∧ e.status ≠ .fitted := by
  cases e <;> exact ⟨by simp [FitError.status], by simp [FitError.status]⟩

/-- After a fit a track is processed. -/
theorem processed_fit (f : Fitter α) {t : Track α} {numPlanes : Nat}
    (hcoords : t.coords.length = numPlanes) (hresiduals : t.residuals.length = numPlanes)
    (hdouble : t.doubleResiduals.length = numPlanes) : (f.fit t).Processed numPlanes := by
  have halike := f.alike_fit t
  refine ⟨halike.length_coords.trans hcoords, halike.length_residuals.trans hresiduals,
    halike.length_doubleResiduals.trans hdouble, ?_, ?_, ?_⟩
  · rcases fit_cases f t with ⟨-, heq⟩ | ⟨-, e, -, heq⟩ | ⟨-, ray, -, heq⟩
    · rw [heq]
      simp
    · rw [heq]
      exact (status_ne e).1
    · rw [heq]
      simp [attach]
  · rw [halike.hits_eq, nfree_fit]
    exact toInt_degreesOfFreedom
  · intro hfitted
    rw [halike.hits_eq]
    by_contra hfew
    rw [Track.isFitted, status_fit_of_few f (by omega)] at hfitted
    cases hfitted

/-- Double residuals leave a track processed. -/
theorem processed_confront (f : Fitter α) {t : Track α} {numPlanes : Nat}
    (h : t.Processed numPlanes) (ray : Ray α) (hits : List (Hit α)) :
    (f.confront t ray hits).Processed numPlanes :=
  ⟨h.length_coords, h.length_residuals,
    (f.alike_confront t ray hits).length_doubleResiduals.trans h.length_doubleResiduals,
    h.status_ne_pending, h.nfree_eq, h.five_le_of_fitted⟩

/-- There are double residuals of two fitted tracks only, and working them out changes nothing
else. -/
theorem doubleResiduals?_eq_some {f : Fitter α} {tracks confronted : List (Track α)}
    (h : f.doubleResiduals? tracks = some confronted) :
    ∃ first second, tracks = [first, second] ∧ first.isFitted = true ∧ second.isFitted = true ∧
      confronted = [f.confront first first.ray second.hits,
        f.confront second second.ray first.hits] := by
  unfold doubleResiduals? at h
  split at h
  · next first second =>
      split at h
      · split at h
        · next ray₁ ray₂ h₁ h₂ =>
            unfold Track.fittedRay? at h₁ h₂
            split at h₁
            · next hfirst =>
                split at h₂
                · next hsecond =>
                    cases h₁
                    cases h₂
                    exact ⟨first, second, rfl, hfirst, hsecond, (Option.some.inj h).symm⟩
                · cases h₂
            · cases h₁
        · cases h
      · cases h
  · cases h

end Fitter

/-! ## A small detector -/

/-- Five ideal planes of a chamber, three units of length before and behind its centre at most. -/
def fivePlanes (chamber : Nat) (center : Rat) : List (Plane Rat) :=
  [.ofDirection chamber (1 / 50) (center - 2) 1 0, .ofDirection chamber (1 / 50) (center - 1) 0 1,
    .ofDirection chamber (1 / 25) center (3 / 5) (4 / 5),
    .ofDirection chamber (1 / 50) (center + 1) 1 0, .ofDirection chamber (1 / 50) (center + 2) 0 1]

/-- A detector of two chambers with five planes each. -/
def twoChambers : Geometry Rat where
  planes := fivePlanes 1 (-40) ++ fivePlanes 2 40
  numChambers := 2
  planes_ne_nil := by simp [fivePlanes]
  sound := firstDefect?_eq_none_iff.mp (by decide +kernel)

end DriftChamber
