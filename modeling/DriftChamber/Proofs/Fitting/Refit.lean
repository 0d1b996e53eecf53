/-
# Fitting a track again

A fit goes by the members, the hits and the lengths of the lists of a track, and by nothing else
that the track may show (`Fitter.fit_congr`).  Whatever was on it before, from an earlier fit or
from double residuals, is forgotten.  So to fit twice is to fit once (`Fitter.fit_fit`), and a fit
after double residuals gives the tracks that were there before them
(`Fitter.map_fit_doubleResiduals?`).

The result is all or nothing (`Fitter.FitsTo`): either the ray of the hits is on the track, or the
fit has left nothing but the reason why there is none.
-/
import DriftChamber.Proofs.Fitting.Solution

namespace DriftChamber

variable {α : Type} [Scalar α]

/-! ## What a fit goes by -/

/-- Tracks that are alike start a fit from the same blank track. -/
theorem Track.Alike.blank_eq {t t' : Track α} (h : t.Alike t') : t'.blank = t.blank := by
  unfold blank reset
  simp only [List.map_const', h.spacePoints_eq, h.hits_eq, h.length_coords, h.length_residuals,
    h.length_doubleResiduals]

namespace Fitter

/-- Tracks that are alike fit alike, whatever they show. -/
theorem fit_congr (f : Fitter α) {t t' : Track α} (h : t.Alike t') : f.fit t' = f.fit t := by
  have hblank := h.blank_eq
  unfold Track.blank at hblank
  -- the blank track and the hits are all that a fit looks at
  unfold fit
  rw [hblank, h.hits_eq]

/-- To fit twice is to fit once. -/
theorem fit_fit (f : Fitter α) (t : Track α) : f.fit (f.fit t) = f.fit t :=
  f.fit_congr (f.alike_fit t)

/-- A fit forgets double residuals. -/
theorem map_fit_doubleResiduals? (f : Fitter α) (tracks : List (Track α)) :
    ((f.doubleResiduals? tracks).getD tracks).map f.fit = tracks.map f.fit := by
  cases hdouble : f.doubleResiduals? tracks with
  | none => rfl
  | some confronted =>
      obtain ⟨first, second, rfl, -, -, rfl⟩ := doubleResiduals?_eq_some hdouble
      have hfirst := f.fit_congr (f.alike_confront first first.ray second.hits)
      have hsecond := f.fit_congr (f.alike_confront second second.ray first.hits)
      simp only [Option.getD_some, List.map_cons, List.map_nil, hfirst, hsecond]

end Fitter

/-! ## All or nothing -/

/-- A track without results: the vector, the coordinates, the residuals and the chi-square are at
their marks. -/
structure Track.IsBare (t : Track α) : Prop where
  /-- All slots of the vector are zero. -/
  vector_eq : t.vector = Vector.replicate 5 0
  /-- All coordinates are zero. -/
  coords_eq : ∀ u ∈ t.coords, u = 0
  /-- No plane has a residual. -/
  residuals_eq : ∀ r ∈ t.residuals, r = Track.residualUnset
  /-- The chi-square is that of an unfitted track. -/
  chiSquare_eq : t.chiSquare = Track.chiSquareUnfit

/-- What a fit makes of a track with fewer than `2 ^ 31` hits. -/
structure Fitter.FitsTo (f : Fitter α) (t t' : Track α) : Prop where
  /-- Members, hits and the lengths of the lists stay. -/
  alike : t.Alike t'
  /-- The degrees of freedom are hits less ray parameters. -/
  nfree_eq : t'.nfree.toInt = (t.hits.length : Int) - 4
  /-- Up to four hits are too few, and more are not. -/
  underconstrained_iff : t'.status = .underconstrained ↔ t.hits.length ≤ 4
  /-- With more hits, the first one on a plane that does not exist is reported. -/
  unknownPlane_of_first : 4 < t.hits.length → ∀ hit, f.firstUnknown? t.hits = some hit →
    t'.status = .unknownPlane hit.plane
  /-- If all planes exist, it hangs on the ray of the hits. -/
  singular_or_fitted : 4 < t.hits.length → f.firstUnknown? t.hits = none →
    f.solve t.hits = .error .singular ∧ t'.status = .singular ∨
      ∃ ray, f.solve t.hits = .ok ray ∧ t'.status = .fitted
  /-- No double residual is left. -/
  doubleResiduals_eq : ∀ r ∈ t'.doubleResiduals, r = Track.residualUnset
  /-- A fit that fails leaves no result. -/
  isBare_of_unfit : t'.status ≠ .fitted → t'.IsBare
  /-- A fit that succeeds has the ray of the hits. -/
  vector_of_fitted : t'.status = .fitted →
    ∃ ray, f.solve t.hits = .ok ray ∧ t'.vector = #v[ray.x, ray.y, 0, ray.xp, ray.yp]

namespace Fitter

/-- The blank track with a status has no results. -/
theorem isBare_blank (t : Track α) (status : FitStatus) :
    ({ t.blank with status := status } : Track α).IsBare := by
  refine ⟨rfl, ?_, ?_, rfl⟩
  · intro u hu
    obtain ⟨old, -, rfl⟩ := List.mem_map.mp hu
    rfl
  · intro r hr
    obtain ⟨old, -, rfl⟩ := List.mem_map.mp hr
    rfl

/-- A fit that fails leaves the blank track but for the status. -/
theorem isBare_fit {f : Fitter α} {t : Track α} (h : (f.fit t).status ≠ .fitted) :
    (f.fit t).IsBare := by
  rcases f.fit_cases t with ⟨-, heq⟩ | ⟨-, e, -, heq⟩ | ⟨-, ray, -, heq⟩
  · rw [heq]
    exact isBare_blank t .underconstrained
  · rw [heq]
    exact isBare_blank t e.status
  · rw [heq] at h
    exact absurd rfl h

/-- Every fit wipes the double residuals. -/
theorem doubleResiduals_fit (f : Fitter α) (t : Track α) :
    ∀ r ∈ (f.fit t).doubleResiduals, r = Track.residualUnset := by
  have hblank : (f.fit t).doubleResiduals = t.doubleResiduals.map fun _ => Track.residualUnset := by
    rcases f.fit_cases t with ⟨-, heq⟩ | ⟨-, e, -, heq⟩ | ⟨-, ray, -, heq⟩ <;> rw [heq] <;> rfl
  intro r hr
  rw [hblank] at hr
  obtain ⟨old, -, rfl⟩ := List.mem_map.mp hr
  rfl

section Status

variable (f : Fitter α) {t : Track α} (hmany : 4 < t.hits.length)
  (hsmall : t.hits.length < 2 ^ 31)
include hmany hsmall

/-- With five hits, the first one on a plane that does not exist is reported. -/
theorem status_fit_of_firstUnknown? {hit : Hit α} (h : f.firstUnknown? t.hits = some hit) :
    (f.fit t).status = .unknownPlane hit.plane :=
  status_fit_of_error (degreesOfFreedom_pos hmany hsmall)
    (solve_of_firstUnknown? (Nat.le_of_lt hmany) h)

/-- With five hits on planes that exist, a fit succeeds if they have a ray. -/
theorem status_fit_of_no_unknown (h : f.firstUnknown? t.hits = none) :
    f.solve t.hits = .error .singular ∧ (f.fit t).status = .singular ∨
      ∃ ray, f.solve t.hits = .ok ray ∧ (f.fit t).status = .fitted := by
  have hfree : ¬degreesOfFreedom t.hits.length ≤ 0 := degreesOfFreedom_pos hmany hsmall
  rcases solve_of_known (Nat.le_of_lt hmany) (firstUnknown?_eq_none_iff.mp h) with
    hsolve | ⟨ray, hsolve⟩
  · left
    exact ⟨hsolve, status_fit_of_error hfree hsolve⟩
  · right
    exact ⟨ray, hsolve, by simpa [Track.isFitted] using isFitted_fit hfree hsolve⟩

/-- In particular, a fit to five hits does not find them too few. -/
theorem status_fit_ne_underconstrained : (f.fit t).status ≠ .underconstrained := by
  cases hfirst : f.firstUnknown? t.hits with
  | some hit =>
      rw [f.status_fit_of_firstUnknown? hmany hsmall hfirst]
      simp
  | none =>
      rcases f.status_fit_of_no_unknown hmany hsmall hfirst with ⟨-, hstatus⟩ | ⟨ray, -, hstatus⟩
      · simp [hstatus]
      · simp [hstatus]

end Status

/-- What a fit makes of a track. -/
theorem fitsTo_fit (f : Fitter α) {t : Track α} (hsmall : t.hits.length < 2 ^ 31) :
    f.FitsTo t (f.fit t) := by
  refine ⟨f.alike_fit t, ?_, ?_, ?_, ?_, f.doubleResiduals_fit t, isBare_fit, ?_⟩
  · rw [nfree_fit]
    exact toInt_degreesOfFreedom hsmall
  · constructor
    · intro hstatus
      by_contra hmany
      exact f.status_fit_ne_underconstrained (Nat.lt_of_not_le hmany) hsmall hstatus
    · exact status_fit_of_few f
  · intro hmany hit hfirst
    exact f.status_fit_of_firstUnknown? hmany hsmall hfirst
  · intro hmany hfirst
    exact f.status_fit_of_no_unknown hmany hsmall hfirst
  · intro hstatus
    have hfitted : (f.fit t).isFitted = true := by rw [Track.isFitted, hstatus]; rfl
    obtain ⟨ray, hsolve, heq⟩ := exists_ray_of_isFitted hfitted
    exact ⟨ray, hsolve, by rw [heq]; rfl⟩

/-- A fit is all or nothing, and it forgets the past.  Whatever a track shows before, the fit keeps
its members, hits and list lengths and puts everything else anew: the status that its hits call for,
the ray of the hits if they have one, and otherwise no result at all.  It goes by members, hits and
list lengths only.  So fitting twice is fitting once, and a fit after double residuals brings back
the tracks as they were freshly fitted. -/
theorem fit_all_or_nothing (f : Fitter α) (t : Track α) (hsmall : t.hits.length < 2 ^ 31) :
    f.FitsTo t (f.fit t) ∧ (∀ t', t.Alike t' → f.fit t' = f.fit t) ∧
      f.fit (f.fit t) = f.fit t ∧
      ∀ tracks : List (Track α),
        ((f.doubleResiduals? (tracks.map f.fit)).getD (tracks.map f.fit)).map f.fit =
          tracks.map f.fit := by
  refine ⟨f.fitsTo_fit hsmall, ?_, f.fit_fit t, ?_⟩
  · intro t' halike
    exact f.fit_congr halike
  · intro tracks
    rw [map_fit_doubleResiduals?, List.map_map]
    exact List.map_congr_left fun u _ => f.fit_fit u

/-- A track with results of all kinds, lists of odd lengths, and two hits on planes that the small
detector does not have. -/
def worn : Track Rat where
  spacePoints := [3, 1]
  hits := parallelHits ++ [⟨12, 1, 0⟩, ⟨11, 1, 0⟩]
  vector := #v[1, 2, 3, 4, 5]
  coords := [7]
  residuals := [8, 9]
  doubleResiduals := [10, 11, 12]
  nfree := 5
  chiSquare := 13
  status := .fitted

/-- Tracks over the planes of one chamber each. -/
def chamberTracks : List (Track Rat) :=
  [{ Track.empty 10 with
      hits := [⟨1, 1, 1⟩, ⟨2, 1, 2⟩, ⟨3, 1, 3⟩, ⟨4, 1, 1⟩, ⟨5, 1, 2⟩] },
    { Track.empty 10 with
      hits := [⟨6, 1, 1⟩, ⟨7, 1, 2⟩, ⟨8, 1, 2⟩, ⟨9, 1, 1⟩, ⟨10, 1, 2⟩] }]

/-- Nothing of the worn track outlives a fit, which reports the first of the unknown planes, and
the double residuals of two tracks are gone after another fit. -/
theorem fit_all_or_nothing_worn :
    worn.hits.length < 2 ^ 31 ∧ (small.fit worn).status = .unknownPlane 12 ∧
      (small.fit worn).IsBare ∧ small.fit (small.fit worn) = small.fit worn ∧
      (small.doubleResiduals? (chamberTracks.map small.fit)).isSome = true ∧
      ((small.doubleResiduals? (chamberTracks.map small.fit)).getD
        (chamberTracks.map small.fit)).map small.fit = chamberTracks.map small.fit := by
  have hsmall : worn.hits.length < 2 ^ 31 := by decide
  obtain ⟨hfits, -, hagain, hrefit⟩ := fit_all_or_nothing small worn hsmall
  have hstatus : (small.fit worn).status = .unknownPlane 12 :=
    hfits.unknownPlane_of_first (by decide) ⟨12, 1, 0⟩ (by decide)
  refine ⟨hsmall, hstatus, hfits.isBare_of_unfit ?_, hagain, ?_, hrefit chamberTracks⟩
  · rw [hstatus]
    decide
  · decide +kernel

end Fitter

end DriftChamber
