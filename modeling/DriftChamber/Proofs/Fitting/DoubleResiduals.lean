/-
# Double residuals

Double residuals confront each of two tracks with the hits of the other.  They are worked out for
exactly two tracks, both fitted, the first of which starts in chamber 1 and the second in chamber 2
(`Fitter.isSome_doubleResiduals?_iff`).  What a track then receives (`Fitter.Confronts`) is, on
every plane that the other one hit, the coordinate of the last such hit less the one that its own
ray foretells there.  All else stays, and for other lists of tracks everything stays
(`Fitter.doubleResiduals_exchange`).
-/
import DriftChamber.Proofs.Fitting.Refit
import DriftChamber.Proofs.Fitting.Residuals

namespace DriftChamber

variable {α : Type} [Scalar α]

/-! ## Two tracks in two chambers -/

/-- The first hit of a track lies on a plane of the chamber. -/
def Track.StartsIn (g : Geometry α) (chamber : Nat) (t : Track α) : Prop :=
  ∃ hit rest, t.hits = hit :: rest ∧ g.chamberOf? hit.plane = some chamber

namespace Fitter

theorem firstChamber?_eq_some_iff {f : Fitter α} {t : Track α} {chamber : Nat} :
    f.firstChamber? t = some chamber ↔ t.StartsIn f.geometry chamber := by
  unfold firstChamber? Track.StartsIn
  cases t.hits <;> simp

/-- There are double residuals exactly of two fitted tracks that start in the chambers 1 and 2. -/
theorem isSome_doubleResiduals?_iff {f : Fitter α} {tracks : List (Track α)} :
    (f.doubleResiduals? tracks).isSome = true ↔ ∃ first second, tracks = [first, second] ∧
      f.firstChamber? first = some 1 ∧ f.firstChamber? second = some 2 ∧
      first.isFitted = true ∧ second.isFitted = true := by
  constructor
  · intro h
    obtain ⟨confronted, hconfronted⟩ := Option.isSome_iff_exists.mp h
    obtain ⟨first, second, rfl, hfirst, hsecond, -⟩ := doubleResiduals?_eq_some hconfronted
    refine ⟨first, second, rfl, ?_⟩
    by_cases hchambers : f.firstChamber? first = some 1 ∧ f.firstChamber? second = some 2
    · exact ⟨hchambers.1, hchambers.2, hfirst, hsecond⟩
    · rw [doubleResiduals?, if_neg hchambers] at hconfronted
      cases hconfronted
  · rintro ⟨first, second, rfl, hone, htwo, hfirst, hsecond⟩
    rw [doubleResiduals?, if_pos ⟨hone, htwo⟩, Track.fittedRay?, Track.fittedRay?,
      if_pos hfirst, if_pos hsecond]
    rfl

/-! ## One track against the hits of the other -/

/-- What becomes of a track that is confronted with the hits of another one. -/
structure Confronts (f : Fitter α) (hits : List (Hit α)) (t t' : Track α) : Prop where
  /-- Nothing but the double residuals changes. -/
  eq_with : t' = { t with doubleResiduals := t'.doubleResiduals }
  /-- There are as many of them as before. -/
  length_eq : t'.doubleResiduals.length = t.doubleResiduals.length
  /-- On a plane that was hit, the last hit counts, against the ray of the track. -/
  doubleResidual?_of_hit : ∀ p plane hit, f.geometry.plane? p = some plane →
    lastOn? hits p = some hit → 1 ≤ p → p ≤ t.doubleResiduals.length →
      t'.doubleResidual? p = some (hit.coord - plane.project t.ray)
  /-- A plane that was not hit, or that the detector does not have, keeps its value. -/
  doubleResidual?_of_not : ∀ p, lastOn? hits p = none ∨ f.geometry.plane? p = none →
    t'.doubleResidual? p = t.doubleResidual? p

/-- The double residual on a plane, from the last hit on it. -/
theorem doubleResidual?_confront (f : Fitter α) (t : Track α) (ray : Ray α) (hits : List (Hit α))
    (p : Nat) :
    (f.confront t ray hits).doubleResidual? p = (t.doubleResidual? p).map fun old =>
      ((f.geometry.plane? p).bind fun plane =>
        (lastOn? hits p).map fun hit => hit.coord - plane.project ray).getD old :=
  valueOn?_foldl_setOn f.geometry (fun plane hit => hit.coord - plane.project ray) p hits
    t.doubleResiduals

/-- A track is confronted along its own ray. -/
theorem confronts_confront (f : Fitter α) (t : Track α) (hits : List (Hit α)) :
    f.Confronts hits t (f.confront t t.ray hits) := by
  refine ⟨rfl, (f.alike_confront t t.ray hits).length_doubleResiduals, ?_, ?_⟩
  · intro p plane hit hplane hlast hpos hle
    -- the plane is in range, so there is a value to replace
    obtain ⟨old, hold⟩ : ∃ old, t.doubleResidual? p = some old := by
      obtain ⟨index, rfl⟩ := Nat.exists_eq_add_of_le' hpos
      exact ⟨_, List.getElem?_eq_getElem hle⟩
    rw [doubleResidual?_confront, hold, hplane, hlast]
    rfl
  · intro p hnot
    rw [doubleResidual?_confront]
    rcases hnot with hnone | hnone
    · rw [hnone]
      cases t.doubleResidual? p <;> cases f.geometry.plane? p <;> rfl
    · rw [hnone]
      cases t.doubleResidual? p <;> rfl

/-! ## The exchange -/

/-- Double residuals are an exchange or nothing.  They are worked out if and only if there are
exactly two tracks, the first hit of the one lies in chamber 1, that of the other in chamber 2, and
both are fitted.  Where they are not, the tracks stay as they are.  Where they are, each track is
confronted with the hits of the other, along its own ray. -/
theorem doubleResiduals_exchange (f : Fitter α) (tracks : List (Track α)) :
    ((f.doubleResiduals? tracks).isSome = true ↔ ∃ first second, tracks = [first, second] ∧
        first.StartsIn f.geometry 1 ∧ second.StartsIn f.geometry 2 ∧
        first.status = .fitted ∧ second.status = .fitted) ∧
      ((f.doubleResiduals? tracks).isSome = false →
        (f.doubleResiduals? tracks).getD tracks = tracks) ∧
      ((f.doubleResiduals? tracks).isSome = true → ∃ first second first' second',
        tracks = [first, second] ∧
          (f.doubleResiduals? tracks).getD tracks = [first', second'] ∧
          f.Confronts second.hits first first' ∧ f.Confronts first.hits second second') := by
  refine ⟨?_, ?_, ?_⟩
  · rw [isSome_doubleResiduals?_iff]
    simp only [firstChamber?_eq_some_iff, Track.isFitted, beq_iff_eq]
  · intro hnone
    rw [Option.isSome_eq_false_iff, Option.isNone_iff_eq_none] at hnone
    rw [hnone, Option.getD_none]
  · intro hsome
    obtain ⟨confronted, hconfronted⟩ := Option.isSome_iff_exists.mp hsome
    obtain ⟨first, second, htracks, -, -, rfl⟩ := doubleResiduals?_eq_some hconfronted
    refine ⟨first, second, _, _, htracks, ?_, f.confronts_confront first second.hits,
      f.confronts_confront second first.hits⟩
    rw [hconfronted, Option.getD_some]

/-- The tracks over one chamber each are confronted.  The first one then has a double residual on
plane 10, which the second one hit, and still none on plane 1, which only itself hit. -/
theorem doubleResiduals_exchange_chamberTracks :
    (small.doubleResiduals? (chamberTracks.map small.fit)).isSome = true ∧
      ∃ first second first' second', chamberTracks.map small.fit = [first, second] ∧
        (small.doubleResiduals? (chamberTracks.map small.fit)).getD
          (chamberTracks.map small.fit) = [first', second'] ∧
        first'.doubleResidual? 1 = some Track.residualUnset ∧
        ∃ plane, twoChambers.plane? 10 = some plane ∧
          first'.doubleResidual? 10 = some (2 - plane.project first.ray) := by
  have hsome : (small.doubleResiduals? (chamberTracks.map small.fit)).isSome = true := by
    decide +kernel
  obtain ⟨first, second, first', second', htracks, hexchange, hfirst, -⟩ :=
    (doubleResiduals_exchange small (chamberTracks.map small.fit)).2.2 hsome
  refine ⟨hsome, first, second, first', second', htracks, hexchange, ?_, _, rfl, ?_⟩
  all_goals
    cases htracks
    rw [(small.alike_fit _).hits_eq] at hfirst
  · rw [hfirst.doubleResidual?_of_not 1 (Or.inl rfl)]
    decide +kernel
  · apply hfirst.doubleResidual?_of_hit 10 _ ⟨10, 1, 2⟩ rfl rfl (by decide)
    rw [(small.alike_fit _).length_doubleResiduals]
    decide

end Fitter

end DriftChamber
