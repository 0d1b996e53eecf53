/-
# The bound on the tracks of an event

The bound does not shape the tracks of an event.  It decides between all tracks that linking finds
without a bound and none of them (`link_of_bound_le`): where one bound lets an event pass, every
larger one gives the same tracks and the same diagnostics, and an event that passes a larger bound
fails a smaller one exactly if it has more tracks than that.
-/
import DriftChamber.Proofs.Linking.Growth

namespace DriftChamber

variable {α : Type} [Scalar α]

/-- What linking finds without a bound is the same for parameters that differ in the bound. -/
theorem unbounded_ofTracking_congr (t t' : Tracking α) (numPlanes : Nat)
    (hcriteria : t'.criteria = t.criteria) (hmode : t'.singleStub = t.singleStub)
    (points : List (SpacePoint α)) (d : Diagnostics α) :
    (Linker.ofTracking t' numPlanes).unbounded points d =
      (Linker.ofTracking t numPlanes).unbounded points d := by
  rw [Linker.unbounded, Linker.unbounded, Linker.ofTracking, Linker.ofTracking, hcriteria, hmode]

namespace Linker

variable {l : Linker α} {points : List (SpacePoint α)} {d : Diagnostics α}

/-- An event has tracks if what linking finds without a bound is within the bound, and the tracks
are all of it. -/
theorem tracks_link_eq_ok_iff {tracks : List (Track α)} :
    (l.link points d).tracks = .ok tracks ↔
      (l.unbounded points d).1.length ≤ l.maxTracks ∧
        tracks = (l.unbounded points d).1.map (Candidate.toTrack l.numPlanes) := by
  rw [tracks_link]
  by_cases hfull : l.maxTracks < (l.unbounded points d).1.length
  · rw [if_pos hfull]
    exact iff_of_false (by simp) fun h => Nat.not_lt.mpr h.1 hfull
  · rw [if_neg hfull, Except.ok.injEq]
    exact ⟨fun h => ⟨Nat.le_of_not_lt hfull, h.symm⟩, fun h => h.2.symm⟩

/-- An event fails if what linking finds without a bound exceeds the bound. -/
theorem tracks_link_eq_error_iff {e : LinkError} :
    (l.link points d).tracks = .error e ↔
      l.maxTracks < (l.unbounded points d).1.length ∧ e = .tooManyTracks l.maxTracks := by
  rw [tracks_link]
  by_cases hfull : l.maxTracks < (l.unbounded points d).1.length
  · rw [if_pos hfull, Except.error.injEq]
    exact ⟨fun h => ⟨hfull, h.symm⟩, fun h => h.2.symm⟩
  · rw [if_neg hfull]
    exact iff_of_false (by simp) fun h => hfull h.1

end Linker

/-- The bound decides between everything and nothing.  Of two linkers that differ in the bound
only, the one with the larger bound gives all that the other one gives; where it gives tracks, the
other one fails exactly if they exceed its own bound; and where it fails, so does the other. -/
theorem link_of_bound_le (t t' : Tracking α) (numPlanes : Nat)
    (hsame : t' = { t with maxTracks := t'.maxTracks })
    (hle : t.effectiveMaxTracks ≤ t'.effectiveMaxTracks)
    (points : List (SpacePoint α)) (d : Diagnostics α) :
    (∀ tracks, ((Linker.ofTracking t numPlanes).link points d).tracks = .ok tracks →
      ((Linker.ofTracking t' numPlanes).link points d).tracks = .ok tracks ∧
        ((Linker.ofTracking t' numPlanes).link points d).diagnostics =
          ((Linker.ofTracking t numPlanes).link points d).diagnostics ∧
        tracks.length ≤ t.effectiveMaxTracks) ∧
      (∀ tracks', ((Linker.ofTracking t' numPlanes).link points d).tracks = .ok tracks' →
        (((Linker.ofTracking t numPlanes).link points d).tracks =
            .error (.tooManyTracks t.effectiveMaxTracks) ↔
          t.effectiveMaxTracks < tracks'.length)) ∧
      ∀ e', ((Linker.ofTracking t' numPlanes).link points d).tracks = .error e' →
        ((Linker.ofTracking t numPlanes).link points d).tracks =
          .error (.tooManyTracks t.effectiveMaxTracks) := by
  have hcriteria : t'.criteria = t.criteria := by rw [hsame]
  have hmode : t'.singleStub = t.singleStub := by rw [hsame]
  have hfree := unbounded_ofTracking_congr t t' numPlanes hcriteria hmode points d
  have hmax : (Linker.ofTracking t numPlanes).maxTracks = t.effectiveMaxTracks := rfl
  have hmax' : (Linker.ofTracking t' numPlanes).maxTracks = t'.effectiveMaxTracks := rfl
  have hplanes : (Linker.ofTracking t' numPlanes).numPlanes =
      (Linker.ofTracking t numPlanes).numPlanes := rfl
  refine ⟨fun tracks htracks => ?_, fun tracks' htracks' => ?_, fun e' herror => ?_⟩
  · obtain ⟨hfits, rfl⟩ := Linker.tracks_link_eq_ok_iff.mp htracks
    rw [hmax] at hfits
    have hfits' : ((Linker.ofTracking t' numPlanes).unbounded points d).1.length ≤
        (Linker.ofTracking t' numPlanes).maxTracks := by
      rw [hfree, hmax']
      exact Nat.le_trans hfits hle
    refine ⟨Linker.tracks_link_eq_ok_iff.mpr ⟨hfits', ?_⟩, ?_, ?_⟩
    · rw [hfree, hplanes]
    · rw [Linker.diagnostics_link _ points d hfits', Linker.diagnostics_link _ points d hfits,
        hfree]
    · rwa [List.length_map]
  · obtain ⟨-, rfl⟩ := Linker.tracks_link_eq_ok_iff.mp htracks'
    rw [Linker.tracks_link_eq_error_iff, List.length_map, hfree, hmax]
    exact and_iff_left rfl
  · obtain ⟨hfull, -⟩ := Linker.tracks_link_eq_error_iff.mp herror
    rw [hfree, hmax'] at hfull
    exact Linker.tracks_link_eq_error_iff.mpr ⟨Nat.lt_of_le_of_lt hle hfull, rfl⟩

/-- Room for two tracks is too little for the crowded event, which has four under the usual
bound. -/
theorem link_crowded_of_two :
    ((Linker.ofTracking { Tracking.standard with maxTracks := 2 } 12).link crowded
        Diagnostics.none).tracks = .error (.tooManyTracks 2) ∧
      (((Linker.ofTracking { Tracking.standard with maxTracks := 0 } 12).link crowded
        Diagnostics.none).tracks.toOption.map List.length) = some 4 := by
  have hbounds := link_of_bound_le { Tracking.standard with maxTracks := 2 }
    { Tracking.standard with maxTracks := 0 } 12 rfl (by decide) crowded Diagnostics.none
  refine ⟨?_, by decide⟩
  cases hrun : ((Linker.ofTracking { Tracking.standard with maxTracks := 0 } 12).link crowded
      Diagnostics.none).tracks with
  | error e => exact hbounds.2.2 e hrun
  | ok tracks =>
      have hfour : tracks.length = 4 := by
        have hcount : (((Linker.ofTracking { Tracking.standard with maxTracks := 0 } 12).link
            crowded Diagnostics.none).tracks.toOption.map List.length) = some 4 := by decide
        rw [hrun] at hcount
        exact Option.some.inj hcount
      exact (hbounds.2.1 tracks hrun).mpr (by rw [hfour]; decide)

end DriftChamber
