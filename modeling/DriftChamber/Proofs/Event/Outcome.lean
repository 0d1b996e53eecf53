/-
# What one event yields

Tracking an event ends in one of three ways, and each leaves a coherent result (`process_outcome`):

* linking fails, and the event is aborted without tracks;
* linking finds no candidate, which means that no point accepts another one
  (`unbounded_eq_nil_iff`) or, where every point makes a track, that there is no point;
* else there are tracks, within the bound, and each of them was fitted.
-/
import DriftChamber.Event
import DriftChamber.Proofs.Fitting.Outcome
import DriftChamber.Proofs.Linking.Tracks

namespace DriftChamber

variable {α : Type} [Scalar α]

/-! ## Events without candidates -/

/-- A point without partners has no candidates as a seed. -/
theorem candidatesAt_eq_nil_iff {criteria : Criteria α} {points : List (SpacePoint α)} {s : Nat}
    (hs : s < points.length) :
    candidatesAt criteria points s = [] ↔ ∀ j, accepted criteria points s j = false := by
  have hpartners : (partners criteria points s).Nonempty ↔
      ∃ j, accepted criteria points s j = true :=
    exists_congr fun j => mem_partners_iff
  rw [← List.length_eq_zero_iff, length_candidatesAt hs]
  constructor
  · intro hzero j
    by_contra haccepted
    rw [if_pos (hpartners.mpr ⟨j, by simpa using haccepted⟩)] at hzero
    exact Nat.two_pow_pos _ |>.ne' hzero
  · intro hnone
    rw [if_neg (by simp [hpartners, hnone])]

/-- Linking finds nothing if and only if no point accepts another one.  The first point that accepts
one is a seed, since an earlier seed would have to accept it. -/
theorem unbounded_eq_nil_iff {l : Linker α} (hmode : l.singleStub = false)
    (points : List (SpacePoint α)) (d : Diagnostics α) :
    (l.unbounded points d).1 = [] ↔ ∀ i j, accepted l.criteria points i j = false := by
  rw [unbounded_eq_flatMap hmode, List.flatMap_eq_nil_iff]
  constructor
  · intro hseeds i
    induction i using Nat.strong_induction_on with
    | _ i ih =>
        intro j
        by_contra haccepted
        rw [Bool.not_eq_false] at haccepted
        have hi : i < points.length := by
          have hlt := lt_of_accepted haccepted
          omega
        -- an earlier point accepts none at all, hence not this one
        have hseed : i ∈ seedsOf l.criteria points :=
          mem_seedsOf_iff.mpr ⟨hi, fun s' hlt _ => ih s' hlt i⟩
        have hnone := (candidatesAt_eq_nil_iff hi).mp (hseeds i hseed) j
        rw [haccepted] at hnone
        cases hnone
  · intro hnone s hs
    exact (candidatesAt_eq_nil_iff (lt_length_of_mem_seedsOf hs)).mpr (hnone s)

/-! ## The three endings -/

theorem Candidate.length_toTrack (numPlanes : Nat) (c : Candidate α) :
    (c.toTrack numPlanes).coords.length = numPlanes ∧
      (c.toTrack numPlanes).residuals.length = numPlanes ∧
      (c.toTrack numPlanes).doubleResiduals.length = numPlanes := by
  simp [toTrack, Track.empty]

namespace Tracker

/-- A tracker holds the detector and the parameters that it was made from. -/
theorem eq_of_ofTracking? {geometry : Geometry α} {tracking : Tracking α} {t : Tracker α}
    (h : ofTracking? geometry tracking = .ok t) :
    t.geometry = geometry ∧ t.tracking = tracking := by
  unfold ofTracking? at h
  split at h
  · cases h
  · cases h
    exact ⟨rfl, rfl⟩

/-- The three endings of an event. -/
theorem process_cases (t : Tracker α) (points : List (SpacePoint α)) :
    (t.linker.maxTracks < (t.linker.unbounded points Diagnostics.none).1.length ∧
        t.process points = ⟨[], .aborted t.linker.maxTracks,
          (t.linker.link points Diagnostics.none).diagnostics, false⟩) ∨
      ((t.linker.unbounded points Diagnostics.none).1 = [] ∧
        t.process points = ⟨[], .noCandidates,
          (t.linker.link points Diagnostics.none).diagnostics, false⟩) ∨
      ((t.linker.unbounded points Diagnostics.none).1 ≠ [] ∧
        (t.linker.unbounded points Diagnostics.none).1.length ≤ t.linker.maxTracks ∧
        t.process points = t.finish
          ((t.linker.unbounded points Diagnostics.none).1.map
            (Candidate.toTrack t.linker.numPlanes))
          (t.linker.link points Diagnostics.none).diagnostics) := by
  have htracks := t.linker.tracks_link points Diagnostics.none
  unfold process
  by_cases hfull : t.linker.maxTracks < (t.linker.unbounded points Diagnostics.none).1.length
  · rw [if_pos hfull] at htracks
    simp only [htracks]
    exact Or.inl ⟨hfull, trivial⟩
  · rw [if_neg hfull] at htracks
    simp only [htracks]
    right
    cases hfound : (t.linker.unbounded points Diagnostics.none).1 with
    | nil => exact Or.inl ⟨rfl, rfl⟩
    | cons c rest =>
        rw [hfound] at hfull
        exact Or.inr ⟨by simp, Nat.le_of_not_lt hfull, rfl⟩

/-- The two endings of an event whose points were linked: the fitted tracks as they are, or, in
single-stub mode, two fitted tracks with their double residuals. -/
theorem finish_cases (t : Tracker α) (linked : List (Track α)) (d : Diagnostics α) :
    t.finish linked d = ⟨linked.map t.fitter.fit, .linked, d, false⟩ ∨
      (t.tracking.singleStub = true ∧ ∃ first second, linked.map t.fitter.fit = [first, second] ∧
        first.isFitted = true ∧ second.isFitted = true ∧
        t.finish linked d = ⟨[t.fitter.confront first first.ray second.hits,
          t.fitter.confront second second.ray first.hits], .linked, d, true⟩) := by
  unfold finish
  simp only
  cases hconfronted : (if t.tracking.singleStub then
      t.fitter.doubleResiduals? (linked.map t.fitter.fit) else none) with
  | none => exact Or.inl rfl
  | some confronted =>
      split at hconfronted
      · next hmode =>
          obtain ⟨first, second, hfits, hfirst, hsecond, rfl⟩ :=
            Fitter.doubleResiduals?_eq_some hconfronted
          exact Or.inr ⟨hmode, first, second, hfits, hfirst, hsecond, rfl⟩
      · cases hconfronted

/-- The tracks of an event whose points were linked, after fits and double residuals. -/
theorem processed_finish (t : Tracker α) (found : List (Candidate α)) (d : Diagnostics α) :
    (t.finish (found.map (Candidate.toTrack t.linker.numPlanes)) d).tracks.length =
        found.length ∧
      ∀ track ∈ (t.finish (found.map (Candidate.toTrack t.linker.numPlanes)) d).tracks,
        track.Processed t.geometry.numPlanes := by
  have hfitted : ∀ track ∈ (found.map (Candidate.toTrack t.linker.numPlanes)).map t.fitter.fit,
      track.Processed t.geometry.numPlanes := by
    intro track htrack
    rw [List.map_map, List.mem_map] at htrack
    obtain ⟨c, -, rfl⟩ := htrack
    obtain ⟨hcoords, hresiduals, hdouble⟩ := c.length_toTrack t.linker.numPlanes
    exact t.fitter.processed_fit hcoords hresiduals hdouble
  rcases t.finish_cases (found.map (Candidate.toTrack t.linker.numPlanes)) d with
    heq | ⟨-, first, second, hfits, -, -, heq⟩
  · rw [heq]
    exact ⟨by simp, hfitted⟩
  · have hlength := congrArg List.length hfits
    rw [List.length_map, List.length_map] at hlength
    rw [hfits] at hfitted
    rw [heq]
    refine ⟨hlength.symm, fun track htrack => ?_⟩
    rw [List.mem_cons, List.mem_singleton] at htrack
    rcases htrack with rfl | rfl
    · exact t.fitter.processed_confront (hfitted first (by simp)) _ _
    · exact t.fitter.processed_confront (hfitted second (by simp)) _ _

/-- Double residuals are all that is added to the fitted tracks. -/
theorem forall₂_tracks_finish (t : Tracker α) (linked : List (Track α)) (d : Diagnostics α) :
    List.Forall₂ (fun u track => ∃ values, track = { u with doubleResiduals := values })
      (linked.map t.fitter.fit) (t.finish linked d).tracks := by
  rcases t.finish_cases linked d with heq | ⟨-, first, second, hfits, -, -, heq⟩
  · rw [heq]
    exact List.forall₂_same.mpr fun u _ => ⟨u.doubleResiduals, rfl⟩
  · rw [heq, hfits]
    exact .cons ⟨_, rfl⟩ (.cons ⟨_, rfl⟩ .nil)

/-- The tracks of a linked event are fits, with double residuals perhaps. -/
theorem exists_fit_of_mem_finish {t : Tracker α} {linked : List (Track α)} {d : Diagnostics α}
    {track : Track α} (h : track ∈ (t.finish linked d).tracks) :
    ∃ u ∈ linked, ∃ values, track = { t.fitter.fit u with doubleResiduals := values } := by
  have hfits := List.forall₂_map_left_iff.mp (t.forall₂_tracks_finish linked d)
  obtain ⟨i, hi, rfl⟩ := List.mem_iff_getElem.mp h
  have hlt : i < linked.length := hfits.length_eq ▸ hi
  obtain ⟨values, heq⟩ := hfits.get hlt hi
  exact ⟨linked[i], List.getElem_mem hlt, values, heq⟩

/-- The tracks of an event are fits of candidates, with double residuals perhaps. -/
theorem exists_fit_of_mem_process {t : Tracker α} {points : List (SpacePoint α)}
    {track : Track α} (h : track ∈ (t.process points).tracks) :
    ∃ (c : Candidate α) (values : List α), track =
      { t.fitter.fit (c.toTrack t.linker.numPlanes) with doubleResiduals := values } := by
  rcases t.process_cases points with ⟨-, heq⟩ | ⟨-, heq⟩ | ⟨-, -, heq⟩
  · rw [heq] at h
    cases h
  · rw [heq] at h
    cases h
  · rw [heq] at h
    obtain ⟨u, hu, values, rfl⟩ := exists_fit_of_mem_finish h
    obtain ⟨c, -, rfl⟩ := List.mem_map.mp hu
    exact ⟨c, values, rfl⟩

/-- Every fitted track of an event has a degree of freedom. -/
theorem nfree_pos_of_mem_process {t : Tracker α} {points : List (SpacePoint α)} {track : Track α}
    (hmem : track ∈ (t.process points).tracks) (h : track.isFitted = true) : 0 < track.nfree := by
  obtain ⟨c, values, rfl⟩ := exists_fit_of_mem_process hmem
  exact Fitter.nfree_pos_of_isFitted (t := c.toTrack t.linker.numPlanes) h

/-- Double residuals tell of single-stub mode and two fitted tracks. -/
theorem finish_doubleResiduals (t : Tracker α) (linked : List (Track α)) (d : Diagnostics α)
    (h : (t.finish linked d).doubleResiduals = true) :
    t.tracking.singleStub = true ∧ ∃ first second, (t.finish linked d).tracks = [first, second] ∧
      first.isFitted = true ∧ second.isFitted = true := by
  rcases t.finish_cases linked d with heq | ⟨hmode, first, second, -, hfirst, hsecond, heq⟩
  · rw [heq] at h
    cases h
  · rw [heq]
    exact ⟨hmode, _, _, rfl, hfirst, hsecond⟩

section Endings

variable (t : Tracker α) (points : List (SpacePoint α))

theorem isAborted_process_iff :
    (t.process points).isAborted = true ↔
      t.linker.maxTracks < (t.linker.unbounded points Diagnostics.none).1.length := by
  rcases t.process_cases points with ⟨hfull, heq⟩ | ⟨hnil, heq⟩ | ⟨-, hfits, heq⟩
  · rw [heq]
    exact iff_of_true rfl hfull
  · rw [heq, hnil]
    exact iff_of_false Bool.false_ne_true (Nat.not_lt_zero _)
  · rw [heq]
    exact iff_of_false Bool.false_ne_true (Nat.not_lt.mpr hfits)

theorem process_of_isAborted (h : (t.process points).isAborted = true) :
    (t.process points).status = .aborted t.linker.maxTracks ∧ (t.process points).tracks = [] ∧
      (t.process points).doubleResiduals = false := by
  rw [isAborted_process_iff] at h
  rcases t.process_cases points with ⟨-, heq⟩ | ⟨hnil, -⟩ | ⟨-, hfits, -⟩
  · rw [heq]
    exact ⟨rfl, rfl, rfl⟩
  · rw [hnil] at h
    exact absurd h (Nat.not_lt_zero _)
  · exact absurd hfits (Nat.not_le.mpr h)

theorem status_process_eq_noCandidates_iff :
    (t.process points).status = .noCandidates ↔
      (t.linker.unbounded points Diagnostics.none).1 = [] := by
  rcases t.process_cases points with ⟨hfull, heq⟩ | ⟨hnil, heq⟩ | ⟨hne, -, heq⟩
  · rw [heq]
    refine iff_of_false (by simp) ?_
    exact List.ne_nil_of_length_pos (Nat.zero_lt_of_lt hfull)
  · rw [heq]
    exact iff_of_true rfl hnil
  · rw [heq]
    exact iff_of_false (by simp [finish]) hne

theorem process_of_linked (haborted : (t.process points).isAborted = false)
    (hcandidates : (t.process points).status ≠ .noCandidates) :
    (t.process points).status = .linked ∧ 1 ≤ (t.process points).tracks.length ∧
      (t.process points).tracks.length ≤ t.linker.maxTracks ∧
      ∀ track ∈ (t.process points).tracks, track.Processed t.geometry.numPlanes := by
  rcases t.process_cases points with ⟨-, heq⟩ | ⟨-, heq⟩ | ⟨hne, hfits, heq⟩
  · rw [heq] at haborted
    exact absurd haborted.symm Bool.false_ne_true
  · rw [heq] at hcandidates
    exact absurd rfl hcandidates
  · rw [heq]
    obtain ⟨hlength, hprocessed⟩ := t.processed_finish
      (t.linker.unbounded points Diagnostics.none).1
      (t.linker.link points Diagnostics.none).diagnostics
    rw [hlength]
    exact ⟨rfl, List.length_pos_of_ne_nil hne, hfits, hprocessed⟩

/-- There is no candidate if and only if there is no track without an abort. -/
theorem status_process_eq_noCandidates_iff_tracks :
    (t.process points).status = .noCandidates ↔
      (t.process points).tracks = [] ∧ (t.process points).isAborted = false := by
  constructor
  · intro hstatus
    rcases t.process_cases points with ⟨-, heq⟩ | ⟨-, heq⟩ | ⟨-, -, heq⟩
    · rw [heq] at hstatus
      cases hstatus
    · rw [heq]
      exact ⟨rfl, rfl⟩
    · rw [heq] at hstatus
      cases hstatus
  · rintro ⟨htracks, haborted⟩
    by_contra hcandidates
    have hpos := (process_of_linked t points haborted hcandidates).2.1
    rw [htracks] at hpos
    exact Nat.not_succ_le_zero 0 hpos

theorem process_of_doubleResiduals (h : (t.process points).doubleResiduals = true) :
    t.tracking.singleStub = true ∧ ∃ first second, (t.process points).tracks = [first, second] ∧
      first.isFitted = true ∧ second.isFitted = true := by
  rcases t.process_cases points with ⟨-, heq⟩ | ⟨-, heq⟩ | ⟨-, -, heq⟩
  · rw [heq] at h
    exact absurd h Bool.false_ne_true
  · rw [heq] at h
    exact absurd h Bool.false_ne_true
  · rw [heq] at h ⊢
    exact t.finish_doubleResiduals _ _ h

end Endings

/-- What one event yields.  It is aborted exactly if linking fails, with the bound in force and
without tracks.  It has no candidates exactly if it has no tracks without being aborted: across
chambers if no point accepts another one, else if there is no point.  Otherwise it is linked, its
tracks are within the bound, and all were fitted.  Double residuals are worked out in single-stub
mode only, for two fitted tracks. -/
theorem process_outcome {geometry : Geometry α} {tracking : Tracking α} {t : Tracker α}
    (hnew : ofTracking? geometry tracking = .ok t) (points : List (SpacePoint α)) :
    ((t.process points).isAborted = true ↔
        ∃ e, ((Linker.ofTracking tracking geometry.numPlanes).link points
          Diagnostics.none).tracks = .error e) ∧
      ((t.process points).isAborted = true →
        (t.process points).status = .aborted tracking.effectiveMaxTracks ∧
          (t.process points).tracks = [] ∧ (t.process points).doubleResiduals = false) ∧
      ((t.process points).status = .noCandidates ↔
        (t.process points).tracks = [] ∧ (t.process points).isAborted = false) ∧
      (tracking.singleStub = false →
        ((t.process points).status = .noCandidates ↔
          ∀ i j, accepted tracking.criteria points i j = false)) ∧
      (tracking.singleStub = true →
        ((t.process points).status = .noCandidates ↔ points = [])) ∧
      ((t.process points).isAborted = false → (t.process points).status ≠ .noCandidates →
        (t.process points).status = .linked ∧ 1 ≤ (t.process points).tracks.length ∧
          (t.process points).tracks.length ≤ tracking.effectiveMaxTracks ∧
          ∀ track ∈ (t.process points).tracks, track.Processed geometry.numPlanes) ∧
      ((t.process points).doubleResiduals = true →
        tracking.singleStub = true ∧ ∃ first second,
          (t.process points).tracks = [first, second] ∧
            first.isFitted = true ∧ second.isFitted = true) := by
  obtain ⟨rfl, rfl⟩ := eq_of_ofTracking? hnew
  refine ⟨?_, t.process_of_isAborted points, t.status_process_eq_noCandidates_iff_tracks points,
    ?_, ?_, t.process_of_linked points, t.process_of_doubleResiduals points⟩
  · rw [isAborted_process_iff]
    constructor
    · intro hfull
      exact ⟨_, Linker.tracks_link_eq_error_iff.mpr ⟨hfull, rfl⟩⟩
    · rintro ⟨e, he⟩
      exact (Linker.tracks_link_eq_error_iff.mp he).1
  · intro hmode
    rw [status_process_eq_noCandidates_iff]
    exact unbounded_eq_nil_iff (l := t.linker) hmode points Diagnostics.none
  · intro hmode
    have hsingle : t.linker.singleStub = true := hmode
    rw [status_process_eq_noCandidates_iff, Linker.unbounded, if_pos hsingle]
    simp [members]

/-- One point in each of two chambers, on five hits each. -/
def pair : List (SpacePoint Rat) :=
  [⟨1, ⟨0, 0, 0, 0⟩, [⟨1, 1, 1⟩, ⟨2, 1, 2⟩, ⟨3, 1, 3⟩, ⟨4, 1, 1⟩, ⟨5, 1, 2⟩]⟩,
    ⟨2, ⟨0, 0, 0, 0⟩, [⟨6, 1, 1⟩, ⟨7, 1, 2⟩, ⟨8, 1, 2⟩, ⟨9, 1, 1⟩, ⟨10, 1, 2⟩]⟩]

/-- In single-stub mode the pair has double residuals, hence two fitted tracks. -/
theorem process_pair :
    ∃ t, ofTracking? twoChambers ⟨⟨1, 1, 1, 1⟩, 0, true, RayMap.standardIndices⟩ = .ok t ∧
      (t.process pair).status = .linked ∧ ∃ first second,
        (t.process pair).tracks = [first, second] ∧
          first.isFitted = true ∧ second.isFitted = true := by
  have hnew : ofTracking? twoChambers ⟨⟨1, 1, 1, 1⟩, 0, true, RayMap.standardIndices⟩ =
      .ok ⟨twoChambers, ⟨⟨1, 1, 1, 1⟩, 0, true, RayMap.standardIndices⟩, #v[4, 5, 2, 3], rfl⟩ :=
    rfl
  obtain ⟨-, -, -, -, -, hlinked, hdouble⟩ := process_outcome hnew pair
  exact ⟨_, hnew, (hlinked (by decide +kernel) (by decide +kernel)).1,
    (hdouble (by decide +kernel)).2⟩

end Tracker

end DriftChamber
