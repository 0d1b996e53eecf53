/-
# The mode of a run

Both a setup and a scenario say whether every space point makes a track of its own.  In a run the
scenario decides: it puts its own mode in place of the one of the setup, also where that is the
usual mode, so a setup is never heard on it (`Runner.execute_withMode`).

An export shows which mode was used (`Frame.OnePerPoint`).  Linking across chambers makes no track
of a single point (`Tracker.two_le_length_spacePoints`), so only an event without points looks the
same in both modes (`Runner.onePerPoint_frames_iff`).
-/
import DriftChamber.Proofs.Linking.Diagnostics
import DriftChamber.Proofs.Simulation.CrossChamber
import DriftChamber.Proofs.Simulation.Recount

namespace DriftChamber

/-! ## What an export shows of the mode -/

/-- A frame of an event of which each point makes a track of its own, without any comparison. -/
structure Frame.OnePerPoint (points : List (SpacePoint Float)) (f : Frame) : Prop where
  /-- Each point is the only member of one track. -/
  perm : (f.tracks.map (·.spacePoints)).Perm ((List.range points.length).map fun i => [i])
  /-- No pair of points is compared. -/
  pairsTested_eq : f.diagnostics.pairsTested = 0

/-- What holds of every event with its frame holds along a run. -/
theorem forall₂_frames {P : RunEvent → Frame → Prop} {events : List RunEvent}
    (h : ∀ e ∈ events, ∀ number, P e (e.frame number)) (first : Nat) :
    List.Forall₂ P events ((events.zipIdx first).map fun (e, number) => e.frame number) := by
  induction events generalizing first with
  | nil => exact .nil
  | cons e rest ih =>
      obtain ⟨he, hrest⟩ := List.forall_mem_cons.mp h
      exact .cons (he first) (ih hrest (first + 1))

/-! ## Events in either mode -/

/-- A track across chambers has two members at least. -/
theorem Track.CrossesChambers.two_le_length {α : Type} [Scalar α] {g : Geometry α}
    {points : List (SpacePoint α)} {t : Track α} (h : t.CrossesChambers g points) :
    2 ≤ t.spacePoints.length := by
  obtain ⟨p, hp, q, hq, hne⟩ := h.exists_chamber_ne
  obtain ⟨i, hi, hp⟩ := List.mem_filterMap.mp hp
  obtain ⟨j, hj, hq⟩ := List.mem_filterMap.mp hq
  -- points of different chambers stand at different positions
  have hij : i ≠ j := by
    rintro rfl
    rw [hp] at hq
    cases hq
    exact hne rfl
  have hsub : [i, j] ⊆ t.spacePoints := by simp [hi, hj]
  exact (List.subperm_of_subset (by simpa using hij) hsub).length_le

namespace Tracker

variable {α : Type} [Scalar α] (t : Tracker α) {points : List (SpacePoint α)}

/-- The diagnostics of an event are those of linking. -/
theorem diagnostics_process :
    (t.process points).diagnostics = (t.linker.link points Diagnostics.none).diagnostics := by
  rcases t.process_cases points with ⟨-, heq⟩ | ⟨-, heq⟩ | ⟨-, -, heq⟩ <;> rw [heq]
  rfl

/-- An event without points has no candidates, in either mode. -/
theorem process_nil : t.process [] = ⟨[], .noCandidates, Diagnostics.none, false⟩ := by
  have hlink : t.linker.link [] Diagnostics.none = ⟨.ok [], Diagnostics.none⟩ := by
    rw [Linker.link, Linker.candidates]
    cases t.linker.singleStub <;> rfl
  rw [process, hlink]

variable {t}

/-- Where every point makes a track, the members of the tracks are the points, one by one. -/
theorem map_spacePoints_process (hmode : t.tracking.singleStub = true)
    (haborted : (t.process points).isAborted = false) :
    (t.process points).tracks.map (·.spacePoints) =
      (List.range points.length).map fun i => [i] := by
  have hmembers : List.Forall₂ (fun track entry => track.spacePoints = [entry.2])
      (t.process points).tracks points.zipIdx := by
    refine (process_singleStub hmode haborted).1.flip.imp ?_
    rintro _ entry ⟨values, rfl⟩
    exact (t.fitter.alike_fit _).1
  have heq : (t.process points).tracks.map (·.spacePoints) =
      points.zipIdx.map fun entry => [entry.2] := by
    rwa [← List.forall₂_eq_eq_eq, List.forall₂_map_left_iff, List.forall₂_map_right_iff]
  rw [heq, List.range_eq_range', ← List.zipIdx_map_snd, List.map_map]
  rfl

end Tracker

namespace RunEvent.Tracked

variable {tracker : Tracker Float} {rays : Nat} {e : RunEvent} (h : e.Tracked tracker rays)
include h

/-- Across chambers, no track of a frame is of one point. -/
theorem two_le_length_of_mem_frame (hmode : tracker.tracking.singleStub = false) {number : Nat}
    {track : TrackSummary} (htrack : track ∈ (e.frame number).tracks) :
    2 ≤ track.spacePoints.length := by
  obtain ⟨fitted, hfitted, rfl⟩ := List.mem_map.mp htrack
  rw [h.result_eq] at hfitted
  exact (Tracker.fittedAcross_of_mem hmode h.found hfitted).crosses.two_le_length

/-- A frame shows one track per point exactly in the mode that makes them, or if there is no
point. -/
theorem onePerPoint_frame_iff (haborted : e.result.isAborted = false) (number : Nat) :
    (e.frame number).OnePerPoint e.generated.points ↔
      tracker.tracking.singleStub = true ∨ e.generated.points = [] := by
  have hframe : (e.frame number).tracks.map (·.spacePoints) =
      e.result.tracks.map (·.spacePoints) := by
    rw [frame, List.map_map]
    rfl
  rw [h.result_eq] at haborted hframe
  constructor
  · intro hone
    by_contra hcross
    obtain ⟨hmode, hpoints⟩ := not_or.mp hcross
    -- the first point is on a track of its own, which no linking across chambers makes
    have hfirst : [0] ∈ (List.range e.generated.points.length).map fun i => [i] :=
      List.mem_map.mpr ⟨0, List.mem_range.mpr (List.length_pos_of_ne_nil hpoints), rfl⟩
    obtain ⟨track, htrack, hsingle⟩ := List.mem_map.mp (hone.perm.mem_iff.mpr hfirst)
    have htwo := h.two_le_length_of_mem_frame (Bool.eq_false_iff.mpr hmode) htrack
    rw [hsingle] at htwo
    exact absurd htwo (by decide)
  · rintro (hmode | hnil)
    · refine ⟨by rw [hframe, Tracker.map_spacePoints_process hmode haborted], ?_⟩
      show e.result.diagnostics.pairsTested = 0
      rw [h.result_eq, tracker.diagnostics_process, Linker.diagnostics_link_of_singleStub hmode]
      rfl
    · refine ⟨by rw [hframe, hnil, tracker.process_nil]; rfl, ?_⟩
      show e.result.diagnostics.pairsTested = 0
      rw [h.result_eq, hnil, tracker.process_nil]
      rfl

end RunEvent.Tracked

/-! ## Runs -/

namespace Runner

/-- The runner with a mode in its setup. -/
def withMode (r : Runner) (mode : Bool) : Runner :=
  { r with
    setup := { r.setup with tracking := { r.setup.tracking with singleStub := mode } } }

/-- A run does not depend on the mode in the setup. -/
theorem execute_withMode (r : Runner) (mode : Bool) (s : Scenario) :
    (r.withMode mode).execute s = r.execute s := rfl

/-- The mode of a run is that of its scenario, and the one in the setup has no say.  A usable setup
gives all the events that were asked for.  A frame that is not aborted shows one track per point,
and no comparison, exactly if the scenario is in that mode or the event has no points.  In the other
mode every track of the export has two members at least. -/
theorem onePerPoint_frames_iff (r : Runner) (s : Scenario) (hvalid : r.setup.check = .ok ()) :
    (∀ mode, (r.withMode mode).runWithExport s = r.runWithExport s) ∧
      (r.execute s).events.length = r.events ∧
      List.Forall₂ (fun e f => f.isAborted = false →
          (f.OnePerPoint e.generated.points ↔
            s.profile.singleStub = true ∨ e.generated.points = []))
        (r.execute s).events (r.runWithExport s).2.frames ∧
      (s.profile.singleStub = false → ∀ f ∈ (r.runWithExport s).2.frames, ∀ track ∈ f.tracks,
        2 ≤ track.spacePoints.length) := by
  obtain ⟨tracker, -, htracking, hevents, -⟩ := r.execute_of_check s hvalid
  have hmode : tracker.tracking.singleStub = s.profile.singleStub := by
    rw [htracking]
    rfl
  have htracked : ∀ e ∈ (r.execute s).events, e.Tracked tracker s.profile.raysPerEvent := by
    rw [hevents]
    exact fun e he => tracked_of_mem_eventsOf he
  refine ⟨fun mode => ?_, by rw [hevents, length_eventsOf], ?_, fun hcross => ?_⟩
  · rw [runWithExport, execute_withMode]
    rfl
  · refine forall₂_frames (fun e he number haborted => ?_) 0
    rw [← hmode]
    exact (htracked e he).onePerPoint_frame_iff haborted number
  · intro f hf track htrack
    obtain ⟨⟨e, number⟩, he, rfl⟩ := List.mem_map.mp hf
    have he' := htracked e (List.fst_mem_of_mem_zipIdx he)
    exact he'.two_le_length_of_mem_frame (hmode.trans hcross) htrack

/-- A run of one event has one frame. -/
theorem frames_of_events_eq {r : Runner} {s : Scenario} {e : RunEvent}
    (h : (r.execute s).events = [e]) : (r.runWithExport s).2.frames = [e.frame 0] := by
  show ((r.execute s).events.zipIdx.map fun (e, number) => e.frame number) = _
  rw [h]
  rfl

/-- The axial detector, with a setup in which every point makes a track of its own. -/
def stubRunner : Runner := axialRunner.withMode true

/-- In a scenario of the other mode, its event has two points and one track. -/
theorem exists_linkedEvent : ∃ e : RunEvent,
    (stubRunner.execute .singleTrack).events = [e] ∧ e.result.isAborted = false ∧
      e.generated.points.length = 2 ∧ e.result.tracks.length = 1 := by
  have hseen : ((axialRunner.execute .singleTrack).events.map fun e =>
      (e.result.isAborted, e.generated.points.length, e.result.tracks.length)) =
        [(false, 2, 1)] := by decide +kernel
  obtain ⟨e, hevent, hshown⟩ := List.map_eq_singleton_iff.mp hseen
  simp only [Prod.mk.injEq] at hshown
  exact ⟨e, hevent, hshown⟩

/-- So its frame does not show one track per point, no more than without the mode in the setup. -/
theorem onePerPoint_frames_iff_stubRunner :
    stubRunner.setup.check = .ok () ∧
      axialRunner.runWithExport .singleTrack = stubRunner.runWithExport .singleTrack ∧
      ∃ e f, (stubRunner.execute .singleTrack).events = [e] ∧
        (stubRunner.runWithExport .singleTrack).2.frames = [f] ∧ f.isAborted = false ∧
        ¬f.OnePerPoint e.generated.points ∧ ∀ track ∈ f.tracks, 2 ≤ track.spacePoints.length := by
  obtain ⟨e, hevent, haborted, hlength, -⟩ := exists_linkedEvent
  obtain ⟨hsame, -, hframes, hlinked⟩ :=
    onePerPoint_frames_iff stubRunner .singleTrack check_axialRunner
  have hframe := frames_of_events_eq hevent
  rw [hevent, hframe, List.forall₂_cons] at hframes
  refine ⟨check_axialRunner, hsame false, e, e.frame 0, hevent, hframe, haborted, ?_,
    hlinked rfl _ (by simp [hframe])⟩
  rw [hframes.1 haborted]
  rintro (hmode | hnil)
  · cases hmode
  · rw [hnil] at hlength
    cases hlength

/-- The setup asks for one track per point and the scenario does not.  Two points are left with one
track. -/
theorem not_onePerPoint_stubRunner :
    stubRunner.setup.check = .ok () ∧ stubRunner.setup.tracking.singleStub = true ∧
      Scenario.singleTrack.profile.singleStub = false ∧
      ¬List.Forall₂ (fun e f => f.isAborted = false → f.OnePerPoint e.generated.points)
        (stubRunner.execute .singleTrack).events
        (stubRunner.runWithExport .singleTrack).2.frames := by
  obtain ⟨e, hevent, haborted, hlength, htracks⟩ := exists_linkedEvent
  refine ⟨check_axialRunner, rfl, rfl, fun hall => ?_⟩
  rw [hevent, frames_of_events_eq hevent, List.forall₂_cons] at hall
  have hpoints := (hall.1 haborted).perm.length_eq
  -- one track is left for two points
  rw [List.length_map, List.length_map, List.length_range, hlength, RunEvent.frame,
    List.length_map, htracks] at hpoints
  cases hpoints

end Runner

end DriftChamber
