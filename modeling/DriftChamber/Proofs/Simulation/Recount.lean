/-
# Counting a run again from its export

An export tells what the outcome of a run tells, and more: the counts among the metrics can be made
again from the frames alone (`Metrics.Recounts`).  The accumulator asks a track for its chi-square
per degree of freedom where a frame asks it for its ray.  The two agree because no fit succeeds
without a degree of freedom (`Tracker.nfree_pos_of_mem_process`).

Events are generated one after the other, so a longer run starts with the events of a shorter one
(`runEvents_prefix`).
-/
import DriftChamber.Proofs.Simulation.Coherence
import DriftChamber.Simulation.Export

namespace DriftChamber

/-! ## Counting -/

theorem Track.isSome_ray?_summary (t : Track Float) : t.summary.ray?.isSome = t.isFitted := by
  rw [summary, fittedRay?]
  cases t.isFitted <;> rfl

namespace Frame

/-- Whether linking found too many candidates. -/
def isAborted (f : Frame) : Bool :=
  match f.status with
  | .aborted _ => true
  | _ => false

/-- Whether a track has a ray. -/
def hasRay (f : Frame) : Bool := f.tracks.any (·.ray?.isSome)

/-- Number of tracks without a ray. -/
def unfitTracks (f : Frame) : Nat := f.tracks.countP (·.ray?.isNone)

end Frame

namespace RunEvent

variable (e : RunEvent) (number : Nat)

theorem isAborted_frame : (e.frame number).isAborted = e.result.isAborted := rfl

theorem hasRay_frame : (e.frame number).hasRay = decide (0 < e.result.numFitted) := by
  rw [Bool.eq_iff_iff, decide_eq_true_iff, EventResult.numFitted, List.countP_pos_iff, Frame.hasRay,
    frame, List.any_map, List.any_eq_true]
  simp only [Function.comp_apply, Track.isSome_ray?_summary]

variable {e number}

/-- The tracks without a chi-square per degree of freedom are those without a ray. -/
theorem unfitTracks_frame (h : ∀ t ∈ e.result.tracks, t.isFitted = true → 0 < t.nfree) :
    e.result.tracks.length - (e.result.tracks.filterMap Track.reducedChiSquare?).length =
      (e.frame number).unfitTracks := by
  have hunfit : (e.frame number).unfitTracks = e.result.tracks.countP fun t => ¬t.isFitted := by
    rw [Frame.unfitTracks, frame, List.countP_map]
    refine List.countP_congr fun t _ => ?_
    rw [Function.comp_apply, ← Option.not_isSome, Track.isSome_ray?_summary]
    simp
  have hfitted : (e.result.tracks.filterMap Track.reducedChiSquare?).length =
      e.result.tracks.countP (·.isFitted) := by
    rw [List.length_filterMap_eq_countP]
    refine List.countP_congr fun t ht => ?_
    rw [Track.isSome_reducedChiSquare? (h t ht)]
  rw [hfitted, hunfit, List.length_eq_countP_add_countP (·.isFitted), Nat.add_sub_cancel_left]

end RunEvent

/-- The counts among metrics, made again from frames alone. -/
structure Metrics.Recounts (frames : List Frame) (m : Metrics) : Prop where
  /-- Each event has its frame. -/
  events_eq : m.events = frames.length
  /-- Aborted events are the frames that say so. -/
  abortedEvents_eq : m.abortedEvents = frames.countP (·.isAborted)
  /-- All tracks stand in frames. -/
  totalTracks_eq : m.totalTracks = (frames.map (·.tracks.length)).sum
  /-- All rays of the truth stand in frames. -/
  truthRays_eq : m.truthRays = (frames.map (·.truth.length)).sum
  /-- Events with a fitted track are the frames that have a track with a ray. -/
  eventsWithTracks_eq : m.eventsWithTracks = frames.countP (·.hasRay)
  /-- Tracks that were not fitted are the tracks without a ray. -/
  unfitTracks_eq : m.unfitTracks = (frames.map (·.unfitTracks)).sum

namespace Accumulator

variable {frames : List Frame}

/-- One event more is one frame more. -/
theorem recounts_record {a : Accumulator} (h : a.metrics.Recounts frames) {e : RunEvent}
    (he : ∀ t ∈ e.result.tracks, t.isFitted = true → 0 < t.nfree) (number : Nat) :
    (a.record e.generated.truth e.result).metrics.Recounts (frames ++ [e.frame number]) := by
  constructor
  · show a.metrics.events + 1 = _
    rw [h.events_eq, List.length_append, List.length_singleton]
  · show a.metrics.abortedEvents + (if e.result.isAborted then 1 else 0) = _
    rw [h.abortedEvents_eq, List.countP_append, List.countP_singleton, e.isAborted_frame]
  · show a.metrics.totalTracks + e.result.tracks.length = _
    rw [h.totalTracks_eq, List.map_append, List.sum_append, List.map_singleton, List.sum_singleton,
      RunEvent.frame, List.length_map]
  · show a.metrics.truthRays + e.generated.truth.length = _
    rw [h.truthRays_eq, List.map_append, List.sum_append, List.map_singleton, List.sum_singleton,
      RunEvent.frame]
  · show a.metrics.eventsWithTracks + (if 0 < e.result.numFitted then 1 else 0) = _
    rw [h.eventsWithTracks_eq, List.countP_append, List.countP_singleton, e.hasRay_frame]
    simp only [decide_eq_true_eq]
  · show a.metrics.unfitTracks + (e.result.tracks.length -
      (e.result.tracks.filterMap Track.reducedChiSquare?).length) = _
    rw [h.unfitTracks_eq, List.map_append, List.sum_append, List.map_singleton, List.sum_singleton,
      RunEvent.unfitTracks_frame he]

/-- A run over events is recounted from their frames, whatever number they start from. -/
theorem recounts_foldl {a : Accumulator} (h : a.metrics.Recounts frames) {run : List RunEvent}
    (hrun : ∀ e ∈ run, ∀ t ∈ e.result.tracks, t.isFitted = true → 0 < t.nfree) (first : Nat) :
    (run.foldl (fun a e => a.record e.generated.truth e.result) a).metrics.Recounts
      (frames ++ (run.zipIdx first).map fun (e, number) => e.frame number) := by
  -- What was recorded before is generalized together with its frames.
  induction run generalizing a frames first with
  | nil =>
      rw [List.zipIdx_nil, List.map_nil, List.append_nil]
      exact h
  | cons e rest ih =>
      obtain ⟨he, hrest⟩ := List.forall_mem_cons.mp hrun
      rw [List.foldl_cons, List.zipIdx_cons, List.map_cons, List.append_cons]
      exact ih (recounts_record h he first) hrest (first + 1)

/-- Closing the means leaves the counts. -/
theorem recounts_finish {a : Accumulator} (h : a.metrics.Recounts frames) :
    a.finish.Recounts frames :=
  ⟨h.events_eq, h.abortedEvents_eq, h.totalTracks_eq, h.truthRays_eq, h.eventsWithTracks_eq,
    h.unfitTracks_eq⟩

end Accumulator

theorem Metrics.recounts_zero : Metrics.zero.Recounts [] := by
  constructor <;> rfl

/-! ## Shorter and longer runs -/

/-- A longer run starts with the events of a shorter one. -/
theorem runEvents_prefix (tracker : Tracker Float) (generator : Generator) (rays : Nat)
    {count more : Nat} (h : count ≤ more) (stream : Stream) :
    runEvents tracker generator rays count stream <+:
      runEvents tracker generator rays more stream := by
  induction count generalizing more stream with
  | zero => exact List.nil_prefix
  | succ count ih =>
      cases more with
      | zero => cases h
      | succ more =>
          exact List.cons_prefix_cons.mpr ⟨rfl, ih (Nat.le_of_succ_le_succ h) _⟩

/-- The frames of the first events are the first frames. -/
theorem frames_prefix {events more : List RunEvent} (h : events <+: more) :
    (events.zipIdx.map fun (e, number) => e.frame number) <+:
      more.zipIdx.map fun (e, number) => e.frame number := by
  obtain ⟨rest, rfl⟩ := h
  rw [List.zipIdx_append]
  exact (List.prefix_append _ _).map _

/-! ## Exports -/

namespace Runner

/-- The frames of an export are numbered from 0. -/
theorem map_event_frames (r : Runner) (s : Scenario) :
    (r.runWithExport s).2.frames.map (·.event) = List.range (r.execute s).events.length := by
  show (((r.execute s).events.zipIdx.map fun (e, number) => e.frame number).map (·.event)) = _
  rw [List.map_map, List.range_eq_range', ← List.zipIdx_map_snd]
  rfl

/-- The metrics of a run are recounted from the frames of its export. -/
theorem recounts_run (r : Runner) (s : Scenario) :
    (r.run s).metrics.Recounts (r.runWithExport s).2.frames := by
  show (r.execute s).result.metrics.Recounts
    ((r.execute s).events.zipIdx.map fun (e, number) => e.frame number)
  by_cases hvalid : r.setup.check = .ok ()
  · obtain ⟨tracker, -, -, hevents, hmetrics⟩ := r.execute_of_check s hvalid
    have hfits : ∀ e ∈ r.eventsOf s tracker, ∀ t ∈ e.result.tracks,
        t.isFitted = true → 0 < t.nfree := by
      intro e he t ht
      rw [(tracked_of_mem_eventsOf he).result_eq] at ht
      exact Tracker.nfree_pos_of_mem_process ht
    have hrun := Accumulator.recounts_foldl (a := Accumulator.zero) Metrics.recounts_zero hfits 0
    rw [hevents, hmetrics]
    exact Accumulator.recounts_finish hrun
  · obtain ⟨hevents, hmetrics⟩ := r.execute_of_check_ne s hvalid
    rw [hevents, hmetrics]
    exact Metrics.recounts_zero

/-- The frames of a run are the first frames of a run of more events. -/
theorem frames_runWithExport_prefix (r : Runner) (s : Scenario) {count : Nat}
    (h : r.events ≤ count) :
    (r.runWithExport s).2.frames <+:
      (({ r with events := count } : Runner).runWithExport s).2.frames := by
  refine frames_prefix ?_
  unfold execute
  cases htracker : (r.setupFor s).tracker? with
  | error e =>
      rw [show ({ r with events := count } : Runner).setupFor s = r.setupFor s from rfl, htracker]
      exact List.prefix_refl []
  | ok tracker =>
      rw [show ({ r with events := count } : Runner).setupFor s = r.setupFor s from rfl, htracker]
      exact runEvents_prefix _ _ _ h _

end Runner

/-- A run ends alike with and without an export, and the export tells its verdict and its metrics.
Its frames are numbered from 0, one for each event of a usable setup, and the counts among the
metrics can be made again from them.  A run of more events, with all else the same, has the same
frames first. -/
theorem Runner.runWithExport_recounts (r : Runner) (s : Scenario) :
    (r.runWithExport s).1 = r.run s ∧
      (r.runWithExport s).2.scenario = (r.run s).scenario ∧
      (r.runWithExport s).2.seed = (r.run s).seed ∧
      (r.runWithExport s).2.passed = (r.run s).passed ∧
      (r.runWithExport s).2.metrics = (r.run s).metrics ∧
      (r.setup.check = .ok () →
        (r.runWithExport s).2.frames.map (·.event) = List.range r.events) ∧
      (r.run s).metrics.Recounts (r.runWithExport s).2.frames ∧
      ∀ count, r.events ≤ count → (r.runWithExport s).2.frames <+:
        (({ r with events := count } : Runner).runWithExport s).2.frames := by
  refine ⟨rfl, rfl, rfl, rfl, rfl, fun hvalid => ?_, r.recounts_run s,
    fun count h => r.frames_runWithExport_prefix s h⟩
  obtain ⟨tracker, -, -, hevents, -⟩ := r.execute_of_check s hvalid
  rw [map_event_frames, hevents, length_eventsOf]

/-- The export of one event, and that of two events from the same seed. -/
theorem Runner.runWithExport_recounts_axialRunner :
    axialRunner.setup.check = .ok () ∧ axialRunner.events ≤ 2 ∧
      (axialRunner.runWithExport .singleStub).2.frames.map (·.event) = [0] ∧
      (axialRunner.run .singleStub).metrics.totalTracks =
        ((axialRunner.runWithExport .singleStub).2.frames.map (·.tracks.length)).sum ∧
      (axialRunner.runWithExport .singleStub).2.frames <+:
        (({ axialRunner with events := 2 } : Runner).runWithExport .singleStub).2.frames := by
  obtain ⟨-, -, -, -, -, hnumbers, hcounts, hprefix⟩ :=
    Runner.runWithExport_recounts axialRunner .singleStub
  exact ⟨check_axialRunner, by decide, hnumbers check_axialRunner, hcounts.totalTracks_eq,
    hprefix 2 (by decide)⟩

end DriftChamber
