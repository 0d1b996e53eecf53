/-
# Coherent metrics

The counts of a run fit together (`Metrics.Coherent`).  One event keeps them so, because of what
tracking an event leaves (`Accumulator.coherent_record`): an aborted event has no tracks, there are
no more tracks than the bound allows, and double residuals tell of fitted tracks.  So the fractions
that a scenario is judged by lie between 0 and 1.
-/
import DriftChamber.Proofs.Float.Fraction
import DriftChamber.Proofs.Simulation.SingleStub

namespace DriftChamber

/-! ## What an event adds -/

/-- What the counts ask of the result of an event, with the bound on tracks and the mode. -/
structure EventResult.Countable (bound : Nat) (singleStub : Bool) (r : EventResult Float) :
    Prop where
  /-- An aborted event has no tracks. -/
  tracks_of_isAborted : r.isAborted = true → r.tracks = []
  /-- The tracks are within the bound. -/
  length_le : r.tracks.length ≤ bound
  /-- Double residuals take single-stub mode and a fitted track. -/
  of_doubleResiduals : r.doubleResiduals = true → singleStub = true ∧ 0 < r.numFitted

theorem EventResult.Countable.numFitted_of_isAborted {bound : Nat} {singleStub : Bool}
    {r : EventResult Float} (h : r.Countable bound singleStub) (haborted : r.isAborted = true) :
    r.numFitted = 0 := by
  rw [numFitted, h.tracks_of_isAborted haborted, List.countP_nil]

theorem Tracker.countable_process (t : Tracker Float) (points : List (SpacePoint Float)) :
    (t.process points).Countable t.linker.maxTracks t.tracking.singleStub where
  tracks_of_isAborted := fun h => (t.process_of_isAborted points h).2.1
  length_le := by
    rcases t.process_cases points with ⟨-, heq⟩ | ⟨-, heq⟩ | ⟨-, hfits, heq⟩
    · rw [heq]
      exact Nat.zero_le _
    · rw [heq]
      exact Nat.zero_le _
    · rw [heq, (t.processed_finish _ _).1]
      exact hfits
  of_doubleResiduals := fun h => by
    obtain ⟨hmode, first, second, htracks, hfirst, -⟩ := t.process_of_doubleResiduals points h
    refine ⟨hmode, ?_⟩
    rw [EventResult.numFitted, htracks]
    exact List.countP_pos_iff.mpr ⟨first, by simp, hfirst⟩

namespace Accumulator

/-- Each ray is found once at most. -/
theorem length_matchDistances_le (truth : List (Ray Float)) (tracks : List (Track Float)) :
    (matchDistances truth tracks).length ≤ truth.length :=
  (List.length_filter_le _ _).trans (List.length_filterMap_le _ _)

/-- Without a fitted track no ray is found. -/
theorem matchDistances_eq_nil {tracks : List (Track Float)}
    (h : tracks.countP (·.isFitted) = 0) (truth : List (Ray Float)) :
    matchDistances truth tracks = [] := by
  have hrays : tracks.filterMap Track.fittedRay? = [] := by
    rw [List.filterMap_eq_nil_iff]
    intro t ht
    exact if_neg (List.countP_eq_zero.mp h t ht)
  have hnearest : ∀ ray, nearest? ray tracks = none := by
    intro ray
    rw [nearest?, hrays]
    rfl
  rw [matchDistances, List.filterMap_eq_nil_iff.mpr fun ray _ => hnearest ray]
  rfl

end Accumulator

/-! ## Coherence -/

/-- How the counts of so many events fit together, with the bound on tracks, the rays per event and
the mode. -/
structure Metrics.Coherent (events bound rays : Nat) (singleStub : Bool) (m : Metrics) : Prop where
  /-- All events are counted. -/
  events_eq : m.events = events
  /-- All rays of the truth are counted. -/
  truthRays_eq : m.truthRays = events * rays
  /-- No track survives an abort. -/
  tracksInAborted_eq : m.tracksInAborted = 0
  /-- An aborted event has no fitted track. -/
  eventsWithTracks_add_le : m.eventsWithTracks + m.abortedEvents ≤ events
  /-- The tracks of the other events are within the bound. -/
  totalTracks_le : m.totalTracks ≤ (events - m.abortedEvents) * bound
  /-- Tracks that were not fitted are tracks. -/
  unfitTracks_le : m.unfitTracks ≤ m.totalTracks
  /-- Rays are found in events with a fitted track only. -/
  matchedRays_le : m.matchedRays ≤ rays * m.eventsWithTracks
  /-- Double residuals are worked out in events with a fitted track only. -/
  doubleResidualEvents_le : m.doubleResidualEvents ≤ m.eventsWithTracks
  /-- They are worked out in single-stub mode only. -/
  doubleResidualEvents_eq : singleStub = false → m.doubleResidualEvents = 0

namespace Accumulator

variable {events bound rays : Nat} {singleStub : Bool}

/-- One event more keeps the counts coherent. -/
theorem coherent_record {a : Accumulator}
    (h : a.metrics.Coherent events bound rays singleStub) {truth : List (Ray Float)}
    (htruth : truth.length = rays) {result : EventResult Float}
    (hresult : result.Countable bound singleStub) :
    (a.record truth result).metrics.Coherent (events + 1) bound rays singleStub := by
  have hwith := h.eventsWithTracks_add_le
  have htotal := h.totalTracks_le
  have hdouble := h.doubleResidualEvents_le
  constructor
  · exact congrArg (· + 1) h.events_eq
  · show a.metrics.truthRays + truth.length = _
    rw [h.truthRays_eq, htruth, Nat.succ_mul]
  · show a.metrics.tracksInAborted + (if result.isAborted then result.tracks.length else 0) = 0
    rw [h.tracksInAborted_eq, Nat.zero_add]
    split
    · next haborted => rw [hresult.tracks_of_isAborted haborted, List.length_nil]
    · rfl
  · show a.metrics.eventsWithTracks + (if 0 < result.numFitted then 1 else 0) +
      (a.metrics.abortedEvents + if result.isAborted then 1 else 0) ≤ events + 1
    by_cases haborted : result.isAborted = true
    · rw [if_neg (hresult.numFitted_of_isAborted haborted).not_gt, if_pos haborted]
      omega
    · rw [if_neg haborted]
      split <;> omega
  · show a.metrics.totalTracks + result.tracks.length ≤
      (events + 1 - (a.metrics.abortedEvents + if result.isAborted then 1 else 0)) * bound
    by_cases haborted : result.isAborted = true
    · rw [if_pos haborted, hresult.tracks_of_isAborted haborted, List.length_nil,
        Nat.add_sub_add_right]
      exact htotal
    · have hlength := hresult.length_le
      rw [if_neg haborted]
      show _ ≤ (events + 1 - a.metrics.abortedEvents) * bound
      rw [Nat.succ_sub (by omega), Nat.succ_mul]
      omega
  · show a.metrics.unfitTracks + (result.tracks.length - _) ≤
      a.metrics.totalTracks + result.tracks.length
    have hunfit := h.unfitTracks_le
    omega
  · show a.metrics.matchedRays + (matchDistances truth result.tracks).length ≤
      rays * (a.metrics.eventsWithTracks + if 0 < result.numFitted then 1 else 0)
    have hmatched := h.matchedRays_le
    have hfound := length_matchDistances_le truth result.tracks
    split
    · rw [Nat.mul_succ]
      omega
    · next hnone =>
        rw [matchDistances_eq_nil (Nat.eq_zero_of_not_pos hnone)]
        exact hmatched
  · show a.metrics.doubleResidualEvents + (if result.doubleResiduals then 1 else 0) ≤
      a.metrics.eventsWithTracks + if 0 < result.numFitted then 1 else 0
    split
    · next hresiduals =>
        rw [if_pos (hresult.of_doubleResiduals hresiduals).2]
        omega
    · omega
  · intro hmode
    show a.metrics.doubleResidualEvents + (if result.doubleResiduals then 1 else 0) = 0
    rw [h.doubleResidualEvents_eq hmode, Nat.zero_add, if_neg]
    intro hresiduals
    rw [hmode] at hresult
    exact Bool.false_ne_true (hresult.of_doubleResiduals hresiduals).1

/-- A run over events that were all tracked in the same way keeps the counts coherent. -/
theorem coherent_foldl {a : Accumulator}
    (h : a.metrics.Coherent events bound rays singleStub) {run : List RunEvent}
    (hrun : ∀ e ∈ run, e.generated.truth.length = rays ∧ e.result.Countable bound singleStub) :
    (run.foldl (fun a e => a.record e.generated.truth e.result) a).metrics.Coherent
      (events + run.length) bound rays singleStub := by
  induction run generalizing a events with
  | nil => exact h
  | cons e rest ih =>
      obtain ⟨he, hrest⟩ := List.forall_mem_cons.mp hrun
      rw [List.foldl_cons, List.length_cons, ← Nat.add_assoc, Nat.add_right_comm]
      exact ih (coherent_record h he.1 he.2) hrest

end Accumulator

theorem Metrics.coherent_zero (bound rays : Nat) (singleStub : Bool) :
    Metrics.zero.Coherent 0 bound rays singleStub := by
  constructor <;> simp [Metrics.zero]

/-- Closing the means leaves the counts. -/
theorem Accumulator.coherent_finish {a : Accumulator} {events bound rays : Nat} {singleStub : Bool}
    (h : a.metrics.Coherent events bound rays singleStub) :
    a.finish.Coherent events bound rays singleStub :=
  ⟨h.events_eq, h.truthRays_eq, h.tracksInAborted_eq, h.eventsWithTracks_add_le, h.totalTracks_le,
    h.unfitTracks_le, h.matchedRays_le, h.doubleResidualEvents_le, h.doubleResidualEvents_eq⟩

/-! ## Fractions -/

namespace Metrics

theorem ratio_mem {part whole : Nat} (hle : part ≤ whole) (hwhole : whole < 2 ^ 64) :
    0 ≤ ratio part whole ∧ ratio part whole ≤ 1 := by
  rw [ratio]
  split
  · exact ⟨by decide +kernel, by decide +kernel⟩
  · next hne => exact Binary64.toFloat_div_toFloat_mem hle (Nat.pos_of_ne_zero hne) hwhole

/-- The fractions that coherent counts make, as long as 64 bits hold the counts. -/
theorem Coherent.fractions_mem {events bound rays : Nat} {singleStub : Bool} {m : Metrics}
    (h : m.Coherent events bound rays singleStub) (hevents : events < 2 ^ 64)
    (hrays : events * rays < 2 ^ 64) :
    (0 ≤ m.trackingEfficiency ∧ m.trackingEfficiency ≤ 1) ∧
      (0 ≤ m.matchEfficiency ∧ m.matchEfficiency ≤ 1) ∧
      (0 ≤ m.abortFraction ∧ m.abortFraction ≤ 1) ∧
      (0 ≤ m.doubleResidualFraction ∧ m.doubleResidualFraction ≤ 1) := by
  have hwith := h.eventsWithTracks_add_le
  have hdouble := h.doubleResidualEvents_le
  have hmatched : m.matchedRays ≤ m.truthRays :=
    calc m.matchedRays ≤ rays * m.eventsWithTracks := h.matchedRays_le
      _ ≤ rays * events := Nat.mul_le_mul_left rays (by omega)
      _ = m.truthRays := by rw [h.truthRays_eq, Nat.mul_comm]
  rw [← h.truthRays_eq] at hrays
  rw [← h.events_eq] at hwith hevents
  exact ⟨ratio_mem (by omega) hevents, ratio_mem hmatched hrays, ratio_mem (by omega) hevents,
    ratio_mem (by omega) hevents⟩

end Metrics

/-! ## Runs -/

theorem Scenario.raysPerEvent_pos (s : Scenario) : 0 < s.profile.raysPerEvent := by
  cases s <;> decide

theorem Scenario.singleStub_profile_eq (s : Scenario) :
    s.profile.singleStub = decide (s = .singleStub) := by
  cases s <;> rfl

/-- Every event of a run has what its counts ask for. -/
theorem Runner.countable_of_mem_eventsOf {r : Runner} {s : Scenario} {tracker : Tracker Float}
    (htracking : tracker.tracking = s.profile.apply r.setup.tracking) {e : RunEvent}
    (he : e ∈ r.eventsOf s tracker) :
    e.generated.truth.length = s.profile.raysPerEvent ∧
      e.result.Countable (s.profile.apply r.setup.tracking).effectiveMaxTracks
        (decide (s = .singleStub)) := by
  have htracked := tracked_of_mem_eventsOf he
  have hprocess := tracker.countable_process e.generated.points
  rw [← htracked.result_eq, htracking] at hprocess
  refine ⟨htracked.length_truth, ?_⟩
  rw [← s.singleStub_profile_eq, ← htracking]
  exact hprocess

/-- The metrics of every run are coherent, with the bound on tracks in force, and those of a setup
that is not usable are all zero.  So, as long as 64 bits hold the counts, the fractions that a
scenario is judged by lie between 0 and 1. -/
theorem Runner.metrics_coherent (r : Runner) (s : Scenario) :
    (r.setup.check = .ok () → (r.run s).metrics.Coherent r.events
      (s.profile.apply r.setup.tracking).effectiveMaxTracks s.profile.raysPerEvent
      (decide (s = .singleStub))) ∧
    (r.setup.check ≠ .ok () → (r.run s).metrics = Metrics.zero) ∧
    (r.events * s.profile.raysPerEvent < 2 ^ 64 →
      (0 ≤ (r.run s).metrics.trackingEfficiency ∧ (r.run s).metrics.trackingEfficiency ≤ 1) ∧
      (0 ≤ (r.run s).metrics.matchEfficiency ∧ (r.run s).metrics.matchEfficiency ≤ 1) ∧
      (0 ≤ (r.run s).metrics.abortFraction ∧ (r.run s).metrics.abortFraction ≤ 1) ∧
      (0 ≤ (r.run s).metrics.doubleResidualFraction ∧
        (r.run s).metrics.doubleResidualFraction ≤ 1)) := by
  have hcoherent : r.setup.check = .ok () → (r.run s).metrics.Coherent r.events
      (s.profile.apply r.setup.tracking).effectiveMaxTracks s.profile.raysPerEvent
      (decide (s = .singleStub)) := by
    intro hvalid
    obtain ⟨tracker, -, htracking, -, hmetrics⟩ := r.execute_of_check s hvalid
    have hrun := Accumulator.coherent_foldl (a := Accumulator.zero)
      (Metrics.coherent_zero _ _ _) fun e he => countable_of_mem_eventsOf htracking he
    rw [Nat.zero_add, length_eventsOf] at hrun
    rw [run, hmetrics]
    exact Accumulator.coherent_finish hrun
  refine ⟨hcoherent, fun hinvalid => (r.execute_of_check_ne s hinvalid).2, ?_⟩
  intro hrays
  have hevents : r.events < 2 ^ 64 :=
    (Nat.le_mul_of_pos_right r.events s.raysPerEvent_pos).trans_lt hrays
  by_cases hvalid : r.setup.check = .ok ()
  · exact (hcoherent hvalid).fractions_mem hevents hrays
  · rw [run, (r.execute_of_check_ne s hvalid).2]
    exact (Metrics.coherent_zero 0 0 false).fractions_mem (by decide) (by decide)

/-- The metrics of one event with a point in each of two chambers. -/
theorem Runner.metrics_coherent_axialRunner :
    axialRunner.setup.check = .ok () ∧
      (axialRunner.run .singleStub).metrics.Coherent 1 10 1 true ∧
      0 ≤ (axialRunner.run .singleStub).metrics.doubleResidualFraction ∧
      (axialRunner.run .singleStub).metrics.doubleResidualFraction ≤ 1 := by
  obtain ⟨hcoherent, -, hfractions⟩ := Runner.metrics_coherent axialRunner .singleStub
  exact ⟨check_axialRunner, hcoherent check_axialRunner, (hfractions (by decide)).2.2.2⟩

end DriftChamber
