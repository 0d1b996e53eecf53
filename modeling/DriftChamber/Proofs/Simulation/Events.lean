/-
# The events of a run

A run over a usable setup has the events that were asked for, and each of them is a generated event
with what one tracker makes of it (`Runner.execute_of_check`, `Runner.tracked_of_mem_eventsOf`).  A
scenario sets the mode and the bound on tracks only, so it never makes a usable setup unusable, nor
the other way round (`Runner.check_setupFor`).

A run breaks off before its first event, or not at all, since all its events take the same room
(`Runner.HasRoom`).  If it does not, it is the run that there is with room for everything
(`Runner.execute?_eq_ok_iff`).
-/
import DriftChamber.Proofs.Event.Outcome
import DriftChamber.Proofs.Simulation.Generated
import DriftChamber.Simulation.Run

namespace DriftChamber

/-! ## Usable setups -/

theorem Tracker.exists_ofTracking?_iff {α : Type} [Scalar α] {geometry : Geometry α}
    {tracking : Tracking α} :
    (∃ t, ofTracking? geometry tracking = .ok t) ↔ ∃ map, tracking.check = .ok map := by
  unfold ofTracking?
  split
  · next e herror => simp [herror]
  · next map hmap => simp [hmap]

namespace Setup

/-- A tracker holds the table of the detector and the parameters of the setup. -/
theorem eq_of_tracker? {s : Setup} {t : Tracker Float} (h : s.tracker? = .ok t) :
    s.detector.geometry? = .ok t.geometry ∧ t.tracking = s.tracking := by
  unfold tracker? at h
  split at h
  · cases h
  · next geometry hgeometry =>
      obtain ⟨hsame, htracking⟩ := Tracker.eq_of_ofTracking? h
      exact ⟨hsame ▸ hgeometry, htracking⟩

/-- A setup has a tracker exactly if it passes its check. -/
theorem check_eq_ok_iff {s : Setup} : s.check = .ok () ↔ ∃ t, s.tracker? = .ok t := by
  rw [check, tracker?]
  cases hgeometry : s.detector.geometry? with
  | error e =>
      refine iff_of_false ?_ (by simp)
      cases s.tracking.check <;> simp
  | ok geometry =>
      show _ ↔ ∃ t, Tracker.ofTracking? geometry s.tracking = .ok t
      rw [Tracker.exists_ofTracking?_iff]
      cases s.tracking.check <;> simp

end Setup

/-! ## One event after the other -/

/-- An event as a run has it: so many rays, points found by the chambers, and what the tracker
makes of them. -/
structure RunEvent.Tracked (tracker : Tracker Float) (rays : Nat) (e : RunEvent) : Prop where
  /-- The result is that of the tracker. -/
  result_eq : e.result = tracker.process e.generated.points
  /-- All rays are in the truth. -/
  length_truth : e.generated.truth.length = rays
  /-- The points were found by the detector of the tracker. -/
  found : ∀ p ∈ e.generated.points, p.FoundBy tracker.fitter

theorem length_runEvents (tracker : Tracker Float) (generator : Generator) (rays count : Nat)
    (stream : Stream) : (runEvents tracker generator rays count stream).length = count := by
  induction count generalizing stream with
  | zero => rfl
  | succ count ih => exact congrArg (· + 1) (ih _)

theorem tracked_of_mem_runEvents {tracker : Tracker Float} {conditions : Conditions}
    {rays count : Nat} {stream : Stream} {e : RunEvent}
    (he : e ∈ runEvents tracker ⟨tracker.fitter, conditions⟩ rays count stream) :
    e.Tracked tracker rays := by
  induction count generalizing stream with
  | zero => cases he
  | succ count ih =>
      rcases List.mem_cons.mp he with rfl | he
      · obtain ⟨htruth, hfound⟩ :=
          (⟨tracker.fitter, conditions⟩ : Generator).always_generate rays stream
        exact ⟨rfl, htruth, hfound⟩
      · exact ih he

/-- With room for one event there is room for all of them. -/
theorem runEvents?_of_hasRoom (tracker : Tracker Float) {generator : Generator} {rays : Nat}
    (h : generator.HasRoom rays) (count : Nat) (stream : Stream) :
    runEvents? tracker generator rays count stream =
      .ok (runEvents tracker generator rays count stream) := by
  induction count generalizing stream with
  | zero => rfl
  | succ count ih =>
      rw [runEvents?, Generator.generate?_of_hasRoom h]
      simp only [ih]
      rfl

/-- Without room for an event none is ever reached. -/
theorem runEvents?_of_not_hasRoom (tracker : Tracker Float) {generator : Generator} {rays : Nat}
    (h : ¬generator.HasRoom rays) {count : Nat} (hcount : count ≠ 0) (stream : Stream) :
    runEvents? tracker generator rays count stream = .error [] := by
  obtain ⟨count, rfl⟩ := Nat.exists_eq_succ_of_ne_zero hcount
  rw [runEvents?, Generator.generate?_of_not_hasRoom h]

/-! ## Runs -/

namespace Runner

variable (r : Runner) (s : Scenario)

/-- A scenario sets nothing that the check looks at. -/
theorem check_setupFor : (r.setupFor s).check = r.setup.check := rfl

/-- A run over a usable setup, with its tracker. -/
theorem execute_of_check (hvalid : r.setup.check = .ok ()) :
    ∃ tracker : Tracker Float, r.setup.detector.geometry? = .ok tracker.geometry ∧
      tracker.tracking = s.profile.apply r.setup.tracking ∧
      (r.execute s).events = r.eventsOf s tracker ∧
      (r.execute s).result.metrics = metricsOf (r.eventsOf s tracker) := by
  obtain ⟨tracker, htracker⟩ := Setup.check_eq_ok_iff.mp ((r.check_setupFor s).trans hvalid)
  obtain ⟨hgeometry, htracking⟩ := Setup.eq_of_tracker? htracker
  refine ⟨tracker, hgeometry, htracking, ?_, ?_⟩ <;> rw [execute, htracker] <;> rfl

/-- A run over another setup has no events and measures nothing. -/
theorem execute_of_check_ne (hinvalid : r.setup.check ≠ .ok ()) :
    (r.execute s).events = [] ∧ (r.execute s).result.metrics = Metrics.zero := by
  unfold execute
  split
  · exact ⟨rfl, rfl⟩
  · next tracker htracker =>
      exact absurd (Setup.check_eq_ok_iff.mpr ⟨tracker, htracker⟩) hinvalid

variable {r s}

theorem length_eventsOf (tracker : Tracker Float) : (r.eventsOf s tracker).length = r.events :=
  length_runEvents _ _ _ _ _

theorem tracked_of_mem_eventsOf {tracker : Tracker Float} {e : RunEvent}
    (he : e ∈ r.eventsOf s tracker) : e.Tracked tracker s.profile.raysPerEvent :=
  tracked_of_mem_runEvents he

/-! ## Room for a run -/

/-- Whether there is room for the events of a run: it has none, or the chambers of its detector can
be listed. -/
def HasRoom (r : Runner) : Prop := r.events = 0 ∨ Addressable 24 r.setup.detector.numChambers

instance (r : Runner) : Decidable r.HasRoom := inferInstanceAs (Decidable (_ ∨ _))

/-- An event of a scenario takes no more room than the chambers of its detector. -/
theorem hasRoom_iff_of_tracker? {tracker : Tracker Float}
    (htracker : (r.setupFor s).tracker? = .ok tracker) :
    (⟨tracker.fitter, s.profile.conditions⟩ : Generator).HasRoom s.profile.raysPerEvent ↔
      Addressable 24 r.setup.detector.numChambers := by
  have hchambers : tracker.geometry.numChambers = r.setup.detector.numChambers :=
    (Geometry.eq_of_ofPlanes? (Setup.eq_of_tracker? htracker).1).2
  have hrays : Addressable 32 s.profile.raysPerEvent := by cases s <;> decide
  rw [← hchambers]
  exact and_iff_left hrays

/-- With room for its events a run does not break off. -/
theorem execute?_of_hasRoom (h : r.HasRoom) : r.execute? s = .ok (r.execute s) := by
  unfold execute? execute
  split
  · rfl
  · next tracker htracker =>
      have hevents : r.eventsOf? s tracker = .ok (r.eventsOf s tracker) := by
        rcases h with hnone | hroom
        · rw [eventsOf?, eventsOf, hnone]
          rfl
        · exact runEvents?_of_hasRoom tracker ((hasRoom_iff_of_tracker? htracker).mpr hroom) _ _
      rw [hevents]

/-- Without room it breaks off as soon as it is to have an event. -/
theorem execute?_of_not_hasRoom (hvalid : r.setup.check = .ok ()) (h : ¬r.HasRoom) :
    r.execute? s = .error [r.opening s] := by
  obtain ⟨tracker, htracker⟩ := Setup.check_eq_ok_iff.mp ((r.check_setupFor s).trans hvalid)
  obtain ⟨hsome, hfull⟩ := not_or.mp h
  have hevents : r.eventsOf? s tracker = .error [] :=
    runEvents?_of_not_hasRoom tracker ((hasRoom_iff_of_tracker? htracker).not.mpr hfull) hsome _
  rw [execute?, htracker]
  simp only [hevents]
  rfl

/-- A run over a setup that is not usable has no event to break off at. -/
theorem execute?_of_check_ne (hinvalid : r.setup.check ≠ .ok ()) :
    r.execute? s = .ok (r.execute s) := by
  unfold execute? execute
  split
  · rfl
  · next tracker htracker =>
      exact absurd (Setup.check_eq_ok_iff.mpr ⟨tracker, htracker⟩) hinvalid

/-- What a run gives that does not break off, and when it does not. -/
theorem execute?_eq_ok_iff {run : Run} :
    r.execute? s = .ok run ↔ run = r.execute s ∧ (r.setup.check = .ok () → r.HasRoom) := by
  by_cases hvalid : r.setup.check = .ok ()
  · by_cases hroom : r.HasRoom
    · simp [execute?_of_hasRoom hroom, hroom, eq_comm]
    · simp [execute?_of_not_hasRoom hvalid hroom, hvalid, hroom]
  · simp [execute?_of_check_ne hvalid, hvalid, eq_comm]

end Runner

end DriftChamber
