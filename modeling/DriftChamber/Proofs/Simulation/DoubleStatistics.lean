/-
# What the statistics of double residuals count

The exchange of hits between two tracks fills one slot for each plane that the other track hit
(`EventResult.filled`).  The statistics see nothing but the lists of double residuals, where a plane
without a slot has a mark, and they count what differs from the mark.  So a slot is passed over if
its value happens to be the mark, and all others are counted
(`Fitter.filter_doubleResiduals_confront`).  An event adds as many terms as it has slots exactly if
none of them meets the mark, and the root mean square of a run is that of the slots that do not
(`Tracker.record_counts_unmarked`).
-/
import DriftChamber.Proofs.Simulation.SingleStub

namespace DriftChamber

/-! ## Slots -/

section Slots

variable {α : Type} [Scalar α]

/-- The double residual of a track against hits on the plane at an index: measured coordinate of the
last hit there minus the one that the ray of the track foretells. -/
def Geometry.slot? (g : Geometry α) (t : Track α) (hits : List (Hit α)) (index : Nat) : Option α :=
  (g.plane? (index + 1)).bind fun plane =>
    (lastOn? hits (index + 1)).map fun hit => hit.coord - plane.project t.ray

/-- The double residuals of a track on all planes that were hit. -/
def Geometry.slots (g : Geometry α) (t : Track α) (hits : List (Hit α)) : List α :=
  (List.range g.numPlanes).filterMap (g.slot? t hits)

/-- The double residuals that were worked out in an event, each track against the hits of the other.
-/
def EventResult.filled (g : Geometry α) (r : EventResult α) : List α :=
  if r.doubleResiduals then
    match r.tracks with
    | [first, second] => g.slots first second.hits ++ g.slots second first.hits
    | _ => []
  else []

/-- A plane that was hit and that the detector has is a slot. -/
theorem Geometry.isSome_slot?_iff (g : Geometry α) (t : Track α) (hits : List (Hit α))
    {index : Nat} (h : index < g.numPlanes) :
    (g.slot? t hits index).isSome = true ↔ index + 1 ∈ hits.map (·.plane) := by
  have hplane : ∃ plane, g.plane? (index + 1) = some plane := ⟨_, List.getElem?_eq_getElem h⟩
  obtain ⟨plane, hplane⟩ := hplane
  rw [slot?, hplane, Option.bind_some, Option.isSome_map]
  constructor
  · intro hsome
    obtain ⟨hit, hlast⟩ := Option.isSome_iff_exists.mp hsome
    obtain ⟨hmem, hnumber⟩ := mem_of_lastOn? hlast
    exact List.mem_map.mpr ⟨hit, hmem, hnumber⟩
  · intro hmem
    obtain ⟨hit, hhit, hnumber⟩ := List.mem_map.mp hmem
    obtain ⟨last, hlast⟩ := exists_lastOn? hhit
    rw [← hnumber, hlast]
    rfl

/-- Number of planes of the detector that were hit. -/
def Geometry.hitPlanes (g : Geometry α) (hits : List (Hit α)) : Nat :=
  (List.range g.numPlanes).countP fun index => index + 1 ∈ hits.map (·.plane)

/-- There are as many slots as planes of the detector that were hit. -/
theorem Geometry.length_slots (g : Geometry α) (t : Track α) (hits : List (Hit α)) :
    (g.slots t hits).length = g.hitPlanes hits := by
  rw [slots, hitPlanes, List.length_filterMap_eq_countP]
  refine List.countP_congr fun index hindex => ?_
  rw [g.isSome_slot?_iff t hits (List.mem_range.mp hindex), decide_eq_true_iff]

/-- Values with a mark where there is none: without the marks they are the values there are. -/
theorem filter_map_getD {β γ : Type} {keep : γ → Bool} {mark : γ} (hmark : keep mark = false)
    (value? : β → Option γ) (bs : List β) :
    (bs.map fun b => (value? b).getD mark).filter keep = (bs.filterMap value?).filter keep := by
  induction bs with
  | nil => rfl
  | cons b bs ih =>
      rw [List.map_cons, List.filter_cons, ih]
      cases hvalue : value? b with
      | none => rw [Option.getD_none, hmark, List.filterMap_cons_none hvalue]; rfl
      | some v => rw [Option.getD_some, List.filterMap_cons_some hvalue, List.filter_cons]

namespace Fitter

/-- A track without double residuals is filled in slot by slot. -/
theorem doubleResiduals_confront {f : Fitter α} {t : Track α}
    (hlength : t.doubleResiduals.length = f.geometry.numPlanes)
    (hunset : ∀ r ∈ t.doubleResiduals, r = Track.residualUnset) (hits : List (Hit α)) :
    (f.confront t t.ray hits).doubleResiduals = (List.range f.geometry.numPlanes).map
      fun index => (f.geometry.slot? t hits index).getD Track.residualUnset := by
  have hblank : t.doubleResiduals = List.replicate f.geometry.numPlanes Track.residualUnset :=
    List.eq_replicate_iff.mpr ⟨hlength, hunset⟩
  refine List.ext_getElem? fun index => ?_
  have hslot : (f.confront t t.ray hits).doubleResiduals[index]? =
      (t.doubleResiduals[index]?).map fun old => (f.geometry.slot? t hits index).getD old :=
    f.doubleResidual?_confront t t.ray hits (index + 1)
  rw [hslot, hblank, List.getElem?_map, List.getElem?_replicate]
  by_cases hindex : index < f.geometry.numPlanes
  · rw [if_pos hindex, List.getElem?_range hindex]
    rfl
  · rw [if_neg hindex, List.getElem?_eq_none (by rw [List.length_range]; omega)]
    rfl

/-- Without the marks, the double residuals are the slots that do not meet the mark. -/
theorem filter_doubleResiduals_confront {f : Fitter α} {t : Track α} {keep : α → Bool}
    (hmark : keep Track.residualUnset = false)
    (hlength : t.doubleResiduals.length = f.geometry.numPlanes)
    (hunset : ∀ r ∈ t.doubleResiduals, r = Track.residualUnset) (hits : List (Hit α)) :
    (f.confront t t.ray hits).doubleResiduals.filter keep =
      (f.geometry.slots t hits).filter keep := by
  rw [doubleResiduals_confront hlength hunset, filter_map_getD hmark]
  rfl

end Fitter

end Slots

/-! ## One event -/

/-- Whether a value is not the mark of a plane without a double residual. -/
def isUnmarked (r : Float) : Bool := r != Track.residualUnset

theorem isUnmarked_residualUnset : isUnmarked Track.residualUnset = false := by decide +kernel

/-- The double residuals that the statistics take from an event. -/
def EventResult.counted (r : EventResult Float) : List Float :=
  if r.doubleResiduals then Accumulator.doubleValues r.tracks else []

namespace Tracker

variable (t : Tracker Float)

/-- Fits of candidates have room for a double residual on every plane, and have none yet. -/
theorem doubleResiduals_of_mem_fits {found : List (Candidate Float)} {track : Track Float}
    (h : track ∈ (found.map (Candidate.toTrack t.linker.numPlanes)).map t.fitter.fit) :
    track.doubleResiduals.length = t.geometry.numPlanes ∧
      ∀ r ∈ track.doubleResiduals, r = Track.residualUnset := by
  rw [List.map_map, List.mem_map] at h
  obtain ⟨c, -, rfl⟩ := h
  exact ⟨(t.fitter.alike_fit _).length_doubleResiduals.trans
    (c.length_toTrack t.linker.numPlanes).2.2, t.fitter.doubleResiduals_fit _⟩

theorem counted_finish (found : List (Candidate Float)) (d : Diagnostics Float) :
    (t.finish (found.map (Candidate.toTrack t.linker.numPlanes)) d).counted =
      ((t.finish (found.map (Candidate.toTrack t.linker.numPlanes)) d).filled
        t.geometry).filter isUnmarked := by
  rcases t.finish_cases (found.map (Candidate.toTrack t.linker.numPlanes)) d with
    heq | ⟨-, first, second, hfits, -, -, heq⟩
  · rw [heq]
    rfl
  · have hroom : ∀ track ∈ [first, second],
        track.doubleResiduals.length = t.geometry.numPlanes ∧
          ∀ r ∈ track.doubleResiduals, r = Track.residualUnset := by
      rw [← hfits]
      exact fun track htrack => t.doubleResiduals_of_mem_fits htrack
    obtain ⟨hlength₁, hunset₁⟩ := hroom first (by simp)
    obtain ⟨hlength₂, hunset₂⟩ := hroom second (by simp)
    have hfirst := Fitter.filter_doubleResiduals_confront (f := t.fitter)
      isUnmarked_residualUnset hlength₁ hunset₁ second.hits
    have hsecond := Fitter.filter_doubleResiduals_confront (f := t.fitter)
      isUnmarked_residualUnset hlength₂ hunset₂ first.hits
    rw [heq]
    show ([t.fitter.confront first first.ray second.hits,
        t.fitter.confront second second.ray first.hits].flatMap
          (·.doubleResiduals)).filter isUnmarked =
      (t.geometry.slots first second.hits ++ t.geometry.slots second first.hits).filter
        isUnmarked
    rw [List.flatMap_cons, List.flatMap_singleton, List.filter_append, hfirst, hsecond,
      List.filter_append]
    rfl

/-- The statistics take from an event the slots that do not meet the mark. -/
theorem counted_process (points : List (SpacePoint Float)) :
    (t.process points).counted = ((t.process points).filled t.geometry).filter isUnmarked := by
  rcases t.process_cases points with ⟨-, heq⟩ | ⟨-, heq⟩ | ⟨-, -, heq⟩
  · rw [heq]
    rfl
  · rw [heq]
    rfl
  · rw [heq]
    exact t.counted_finish _ _

end Tracker

/-! ## Statistics -/

namespace Accumulator

theorem doubleCount_record (a : Accumulator) (truth : List (Ray Float)) (r : EventResult Float) :
    (a.record truth r).doubleCount = a.doubleCount + r.counted.length := rfl

theorem doubleSum_record (a : Accumulator) (truth : List (Ray Float)) (r : EventResult Float) :
    (a.record truth r).doubleSum = r.counted.foldl (fun s x => s + x * x) a.doubleSum := rfl

/-- Over several events the terms of the statistics are those of the events, in order. -/
theorem foldl_record_doubles (run : List RunEvent) (a : Accumulator) :
    (run.foldl (fun a e => a.record e.generated.truth e.result) a).doubleCount =
        a.doubleCount + (run.flatMap fun e => e.result.counted).length ∧
      (run.foldl (fun a e => a.record e.generated.truth e.result) a).doubleSum =
        (run.flatMap fun e => e.result.counted).foldl (fun s x => s + x * x) a.doubleSum := by
  induction run generalizing a with
  | nil => exact ⟨rfl, rfl⟩
  | cons e run ih =>
      obtain ⟨hcount, hsum⟩ := ih (a.record e.generated.truth e.result)
      rw [List.foldl_cons, List.flatMap_cons, List.length_append, List.foldl_append, hcount, hsum,
        doubleCount_record, doubleSum_record, Nat.add_assoc]
      exact ⟨rfl, rfl⟩

/-- The root mean square of values, as the statistics work it out; of none it is zero. -/
def rootMeanSquare (values : List Float) : Float :=
  (mean (values.foldl (fun s x => s + x * x) 0.0) values.length).sqrt

end Accumulator

/-- What the statistics make of the double residuals.  An event with double residuals has two
tracks, and a slot in each of them for every plane that the other one hit.  It adds its slots but
for those that meet the mark, their number to the count and their squares to the sum.  So all slots
are counted exactly if none meets the mark.  The root mean square of a run is that of all slots of
its events, but for those that meet the mark. -/
theorem Tracker.record_counts_unmarked (t : Tracker Float) :
    (∀ points : List (SpacePoint Float), (t.process points).doubleResiduals = true →
      ∃ first second, (t.process points).tracks = [first, second] ∧
        (t.process points).filled t.geometry =
          t.geometry.slots first second.hits ++ t.geometry.slots second first.hits ∧
        ((t.process points).filled t.geometry).length =
          t.geometry.hitPlanes second.hits + t.geometry.hitPlanes first.hits) ∧
      (∀ (points : List (SpacePoint Float)) (a : Accumulator) (truth : List (Ray Float)),
        (a.record truth (t.process points)).doubleCount =
            a.doubleCount + (((t.process points).filled t.geometry).filter isUnmarked).length ∧
          (a.record truth (t.process points)).doubleSum =
            (((t.process points).filled t.geometry).filter isUnmarked).foldl
              (fun s x => s + x * x) a.doubleSum ∧
          ((a.record truth (t.process points)).doubleCount =
              a.doubleCount + ((t.process points).filled t.geometry).length ↔
            ∀ r ∈ (t.process points).filled t.geometry, isUnmarked r = true)) ∧
      ∀ run : List RunEvent, (∀ e ∈ run, e.result = t.process e.generated.points) →
        (metricsOf run).rmsDoubleResidual = Accumulator.rootMeanSquare
          ((run.flatMap fun e => e.result.filled t.geometry).filter isUnmarked) := by
  refine ⟨?_, ?_, ?_⟩
  · intro points hdouble
    obtain ⟨-, first, second, htracks, -, -⟩ := t.process_of_doubleResiduals points hdouble
    have hfilled : (t.process points).filled t.geometry =
        t.geometry.slots first second.hits ++ t.geometry.slots second first.hits := by
      rw [EventResult.filled, if_pos hdouble, htracks]
    refine ⟨first, second, htracks, hfilled, ?_⟩
    rw [hfilled, List.length_append, t.geometry.length_slots, t.geometry.length_slots]
  · intro points a truth
    rw [Accumulator.doubleCount_record, Accumulator.doubleSum_record, t.counted_process]
    refine ⟨rfl, rfl, ?_⟩
    rw [Nat.add_left_cancel_iff, List.length_filter_eq_length_iff]
  · intro run hrun
    have hcounted : (run.flatMap fun e => e.result.counted) =
        (run.flatMap fun e => e.result.filled t.geometry).filter isUnmarked := by
      rw [List.filter_flatMap]
      refine List.flatMap_congr fun e he => ?_
      rw [hrun e he, t.counted_process]
    obtain ⟨hcount, hsum⟩ := Accumulator.foldl_record_doubles run Accumulator.zero
    rw [hcounted] at hcount hsum
    rw [metricsOf, Accumulator.finish, hcount, hsum, Accumulator.rootMeanSquare]
    show (Accumulator.mean _ (0 + _)).sqrt = _
    rw [Nat.zero_add]
    rfl

/-- One event of the axial detector with a poor plane in its second chamber. -/
def markedRunner : Runner where
  seed := 200
  events := 1
  setup :=
    ⟨⟨2, (Detector.axialChamber 1 (-40.0) ++ Detector.axialChamber 2 40.0).modify 7
      fun plane => { plane with sigma := 758.75821383014 }⟩, Tracking.standard⟩

/-- The event has double residuals: ten slots, of which nine are counted. -/
theorem exists_markedEvent : ∃ (t : Tracker Float) (e : RunEvent),
    markedRunner.setup.detector.geometry? = .ok t.geometry ∧
      (markedRunner.execute .singleStub).events = [e] ∧
      e.result = t.process e.generated.points ∧ e.result.doubleResiduals = true ∧
      (e.result.filled t.geometry).length = 10 ∧ e.result.counted.length = 9 := by
  have hvalid : markedRunner.setup.check = .ok () := by decide +kernel
  have hseen : (markedRunner.setup.detector.geometry?.toOption.map fun g =>
      (markedRunner.execute .singleStub).events.map fun e =>
        (e.result.doubleResiduals, (e.result.filled g).length, e.result.counted.length)) =
      some [(true, 10, 9)] := by decide +kernel
  obtain ⟨t, hgeometry, -, hevents, -⟩ := markedRunner.execute_of_check .singleStub hvalid
  obtain ⟨e, hevent⟩ := List.length_eq_one_iff.mp
    (Runner.length_eventsOf (r := markedRunner) (s := .singleStub) t)
  have htracked : e.Tracked t _ :=
    Runner.tracked_of_mem_eventsOf (r := markedRunner) (s := .singleStub) (by simp [hevent])
  rw [hgeometry, hevents, hevent] at hseen
  simp only [Except.toOption, Option.map_some, List.map_cons, List.map_nil, Option.some_inj,
    List.cons.injEq, and_true, Prod.mk.injEq] at hseen
  obtain ⟨hdouble, hfilled, hcounted⟩ := hseen
  exact ⟨t, e, hgeometry, hevents.trans hevent, htracked.result_eq, hdouble, hfilled, hcounted⟩

/-- The planes that the two tracks hit are ten, nine double residuals are counted, and the root mean
square is that of those nine. -/
theorem Tracker.record_counts_unmarked_markedRunner : ∃ (t : Tracker Float) (e : RunEvent),
    (markedRunner.execute .singleStub).events = [e] ∧
      (∃ first second, e.result.tracks = [first, second] ∧
        t.geometry.hitPlanes second.hits + t.geometry.hitPlanes first.hits = 10) ∧
      (Accumulator.zero.record e.generated.truth e.result).doubleCount = 9 ∧
      (metricsOf [e]).rmsDoubleResidual = Accumulator.rootMeanSquare
        ((e.result.filled t.geometry).filter isUnmarked) := by
  obtain ⟨t, e, -, hevent, hresult, hdouble, hfilled, hcounted⟩ := exists_markedEvent
  obtain ⟨hslots, hcount, hrun⟩ := record_counts_unmarked t
  rw [hresult] at hdouble hfilled hcounted
  obtain ⟨first, second, htracks, -, hplanes⟩ := hslots e.generated.points hdouble
  refine ⟨t, e, hevent, ?_, ?_, ?_⟩
  · rw [hresult]
    exact ⟨first, second, htracks, hplanes.symm.trans hfilled⟩
  · rw [hresult, (hcount _ _ _).1, ← t.counted_process, hcounted]
    rfl
  · have hmetrics := hrun [e] (by simpa using hresult)
    rwa [List.flatMap_singleton] at hmetrics

/-- So not all slots are counted: one of them meets the mark. -/
theorem Tracker.exists_doubleCount_record_ne : ∃ (t : Tracker Float) (e : RunEvent),
    e ∈ (markedRunner.execute .singleStub).events ∧ e.result = t.process e.generated.points ∧
      e.result.doubleResiduals = true ∧ ∀ a : Accumulator,
        (a.record e.generated.truth e.result).doubleCount ≠
          a.doubleCount + (e.result.filled t.geometry).length := by
  obtain ⟨t, e, -, hevent, hresult, hdouble, hfilled, hcounted⟩ := exists_markedEvent
  refine ⟨t, e, by simp [hevent], hresult, hdouble, fun a => ?_⟩
  rw [Accumulator.doubleCount_record, hfilled, hcounted]
  omega

end DriftChamber
