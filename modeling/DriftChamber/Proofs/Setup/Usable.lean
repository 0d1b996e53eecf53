/-
# Usable setups

The check of a setup is the guard that everything after it relies on.  It asks for what
`Setup.Usable` says (`Setup.check_eq_ok_iff_usable`), and there is a tracker for exactly the setups
that pass it.  A scenario reports an invalid setup exactly for the others: what it says of metrics
never sounds like that (`Scenario.failure?_ne_invalid`).

The check looks at the tracking parameters first, the tracker at the detector, so they differ in
what they report of a setup that is wrong in both.
-/
import DriftChamber.Proofs.Simulation.Events
import DriftChamber.Setup.Stored

namespace DriftChamber

/-! ## The parts of the check -/

section Parts

variable {α : Type} [Scalar α]

theorem Criteria.defect?_eq_none_iff {c : Criteria α} :
    c.defect? = none ↔ Scalar.isPositive c.xt = true ∧ Scalar.isPositive c.yt = true ∧
      Scalar.isPositive c.xpt = true ∧ Scalar.isPositive c.ypt = true := by
  rw [defect?, List.find?_eq_none]
  simp [entries]

omit [Scalar α] in
/-- A map takes positions among the nine coefficients. -/
theorem RayMap.exists_ofIndices?_iff {indices : Vector Nat 4} :
    (∃ map, (RayMap.ofIndices? indices : Except (GeometryError α) RayMap) = .ok map) ↔
      ∀ k : Fin 4, indices.get k < 9 := by
  unfold RayMap.ofIndices?
  split
  · next h => exact iff_of_true ⟨_, rfl⟩ h
  · next h => exact iff_of_false (by simp) h

theorem Tracking.exists_check_iff {t : Tracking α} :
    (∃ map, t.check = .ok map) ↔ t.criteria.defect? = none ∧
      ∃ map, (RayMap.ofIndices? t.rayIndices : Except (GeometryError α) RayMap) = .ok map := by
  rw [check]
  cases t.criteria.defect? with
  | some defect => exact iff_of_false (by simp) (by simp)
  | none =>
      cases (RayMap.ofIndices? t.rayIndices : Except (GeometryError α) RayMap) with
      | error e => exact iff_of_false (by simp [Except.mapError]) (by simp)
      | ok map => exact iff_of_true ⟨map, rfl⟩ ⟨rfl, map, rfl⟩

/-- The map of checked parameters is the one at their positions. -/
theorem Tracking.ofIndices?_of_check {t : Tracking α} {map : RayMap} (h : t.check = .ok map) :
    (RayMap.ofIndices? t.rayIndices : Except (GeometryError α) RayMap) = .ok map := by
  rw [check] at h
  cases hdefect : t.criteria.defect? with
  | some defect =>
      rw [hdefect] at h
      cases h
  | none =>
      rw [hdefect] at h
      cases hmap : (RayMap.ofIndices? t.rayIndices : Except (GeometryError α) RayMap) with
      | error e =>
          rw [hmap] at h
          cases h
      | ok found =>
          rw [hmap] at h
          cases h
          rfl

end Parts

/-! ## Usable setups -/

namespace Setup

/-- What a setup has to satisfy to be run. -/
structure Usable (s : Setup) : Prop where
  /-- The tolerances are finite and positive. -/
  xt_pos : Scalar.isPositive s.tracking.criteria.xt = true
  yt_pos : Scalar.isPositive s.tracking.criteria.yt = true
  xpt_pos : Scalar.isPositive s.tracking.criteria.xpt = true
  ypt_pos : Scalar.isPositive s.tracking.criteria.ypt = true
  /-- The ray parameters are sought among the nine coefficients. -/
  rayIndices_lt : ∀ k : Fin 4, s.tracking.rayIndices.get k < 9
  /-- There is a plane. -/
  planes_ne_nil : s.detector.planes ≠ []
  /-- Every plane is in a chamber of the detector, with a finite positive uncertainty and finite
  coefficients. -/
  sound : ∀ p ∈ s.detector.planes, p.toPlane.Sound s.detector.numChambers

variable {s : Setup}

theorem exists_geometry?_iff : (∃ g, s.detector.geometry? = .ok g) ↔
    s.detector.planes ≠ [] ∧ ∀ p ∈ s.detector.planes, p.toPlane.Sound s.detector.numChambers := by
  rw [Detector.geometry?, Geometry.exists_ofPlanes?_iff, Ne, List.map_eq_nil_iff,
    List.forall_mem_map]

/-- A setup passes its check if both of its parts do. -/
theorem check_eq_ok_iff_parts : s.check = .ok () ↔
    (∃ map, s.tracking.check = .ok map) ∧ ∃ g, s.detector.geometry? = .ok g := by
  rw [check]
  cases s.tracking.check with
  | error e => exact iff_of_false (by simp) (by simp)
  | ok map => cases s.detector.geometry? <;> simp

/-- The check accepts exactly the usable setups. -/
theorem check_eq_ok_iff_usable : s.check = .ok () ↔ s.Usable := by
  rw [check_eq_ok_iff_parts, Tracking.exists_check_iff, Criteria.defect?_eq_none_iff,
    RayMap.exists_ofIndices?_iff, exists_geometry?_iff]
  constructor
  · rintro ⟨⟨⟨hxt, hyt, hxpt, hypt⟩, hindices⟩, hne, hsound⟩
    exact ⟨hxt, hyt, hxpt, hypt, hindices, hne, hsound⟩
  · intro h
    exact ⟨⟨⟨h.xt_pos, h.yt_pos, h.xpt_pos, h.ypt_pos⟩, h.rayIndices_lt⟩, h.planes_ne_nil, h.sound⟩

/-- A setup that is read from text is one that passed its check. -/
theorem check_of_ofText? {text : String} (h : ofText? text = .ok s) : s.check = .ok () := by
  unfold ofText? at h
  split at h
  · cases h
  · split at h
    · cases h
    · next hcheck =>
        cases h
        exact hcheck

/-- So is one that is read from a file. -/
theorem check_of_ofFile? {content : Except FileFailure ByteArray} (h : ofFile? content = .ok s) :
    s.check = .ok () := by
  unfold ofFile? at h
  split at h
  · cases h
  · split at h
    · cases h
    · exact check_of_ofText? h

/-- A tracker works on the table and the map that the setup describes. -/
theorem parts_of_tracker? {t : Tracker Float} (h : s.tracker? = .ok t) :
    s.detector.geometry? = .ok t.geometry ∧
      (RayMap.ofIndices? s.tracking.rayIndices : Except (GeometryError Float) RayMap) =
        .ok t.map := by
  obtain ⟨hgeometry, htracking⟩ := eq_of_tracker? h
  exact ⟨hgeometry, htracking ▸ Tracking.ofIndices?_of_check t.checked⟩

/-- Of two faults the check reports the one of the tracking parameters, the tracker the one of the
detector. -/
theorem check_and_tracker?_of_errors {e : TrackingError Float} {g : GeometryError Float}
    (htracking : s.tracking.check = .error e) (hgeometry : s.detector.geometry? = .error g) :
    s.check = .error e ∧ s.tracker? = .error (.geometry g) := by
  rw [check, tracker?, htracking, hgeometry]
  exact ⟨rfl, rfl⟩

end Setup

/-! ## What a run reports -/

/-- A number starts with a digit. -/
theorem exists_digit_toList_repr (n : Nat) :
    ∃ d ds, (toString n).toList = d :: ds ∧ d.isDigit = true := by
  obtain ⟨d, ds, hdigits⟩ := List.exists_cons_of_ne_nil (Nat.toDigits_ne_nil (n := n) (b := 10))
  refine ⟨d, ds, Nat.toList_repr.trans hdigits, ?_⟩
  exact Nat.isDigit_of_mem_toDigits (by decide) (by decide) (hdigits ▸ List.mem_cons_self)

/-- Nothing that is said of metrics starts with an `I`: it starts with another word, or with a
number. -/
theorem Scenario.head?_requirements {s : Scenario} {m : Metrics} {requirement : Bool × String}
    (h : requirement ∈ s.requirements m) : requirement.2.toList.head? ≠ some 'I' := by
  unfold requirements at h
  rw [List.mem_append, List.mem_singleton] at h
  rcases h with h | rfl
  · cases s <;> simp only [List.mem_cons, List.not_mem_nil, or_false] at h
    case overflow =>
      obtain ⟨d, ds, hdigits, hd⟩ := exists_digit_toList_repr m.tracksInAborted
      rcases h with rfl | rfl
      · simp [String.toList_append]
      · rw [String.toList_append, hdigits]
        rintro hhead
        cases Option.some.inj hhead
        exact absurd hd (by decide)
    case singleTrack => rcases h with rfl | rfl | rfl <;> simp [String.toList_append]
    case singleStub => rcases h with rfl | rfl <;> simp [String.toList_append]
    all_goals
      rw [h]
      simp [String.toList_append]
  · simp

/-- So a failure that is judged by metrics is never taken for that of an invalid setup. -/
theorem Scenario.failure?_ne_invalid (s : Scenario) (m : Metrics) (why : String) :
    s.failure? m ≠ some ("Invalid setup: " ++ why) := by
  intro h
  obtain ⟨requirement, hfound, htext⟩ := Option.map_eq_some_iff.mp h
  refine s.head?_requirements (List.mem_of_find?_eq_some hfound) ?_
  rw [htext, String.toList_append]
  rfl

namespace Runner

variable (r : Runner) (s : Scenario)

/-- A scenario reports an invalid setup, and no event, exactly if the setup does not pass its
check. -/
theorem reports_invalid_iff :
    ((∃ why, (r.run s).failure? = some ("Invalid setup: " ++ why)) ∧
      (r.run s).metrics.events = 0) ↔ r.setup.check ≠ .ok () := by
  have hsame := r.check_setupFor s
  unfold run execute
  split
  · next e herror =>
      refine iff_of_true ⟨⟨_, rfl⟩, rfl⟩ fun hvalid => ?_
      obtain ⟨t, ht⟩ := Setup.check_eq_ok_iff.mp (hsame.trans hvalid)
      rw [herror] at ht
      cases ht
  · next t ht =>
      refine iff_of_false ?_ ?_
      · rintro ⟨⟨why, hwhy⟩, -⟩
        exact s.failure?_ne_invalid _ why hwhy
      · exact not_not_intro (hsame.symm.trans (Setup.check_eq_ok_iff.mpr ⟨t, ht⟩))

end Runner

/-! ## The guard -/

/-- The check of a setup is the guard that all the rest relies on.  It accepts exactly the usable
setups, which are those that have a tracker; a scenario of any seed and number of events reports an
invalid setup, without any event, exactly for the others.  So a setup that was read from text has a
tracker, and its table and its map are accepted wherever they are asked for.  Where both parts of a
setup are wrong, the check reports the tracking parameters and the tracker the detector. -/
theorem Setup.check_guards (s : Setup) :
    (s.check = .ok () ↔ s.Usable) ∧
      (s.check = .ok () ↔ ∃ t, s.tracker? = .ok t) ∧
      (∀ seed events scenario,
        ((∃ why, ((⟨seed, events, s⟩ : Runner).run scenario).failure? =
            some ("Invalid setup: " ++ why)) ∧
          ((⟨seed, events, s⟩ : Runner).run scenario).metrics.events = 0) ↔ s.check ≠ .ok ()) ∧
      (∀ text, ofText? text = .ok s → ∃ t, s.tracker? = .ok t ∧
        s.detector.geometry? = .ok t.geometry ∧
        (RayMap.ofIndices? s.tracking.rayIndices : Except (GeometryError Float) RayMap) =
          .ok t.map) ∧
      ∀ e g, s.tracking.check = .error e → s.detector.geometry? = .error g →
        s.check = .error e ∧ s.tracker? = .error (.geometry g) := by
  refine ⟨check_eq_ok_iff_usable, check_eq_ok_iff,
    fun seed events scenario => (⟨seed, events, s⟩ : Runner).reports_invalid_iff scenario, ?_,
    fun e g htracking hgeometry => check_and_tracker?_of_errors htracking hgeometry⟩
  intro text htext
  obtain ⟨t, ht⟩ := check_eq_ok_iff.mp (check_of_ofText? htext)
  exact ⟨t, ht, parts_of_tracker? ht⟩

namespace Setup

/-- A setup without planes and without a horizontal tolerance. -/
def bare : Setup := ⟨⟨1, []⟩, { Tracking.standard with criteria := ⟨0.0, 1.0, 0.05, 0.05⟩ }⟩

/-- A setup of one plane that is parallel to no axis. -/
def onePlane : Setup :=
  ⟨⟨1, [⟨"u", 1, 0.5, .coefficients #v[0, 0, 3, 4, 0.5, 0.75, 0, 0, 1]⟩]⟩, Tracking.standard⟩

/-- The text of that setup, written by hand. -/
def onePlaneText : String :=
  "\x7b \"detector\": [1, [\x7b\"name\": \"u\", \"chamber\": 1, \"sigma\": 0.5, " ++
    "\"coefficients\": [0, 0, 3, 4, 0.5, 0.75, 0, 0, 1]\x7d]] \x7d"

/-- Both faults of the one setup, and the tracker of the other. -/
theorem check_guards_bare_onePlane :
    bare.tracking.check = .error (.invalidCriterion .xt 0.0) ∧
      bare.detector.geometry? = .error .emptyTable ∧
      bare.check = .error (.invalidCriterion .xt 0.0) ∧
      bare.tracker? = .error (.geometry .emptyTable) ∧
      ofText? onePlaneText = .ok onePlane ∧ ∃ t, onePlane.tracker? = .ok t := by
  have htracking : bare.tracking.check = .error (.invalidCriterion .xt 0.0) := by decide +kernel
  have hgeometry : bare.detector.geometry? = .error .emptyTable := rfl
  have htext : ofText? onePlaneText = .ok onePlane := by decide +kernel
  obtain ⟨-, -, -, -, hfaults⟩ := Setup.check_guards bare
  obtain ⟨-, -, -, htracker, -⟩ := Setup.check_guards onePlane
  obtain ⟨hcheck, herror⟩ := hfaults _ _ htracking hgeometry
  obtain ⟨t, ht, -⟩ := htracker onePlaneText htext
  exact ⟨htracking, hgeometry, hcheck, herror, htext, t, ht⟩

end Setup

end DriftChamber
