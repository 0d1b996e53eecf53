/-
# Runs in single-stub mode

Where every point makes a track of its own, the fit of a track goes over the very hits that the
chamber fitted its stub to.  So it finds the stub again (`Track.Reproduces`), unless the point has
four hits only, which leave no degree of freedom.  Double residuals are worked out exactly for one
fitted track in each of the chambers 1 and 2 (`Tracker.doubleResiduals_process_iff`).
-/
import DriftChamber.Proofs.Fitting.DoubleResiduals
import DriftChamber.Proofs.Simulation.Events

namespace DriftChamber

variable {α : Type}

/-! ## The track of one point -/

/-- What the fit makes of a track that has the point at a position as its only member: the stub of
the point, if there is a degree of freedom. -/
structure Track.Reproduces (i : Nat) (p : SpacePoint α) (t : Track α) : Prop where
  /-- The point is the only member. -/
  spacePoints_eq : t.spacePoints = [i]
  /-- The hits are those of the point. -/
  hits_eq : t.hits = p.hits
  /-- A point has four hits at least. -/
  four_le : 4 ≤ t.hits.length
  /-- Four hits leave no degree of freedom. -/
  status_of_four : t.hits.length = 4 → t.status = .underconstrained
  /-- With more hits the stub is found again. -/
  fittedRay?_of_five : 5 ≤ t.hits.length → t.hits.length < 2 ^ 31 → t.fittedRay? = some p.stub
  /-- Nothing else comes of the fit. -/
  fittedRay?_or : t.fittedRay? = some p.stub ∨ t.status = .underconstrained

namespace Track.Reproduces

variable {i : Nat} {p : SpacePoint α} {t : Track α}

/-- Double residuals do not touch the ray. -/
theorem withDoubleResiduals (h : t.Reproduces i p) (values : List α) :
    ({ t with doubleResiduals := values } : Track α).Reproduces i p :=
  ⟨h.spacePoints_eq, h.hits_eq, h.four_le, h.status_of_four, h.fittedRay?_of_five,
    h.fittedRay?_or⟩

theorem fittedRay?_eq (h : t.Reproduces i p) (hfive : 5 ≤ p.hits.length)
    (hsmall : p.hits.length < 2 ^ 31) : t.fittedRay? = some p.stub := by
  rw [← h.hits_eq] at hfive hsmall
  exact h.fittedRay?_of_five hfive hsmall

theorem isFitted_iff (h : t.Reproduces i p) (hsmall : p.hits.length < 2 ^ 31) :
    t.isFitted = true ↔ 5 ≤ p.hits.length := by
  constructor
  · intro hfitted
    by_contra hfew
    rw [← h.hits_eq] at hfew
    have hstatus := h.status_of_four (Nat.le_antisymm (by omega) h.four_le)
    rw [isFitted, hstatus] at hfitted
    cases hfitted
  · intro hfive
    by_contra hfitted
    have hray := h.fittedRay?_eq hfive hsmall
    rw [fittedRay?, if_neg hfitted] at hray
    cases hray

end Track.Reproduces

variable [Scalar α]

/-- The track starts in the chamber of the point. -/
theorem Track.Reproduces.firstChamber?_eq {f : Fitter α} {i : Nat} {p : SpacePoint α}
    {t : Track α} (h : t.Reproduces i p) (hfound : p.FoundBy f) :
    f.firstChamber? t = some p.chamber := by
  have hne : p.hits ≠ [] := List.ne_nil_of_length_pos (by have := hfound.four_le_length; omega)
  rw [Fitter.firstChamber?, h.hits_eq, List.head?_eq_some_head hne]
  exact hfound.chamberOf?_eq (List.head_mem hne)

/-- The fit of a point that a chamber found. -/
theorem Fitter.reproduces_fit {f : Fitter α} {p : SpacePoint α} (hfound : p.FoundBy f) (i : Nat)
    {t : Track α} (hpoints : t.spacePoints = [i]) (hhits : t.hits = p.hits) :
    (f.fit t).Reproduces i p := by
  have hfour := hfound.four_le_length
  have hsolve := hfound.solve_eq
  rw [← hhits] at hfour hsolve
  rcases f.fit_cases t with ⟨hnone, heq⟩ | ⟨-, e, herror, -⟩ | ⟨hfree, ray, hray, heq⟩
  · rw [heq]
    exact ⟨hpoints, hhits, hfour, fun _ => rfl,
      fun hfive hsmall => absurd hnone (degreesOfFreedom_pos hfive hsmall), Or.inr rfl⟩
  · rw [hsolve] at herror
    cases herror
  · rw [hsolve] at hray
    cases hray
    rw [heq]
    exact ⟨hpoints, hhits, hfour,
      fun hexact => absurd (degreesOfFreedom_nonpos (Nat.le_of_eq hexact)) hfree,
      fun _ _ => f.fittedRay?_attach _ _, Or.inl (f.fittedRay?_attach _ _)⟩

/-! ## An event in single-stub mode -/

namespace Tracker

variable (t : Tracker α)

/-- The fitted track of a point alone. -/
def single (entry : SpacePoint α × Nat) : Track α :=
  t.fitter.fit (Candidate.toTrack t.linker.numPlanes [⟨entry.2, entry.1⟩])

variable {t}

theorem reproduces_single {p : SpacePoint α} (hfound : p.FoundBy t.fitter) (i : Nat) :
    (t.single (p, i)).Reproduces i p :=
  Fitter.reproduces_fit hfound i rfl (by simp [Candidate.toTrack])

variable {points : List (SpacePoint α)}

section SingleStub

variable (hmode : t.tracking.singleStub = true) (haborted : (t.process points).isAborted = false)
include hmode haborted

/-- In single-stub mode, an event that is not aborted ends with the fitted track of each point
alone, and with their double residuals. -/
theorem process_singleStub :
    List.Forall₂ (fun entry track => ∃ values,
        track = { t.single entry with doubleResiduals := values })
      points.zipIdx (t.process points).tracks ∧
    (t.process points).doubleResiduals =
      (t.fitter.doubleResiduals? (points.zipIdx.map t.single)).isSome := by
  have hsingle : t.linker.singleStub = true := hmode
  have hfitted : ((t.linker.unbounded points Diagnostics.none).1.map
      (Candidate.toTrack t.linker.numPlanes)).map t.fitter.fit = points.zipIdx.map t.single := by
    rw [Linker.unbounded, if_pos hsingle, members, List.map_map, List.map_map, List.map_map]
    rfl
  rcases t.process_cases points with ⟨-, heq⟩ | ⟨hnil, heq⟩ | ⟨-, -, heq⟩
  · rw [heq] at haborted
    cases haborted
  · rw [hnil] at hfitted
    rw [heq, ← hfitted, List.map_eq_nil_iff.mp hfitted.symm]
    exact ⟨.nil, rfl⟩
  · rw [heq]
    constructor
    · have htracks := t.forall₂_tracks_finish ((t.linker.unbounded points Diagnostics.none).1.map
        (Candidate.toTrack t.linker.numPlanes)) (t.linker.link points Diagnostics.none).diagnostics
      rwa [hfitted, List.forall₂_map_left_iff] at htracks
    · rw [← hfitted, finish]
      simp only [hmode, if_true]

/-- Each point has its track, in the order of the points, and the fit reproduces its stub. -/
theorem forall₂_reproduces (hfound : ∀ p ∈ points, p.FoundBy t.fitter) :
    List.Forall₂ (fun entry track => track.Reproduces entry.2 entry.1)
      points.zipIdx (t.process points).tracks := by
  have hentries : ∀ entry ∈ points.zipIdx, entry.1.FoundBy t.fitter := fun entry hentry =>
    hfound entry.1 (List.fst_mem_of_mem_zipIdx hentry)
  refine ((List.forall₂_and_left _ _).mpr
    ⟨hentries, (process_singleStub hmode haborted).1⟩).imp ?_
  rintro ⟨p, i⟩ track ⟨hp, values, rfl⟩
  exact (reproduces_single hp i).withDoubleResiduals values

/-- Double residuals are worked out exactly if there is one point in chamber 1 and then one in
chamber 2, each with a degree of freedom. -/
theorem doubleResiduals_process_iff (hfound : ∀ p ∈ points, p.FoundBy t.fitter)
    (hsmall : ∀ p ∈ points, p.hits.length < 2 ^ 31) :
    (t.process points).doubleResiduals = true ↔ ∃ first second, points = [first, second] ∧
      first.chamber = 1 ∧ second.chamber = 2 ∧
      5 ≤ first.hits.length ∧ 5 ≤ second.hits.length := by
  rw [(process_singleStub hmode haborted).2, Fitter.isSome_doubleResiduals?_iff]
  -- what the tracks of two points show of the points
  have hpair : ∀ p q : SpacePoint α, points = [p, q] →
      t.fitter.firstChamber? (t.single (p, 0)) = some p.chamber ∧
        t.fitter.firstChamber? (t.single (q, 1)) = some q.chamber ∧
        ((t.single (p, 0)).isFitted = true ↔ 5 ≤ p.hits.length) ∧
        ((t.single (q, 1)).isFitted = true ↔ 5 ≤ q.hits.length) := by
    rintro p q rfl
    rw [List.forall_mem_cons, List.forall_mem_singleton] at hfound hsmall
    have hp := reproduces_single hfound.1 0
    have hq := reproduces_single hfound.2 1
    exact ⟨hp.firstChamber?_eq hfound.1, hq.firstChamber?_eq hfound.2,
      hp.isFitted_iff hsmall.1, hq.isFitted_iff hsmall.2⟩
  constructor
  · rintro ⟨first, second, htracks, hone, htwo, hfirst, hsecond⟩
    have hlength : points.length = 2 := by simpa using congrArg List.length htracks
    obtain ⟨p, q, hpoints⟩ := List.length_eq_two.mp hlength
    obtain ⟨hp, hq, hpfitted, hqfitted⟩ := hpair p q hpoints
    rw [hpoints] at htracks
    cases htracks
    exact ⟨p, q, hpoints, Option.some.inj (hp.symm.trans hone),
      Option.some.inj (hq.symm.trans htwo), hpfitted.mp hfirst, hqfitted.mp hsecond⟩
  · rintro ⟨p, q, hpoints, hone, htwo, hfirst, hsecond⟩
    obtain ⟨hp, hq, hpfitted, hqfitted⟩ := hpair p q hpoints
    refine ⟨t.single (p, 0), t.single (q, 1), by rw [hpoints]; rfl, ?_, ?_, hpfitted.mpr hfirst,
      hqfitted.mpr hsecond⟩
    · rw [hp, hone]
    · rw [hq, htwo]

end SingleStub

end Tracker

/-! ## Runs -/

/-- A run with one track per space point has all its events, and in each that is not aborted the
tracks are those of the points, in order.  A track of four hits is underconstrained; from five hits
on, as far as 32 bits count their degrees of freedom, the fit gives the very stub of the point, and
nothing else ever comes of it.  There are double residuals exactly for a point in chamber 1 and then
one in chamber 2, both of five hits at least. -/
theorem Runner.reproduces_stubs (r : Runner) (hvalid : r.setup.check = .ok ()) :
    (r.execute .singleStub).events.length = r.events ∧
      ∀ e ∈ (r.execute .singleStub).events, e.result.isAborted = false →
        List.Forall₂ (fun entry track => track.Reproduces entry.2 entry.1)
            e.generated.points.zipIdx e.result.tracks ∧
          ((∀ p ∈ e.generated.points, p.hits.length < 2 ^ 31) →
            (e.result.doubleResiduals = true ↔
              ∃ first second, e.generated.points = [first, second] ∧
                first.chamber = 1 ∧ second.chamber = 2 ∧
                5 ≤ first.hits.length ∧ 5 ≤ second.hits.length)) := by
  obtain ⟨tracker, -, htracking, hevents, -⟩ := r.execute_of_check .singleStub hvalid
  have hmode : tracker.tracking.singleStub = true := by rw [htracking]; rfl
  rw [hevents]
  refine ⟨length_eventsOf tracker, fun e he haborted => ?_⟩
  have htracked := tracked_of_mem_eventsOf he
  rw [htracked.result_eq] at haborted ⊢
  exact ⟨Tracker.forall₂_reproduces hmode haborted htracked.found,
    Tracker.doubleResiduals_process_iff hmode haborted htracked.found⟩

/-- Five planes around a centre, three along the one axis and two along the other. -/
def Detector.axialChamber (chamber : Nat) (center : Float) : List PlaneDescription :=
  [(-2.0, 1.0, 0.0), (-1.0, 0.0, 1.0), (0.0, 1.0, 0.0), (1.0, 1.0, 0.0), (2.0, 0.0, 1.0)].map
    fun (offset, cos, sin) =>
      { name := ""
        chamber := chamber
        sigma := 0.0009765625
        shape := .coefficients
          #v[0, 0, (center + offset) * cos, (center + offset) * sin, cos, sin, 0, 0, 1] }

/-- One event of a detector with such planes in two chambers. -/
def axialRunner : Runner where
  seed := 42
  events := 1
  setup :=
    ⟨⟨2, Detector.axialChamber 1 (-40.0) ++ Detector.axialChamber 2 40.0⟩, Tracking.standard⟩

theorem check_axialRunner : axialRunner.setup.check = .ok () := by decide +kernel

/-- The event has a point in each chamber, and the fits of its two tracks find the stubs again. -/
theorem Runner.reproduces_stubs_axialRunner :
    axialRunner.setup.check = .ok () ∧
      ∃ e ∈ (axialRunner.execute .singleStub).events, ∃ first second,
        e.generated.points = [first, second] ∧ e.result.doubleResiduals = true ∧
          e.result.tracks.map Track.fittedRay? = [some first.stub, some second.stub] := by
  obtain ⟨hlength, hall⟩ := Runner.reproduces_stubs axialRunner check_axialRunner
  obtain ⟨e, hevent⟩ := List.length_eq_one_iff.mp hlength
  have hseen : ((axialRunner.execute .singleStub).events.map fun e =>
      (e.result.isAborted, e.generated.points.map fun p => (p.chamber, p.hits.length))) =
        [(false, [(1, 5), (2, 5)])] := by decide +kernel
  rw [hevent] at hall hseen
  simp only [List.map_cons, List.map_nil, List.cons.injEq, and_true, Prod.mk.injEq] at hseen
  obtain ⟨haborted, hpoints⟩ := hseen
  refine ⟨check_axialRunner, e, by simp [hevent], ?_⟩
  obtain ⟨htracks, hdouble⟩ := hall e (by simp) haborted
  have htwo : e.generated.points.length = 2 := by simpa using congrArg List.length hpoints
  obtain ⟨first, second, hpair⟩ := List.length_eq_two.mp htwo
  simp only [hpair, List.map_cons, List.map_nil, List.cons.injEq, Prod.mk.injEq,
    and_true] at hpoints
  obtain ⟨⟨hone, hfirst⟩, htwo, hsecond⟩ := hpoints
  rw [hpair] at htracks hdouble
  refine ⟨first, second, hpair, ?_, ?_⟩
  · refine (hdouble ?_).mpr ⟨first, second, rfl, hone, htwo, hfirst.ge, hsecond.ge⟩
    rw [List.forall_mem_cons, List.forall_mem_singleton]
    omega
  · generalize e.result.tracks = tracks at htracks ⊢
    obtain _ | ⟨hu, hrest⟩ := htracks
    obtain _ | ⟨hv, ⟨⟩⟩ := hrest
    rw [List.map_cons, List.map_cons, List.map_nil,
      hu.fittedRay?_eq hfirst.ge (by simp [hfirst]),
      hv.fittedRay?_eq hsecond.ge (by simp [hsecond])]

end DriftChamber
