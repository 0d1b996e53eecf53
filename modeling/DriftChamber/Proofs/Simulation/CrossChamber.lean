/-
# Runs across chambers

A track that links chambers has one point in each of two or more of them, and each point brings
hits on planes of its own chamber, no plane twice.  So the hits of the track lie on different
planes, eight at least (`Track.CrossesChambers`).  A fit over such hits can fail only because they
do not determine the ray (`Fitter.status_fit_of_known`), and no hit overwrites the residual of
another.
-/
import DriftChamber.Proofs.Fitting.Residuals
import DriftChamber.Proofs.Simulation.SingleStub

namespace DriftChamber

variable {α : Type}

/-! ## Points of different chambers -/

section Points

variable [Scalar α] {f : Fitter α} {points : List (SpacePoint α)}
  (hfound : ∀ p ∈ points, p.FoundBy f)
include hfound

/-- Points of different chambers share no plane. -/
theorem nodup_planes_of_chambers (hchambers : (points.map (·.chamber)).Nodup) :
    ((points.flatMap (·.hits)).map (·.plane)).Nodup := by
  rw [List.map_flatMap, List.nodup_flatMap]
  refine ⟨fun p hp => (hfound p hp).pairwise_planes.imp Nat.ne_of_lt, ?_⟩
  refine List.Pairwise.imp_of_mem ?_ (List.pairwise_map.mp hchambers)
  intro p q hp hq hne plane hplane hplane'
  obtain ⟨hit, hhit, rfl⟩ := List.mem_map.mp hplane
  obtain ⟨hit', hhit', heq⟩ := List.mem_map.mp hplane'
  have hchamber := (hfound p hp).chamberOf?_eq hhit
  rw [← heq, (hfound q hq).chamberOf?_eq hhit'] at hchamber
  exact hne (Option.some.inj hchamber).symm

/-- Each point brings four hits at least. -/
theorem four_mul_length_le : 4 * points.length ≤ (points.flatMap (·.hits)).length := by
  induction points with
  | nil => exact Nat.le_refl _
  | cons p rest ih =>
      obtain ⟨hp, hrest⟩ := List.forall_mem_cons.mp hfound
      have hfour := hp.four_le_length
      have hothers := ih hrest
      rw [List.flatMap_cons, List.length_append, List.length_cons]
      omega

end Points

/-! ## Tracks across chambers -/

/-- The points that a track links. -/
def Track.memberPoints (points : List (SpacePoint α)) (t : Track α) : List (SpacePoint α) :=
  t.spacePoints.filterMap fun i => points[i]?

/-- A track over points of different chambers, each with hits on planes of its own chamber. -/
structure Track.CrossesChambers [Scalar α] (g : Geometry α) (points : List (SpacePoint α))
    (t : Track α) : Prop where
  /-- All members are points of the event. -/
  lt_length : ∀ i ∈ t.spacePoints, i < points.length
  /-- The hits are those of the members. -/
  hits_eq : t.hits = (t.memberPoints points).flatMap (·.hits)
  /-- The members come from two chambers at least. -/
  exists_chamber_ne : ∃ p ∈ t.memberPoints points, ∃ q ∈ t.memberPoints points,
    p.chamber ≠ q.chamber
  /-- The hits of a member lie on planes of its chamber. -/
  chamberOf?_eq : ∀ p ∈ t.memberPoints points, ∀ hit ∈ p.hits,
    g.chamberOf? hit.plane = some p.chamber
  /-- There are eight hits at least. -/
  eight_le : 8 ≤ t.hits.length
  /-- No plane is hit twice. -/
  nodup_planes : (t.hits.map (·.plane)).Nodup

variable [Scalar α]

namespace Track.CrossesChambers

variable {g : Geometry α} {points : List (SpacePoint α)} {t : Track α}

/-- Only members and hits count. -/
theorem congr (h : t.CrossesChambers g points) {t' : Track α}
    (hpoints : t'.spacePoints = t.spacePoints) (hhits : t'.hits = t.hits) :
    t'.CrossesChambers g points := by
  have hmembers : t'.memberPoints points = t.memberPoints points := by
    rw [memberPoints, memberPoints, hpoints]
  constructor
  · exact hpoints ▸ h.lt_length
  · rw [hhits, hmembers, h.hits_eq]
  · rw [hmembers]
    exact h.exists_chamber_ne
  · rw [hmembers]
    exact h.chamberOf?_eq
  · exact hhits ▸ h.eight_le
  · exact hhits ▸ h.nodup_planes

/-- All planes that were hit exist. -/
theorem exists_plane (h : t.CrossesChambers g points) {hit : Hit α} (hhit : hit ∈ t.hits) :
    ∃ plane, g.plane? hit.plane = some plane := by
  rw [h.hits_eq, List.mem_flatMap] at hhit
  obtain ⟨p, hp, hhit⟩ := hhit
  obtain ⟨plane, hplane, -⟩ := Option.map_eq_some_iff.mp (h.chamberOf?_eq p hp hit hhit)
  exact ⟨plane, hplane⟩

/-- There are no more hits than planes. -/
theorem length_hits_le (h : t.CrossesChambers g points) : t.hits.length ≤ g.numPlanes := by
  have hsub : t.hits.map (·.plane) ⊆ List.range' 1 g.numPlanes := by
    intro number hnumber
    obtain ⟨hit, hhit, rfl⟩ := List.mem_map.mp hnumber
    obtain ⟨plane, hplane⟩ := h.exists_plane hhit
    cases hindex : hit.plane with
    | zero =>
        rw [hindex] at hplane
        cases hplane
    | succ index =>
        rw [hindex] at hplane
        have hlt : index < g.numPlanes := (List.getElem?_eq_some_iff.mp hplane).1
        rw [List.mem_range'_1]
        omega
  simpa using (List.subperm_of_subset h.nodup_planes hsub).length_le

end Track.CrossesChambers

/-! ## The fit of hits on planes that exist -/

namespace Fitter

/-- With enough hits on planes that exist, a fit fails for one reason only. -/
theorem status_fit_of_known {f : Fitter α} {t : Track α} (hfour : 4 ≤ t.hits.length)
    (hknown : ∀ hit ∈ t.hits, ∃ plane, f.geometry.plane? hit.plane = some plane) :
    degreesOfFreedom t.hits.length ≤ 0 ∧ (f.fit t).status = .underconstrained ∨
      (f.fit t).status = .singular ∨ (f.fit t).status = .fitted := by
  rcases f.fit_cases t with ⟨hnone, heq⟩ | ⟨-, e, herror, heq⟩ | ⟨-, ray, -, heq⟩
  · exact Or.inl ⟨hnone, by rw [heq]⟩
  · right; left
    rcases solve_of_known hfour fun hit hhit => Option.isSome_iff_exists.mpr (hknown hit hhit) with
      hsingular | ⟨ray, hray⟩
    · rw [hsingular] at herror
      cases herror
      rw [heq]
      rfl
    · rw [hray] at herror
      cases herror
  · right; right
    rw [heq]
    rfl

end Fitter

/-! ## The candidates of a seed -/

section Candidates

variable {criteria : Criteria α} {points : List (SpacePoint α)} {s : Nat} (hs : s < points.length)
  {candidate : Candidate α} (hcandidate : candidate ∈ candidatesAt criteria points s)
include hs hcandidate

theorem memberPoints_toTrack (numPlanes : Nat) :
    (candidate.toTrack numPlanes).memberPoints points = candidate.map (·.point) := by
  show (candidate.map (·.id)).filterMap (fun i => points[i]?) = _
  rw [List.filterMap_map, ← List.filterMap_eq_map]
  exact List.filterMap_congr fun m hm => getElem?_id_of_mem hs hcandidate hm

/-- The members belong to different chambers. -/
theorem nodup_chambers_of_mem : ((candidate.map (·.point)).map (·.chamber)).Nodup := by
  have hnodup := nodup_chamberAt_of_mem hs hcandidate
  rw [List.map_map] at hnodup ⊢
  refine List.Nodup.of_map some ?_
  rw [List.map_map]
  refine (List.map_congr_left fun m hm => ?_) ▸ hnodup
  rw [Function.comp_apply, chamberAt, getElem?_id_of_mem hs hcandidate hm]
  rfl

/-- A candidate links two points at least. -/
theorem two_le_length_of_mem : 2 ≤ candidate.length := by
  have hne : takenAt criteria points s ≠ [] := by
    intro hnil
    rw [candidatesAt_eq hs, hnil] at hcandidate
    cases hcandidate
  obtain ⟨m, rest, htaken⟩ := List.exists_cons_of_ne_nil hne
  obtain ⟨pick, -, rfl⟩ := exists_choice_of_mem_candidatesAt hs hcandidate
  have hm : m ∈ takenAt criteria points s := by simp [htaken]
  have hpos := List.length_pos_of_mem (mem_chamberOrder_of_mem hm)
  rw [chosen, List.length_cons, List.length_map]
  omega

/-- The track of a candidate crosses chambers, if its points were found by their chambers. -/
theorem crossesChambers_toTrack {f : Fitter α} (hfound : ∀ p ∈ points, p.FoundBy f)
    (numPlanes : Nat) : (candidate.toTrack numPlanes).CrossesChambers f.geometry points := by
  have hmembers := memberPoints_toTrack hs hcandidate numPlanes
  have htwo := two_le_length_of_mem hs hcandidate
  have hnodup := nodup_chambers_of_mem hs hcandidate
  have hpoints : ∀ p ∈ candidate.map (·.point), p.FoundBy f := by
    intro p hp
    obtain ⟨m, hm, rfl⟩ := List.mem_map.mp hp
    exact hfound _ (List.mem_of_getElem? (getElem?_id_of_mem hs hcandidate hm))
  have hhits : (candidate.toTrack numPlanes).hits =
      (candidate.map (·.point)).flatMap (·.hits) := (List.flatMap_map ..).symm
  refine ⟨?_, ?_, ?_, ?_, ?_, ?_⟩
  · intro i hi
    obtain ⟨m, hm, rfl⟩ := List.mem_map.mp hi
    exact (List.getElem?_eq_some_iff.mp (getElem?_id_of_mem hs hcandidate hm)).1
  · rw [hmembers, hhits]
  · rw [hmembers]
    match candidate, htwo, hnodup with
    | first :: second :: rest, _, hnodup =>
        refine ⟨first.point, by simp, second.point, by simp, ?_⟩
        simp only [List.map_cons, List.nodup_cons, List.mem_cons, not_or] at hnodup
        exact hnodup.1.1
  · rw [hmembers]
    exact fun p hp hit hhit => (hpoints p hp).chamberOf?_eq hhit
  · have hmany := four_mul_length_le hpoints
    rw [List.length_map] at hmany
    rw [hhits]
    omega
  · rw [hhits]
    exact nodup_planes_of_chambers hpoints hnodup

end Candidates

/-! ## An event across chambers -/

/-- What the fit makes of a track across chambers. -/
structure Track.FittedAcross (g : Geometry α) (points : List (SpacePoint α)) (t : Track α) :
    Prop where
  /-- The track crosses chambers. -/
  crosses : t.CrossesChambers g points
  /-- No hit lies on an unknown plane. -/
  status_ne_unknownPlane : ∀ number, t.status ≠ .unknownPlane number
  /-- As far as 32 bits count the degrees of freedom, there are some. -/
  status_eq : t.hits.length < 2 ^ 31 → t.status = .fitted ∨ t.status = .singular
  /-- Each hit of a fitted track has a residual of its own. -/
  residual?_eq : t.isFitted = true → ∀ hit ∈ t.hits, ∃ coord,
    t.coord? hit.plane = some coord ∧ t.residual? hit.plane = some (hit.coord - coord)

/-- The fit of a track across chambers. -/
theorem Fitter.fittedAcross_fit {f : Fitter α} {points : List (SpacePoint α)} {t : Track α}
    (h : t.CrossesChambers f.geometry points)
    (hcoords : t.coords.length = f.geometry.numPlanes)
    (hresiduals : t.residuals.length = f.geometry.numPlanes) :
    (f.fit t).FittedAcross f.geometry points := by
  obtain ⟨hpoints, hhits, -⟩ := f.alike_fit t
  have hmany := h.eight_le
  have hstatus := f.status_fit_of_known (t := t) (by omega) fun hit hhit => h.exists_plane hhit
  refine ⟨?_, fun number hunknown => ?_, fun hsmall => ?_, fun hfitted hit hhit => ?_⟩
  · exact h.congr hpoints hhits
  · rw [hunknown] at hstatus
    simp at hstatus
  · rw [hhits] at hsmall
    rcases hstatus with ⟨hnone, -⟩ | hstatus
    · exact absurd hnone (degreesOfFreedom_pos (by omega) hsmall)
    · exact hstatus.symm
  · rw [hhits] at hhit
    obtain ⟨plane, hplane⟩ := h.exists_plane hhit
    exact residual?_fit_of_nodup hfitted hcoords hresiduals h.nodup_planes hhit hplane

/-- Every track of an event that is linked across chambers. -/
theorem Tracker.fittedAcross_of_mem {t : Tracker α} (hmode : t.tracking.singleStub = false)
    {points : List (SpacePoint α)} (hfound : ∀ p ∈ points, p.FoundBy t.fitter) {track : Track α}
    (htrack : track ∈ (t.process points).tracks) : track.FittedAcross t.geometry points := by
  have hcross : t.linker.singleStub = false := hmode
  rcases t.process_cases points with ⟨-, heq⟩ | ⟨-, heq⟩ | ⟨-, -, heq⟩
  · rw [heq] at htrack
    cases htrack
  · rw [heq] at htrack
    cases htrack
  · rw [heq, finish, if_neg (by simp [hmode]), Option.getD_none, List.mem_map] at htrack
    obtain ⟨u, hu, rfl⟩ := htrack
    obtain ⟨candidate, hcandidate, rfl⟩ := List.mem_map.mp hu
    rw [unbounded_eq_flatMap hcross, List.mem_flatMap] at hcandidate
    obtain ⟨s, hseed, hcandidate⟩ := hcandidate
    obtain ⟨hcoords, hresiduals, -⟩ := candidate.length_toTrack t.linker.numPlanes
    exact t.fitter.fittedAcross_fit
      (crossesChambers_toTrack (lt_length_of_mem_seedsOf hseed) hcandidate hfound _)
      hcoords hresiduals

/-! ## Runs -/

/-- In a run that links across chambers, every track of every event crosses chambers, and its fit
ends as it can for such a track: with a ray, and a residual of its own for each hit, or because the
hits do not determine one. -/
theorem Runner.tracks_cross_chambers (r : Runner) (s : Scenario)
    (hvalid : r.setup.check = .ok ()) (hmode : s.profile.singleStub = false) :
    ∃ g, r.setup.detector.geometry? = .ok g ∧ (r.execute s).events.length = r.events ∧
      ∀ e ∈ (r.execute s).events, ∀ track ∈ e.result.tracks,
        track.FittedAcross g e.generated.points := by
  obtain ⟨tracker, hgeometry, htracking, hevents, -⟩ := r.execute_of_check s hvalid
  refine ⟨tracker.geometry, hgeometry, ?_, fun e he track htrack => ?_⟩
  · rw [hevents, length_eventsOf]
  · rw [hevents] at he
    have htracked := tracked_of_mem_eventsOf he
    rw [htracked.result_eq] at htrack
    exact Tracker.fittedAcross_of_mem (by rw [htracking]; exact hmode) htracked.found htrack

/-- The track of an event in two chambers. -/
theorem Runner.tracks_cross_chambers_axialRunner :
    axialRunner.setup.check = .ok () ∧ Scenario.singleTrack.profile.singleStub = false ∧
      ∃ e ∈ (axialRunner.execute .singleTrack).events, ∃ track ∈ e.result.tracks,
        8 ≤ track.hits.length ∧ (track.hits.map (·.plane)).Nodup ∧
          (track.status = .fitted ∨ track.status = .singular) := by
  obtain ⟨g, hgeometry, hlength, hall⟩ :=
    Runner.tracks_cross_chambers axialRunner .singleTrack check_axialRunner rfl
  obtain ⟨e, hevent⟩ := List.length_eq_one_iff.mp hlength
  have hseen : (axialRunner.execute .singleTrack).events.map
      (fun e => e.result.tracks.length) = [1] := by decide +kernel
  rw [hevent] at hall hseen
  obtain ⟨track, htrack⟩ := List.length_eq_one_iff.mp (List.singleton_inj.mp hseen)
  have hacross := hall e (by simp) track (by simp [htrack])
  refine ⟨check_axialRunner, rfl, e, by simp [hevent], track, by simp [htrack],
    hacross.crosses.eight_le, hacross.crosses.nodup_planes, hacross.status_eq ?_⟩
  have hplanes := hacross.crosses.length_hits_le
  rw [Geometry.numPlanes, (Geometry.eq_of_ofPlanes? hgeometry).1, List.length_map] at hplanes
  exact Nat.lt_of_le_of_lt hplanes (by decide)

end DriftChamber
