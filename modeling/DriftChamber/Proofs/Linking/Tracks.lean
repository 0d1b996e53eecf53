/-
# The tracks of an event

Linking across chambers, said by positions in the event's list of points and without reference to
the order in which candidates grow.  If the event keeps within the bound, then

* `memberSets_link`: the tracks are, as sets of points, a seed with partners together with one
  partner out of every chamber that has one;
* `count_tracks_link`: a seed with `k` partners in `m` chambers is first on `2 ^ (k - m)` tracks,
  and the bound is exceeded exactly if these numbers add up to more;
* `nodup_memberSets_iff`: no set of points occurs twice if and only if no seed has three partners
  in one chamber.
-/
import DriftChamber.Proofs.Linking.Bound
import DriftChamber.Proofs.Linking.Seeds

namespace DriftChamber

variable {α : Type}

/-! ## Candidates as sets of positions -/

/-- The positions of the members of a candidate. -/
def Candidate.positions (c : Candidate α) : Finset Nat := (c.map (·.id)).toFinset

/-- Candidates of one point each are different. -/
theorem nodup_map_positions_members (points : List (SpacePoint α)) :
    (((members points).map fun m => [m]).map Candidate.positions).Nodup := by
  have hsets : ((members points).map fun m => [m]).map Candidate.positions =
      (List.range points.length).map fun i => ({i} : Finset Nat) := by
    rw [← map_id_members, List.map_map, List.map_map]
    rfl
  rw [hsets]
  exact List.nodup_range.map Finset.singleton_injective

/-- The positions of a choice. -/
def pickedPositions (taken : List (Member α)) (pick : Nat → Member α) : Finset Nat :=
  (chamberOrder taken).toFinset.image fun chamber => (pick chamber).id

theorem mem_pickedPositions {taken : List (Member α)} {pick : Nat → Member α} {i : Nat} :
    i ∈ pickedPositions taken pick ↔ ∃ chamber ∈ chamberOrder taken, (pick chamber).id = i := by
  rw [pickedPositions, Finset.mem_image]
  simp only [List.mem_toFinset]

theorem positions_chosen (seed : Member α) (taken : List (Member α)) (pick : Nat → Member α) :
    (chosen seed taken pick).positions = insert seed.id (pickedPositions taken pick) := by
  ext i
  rw [Candidate.positions, chosen, List.map_cons, List.toFinset_cons, Finset.mem_insert,
    Finset.mem_insert, mem_pickedPositions, List.mem_toFinset, List.map_map, List.mem_map]
  rfl

/-- Points are told apart by position. -/
theorem Takes.eq_of_id_eq {seed : Member α} {taken : List (Member α)} (h : Takes seed taken)
    {x y : Member α} (hx : x ∈ taken) (hy : y ∈ taken) (hid : x.id = y.id) : x = y :=
  List.inj_on_of_nodup_map h.nodup hx hy hid

/-- The candidates of a seed are told apart by the positions of their members. -/
theorem eq_of_positions_eq {seed : Member α} {taken : List (Member α)} (h : Takes seed taken)
    {c c' : Candidate α} (hc : c ∈ spread seed [] taken) (hc' : c' ∈ spread seed [] taken)
    (heq : c.positions = c'.positions) : c = c' := by
  obtain ⟨pick, hp, rfl⟩ := exists_choice_of_mem_spread h c hc
  obtain ⟨pick', hp', rfl⟩ := exists_choice_of_mem_spread h c' hc'
  rw [chosen_eq_iff]
  intro chamber hchamber
  have hmem : (pick chamber).id ∈ (chosen seed taken pick').positions := by
    rw [← heq, positions_chosen]
    exact Finset.mem_insert_of_mem (mem_pickedPositions.mpr ⟨chamber, hchamber, rfl⟩)
  rw [positions_chosen, Finset.mem_insert, mem_pickedPositions] at hmem
  -- the position is not the seed's, so it was chosen, and for the same chamber
  rcases hmem with hid | ⟨other, hother, hid⟩
  · exact absurd (hid ▸ List.mem_map_of_mem (hp.mem chamber hchamber)) h.seed_notMem
  · have hsame := h.eq_of_id_eq (hp'.mem other hother) (hp.mem chamber hchamber) hid
    have hchambers : other = chamber := by
      rw [← hp'.chamber_eq other hother, hsame, hp.chamber_eq chamber hchamber]
    rw [← hsame, hchambers]

variable [Scalar α]

/-- A selection of one partner of a seed out of every chamber that has one. -/
structure IsSelection (criteria : Criteria α) (points : List (SpacePoint α)) (s : Nat)
    (selected : Finset Nat) : Prop where
  /-- Partners are selected. -/
  subset : selected ⊆ partners criteria points s
  /-- In the chamber of a partner exactly one is selected. -/
  existsUnique : ∀ j ∈ partners criteria points s,
    ∃! i, i ∈ selected ∧ chamberAt points i = chamberAt points j

section Selections

variable {criteria : Criteria α} {points : List (SpacePoint α)} {s : Nat}

/-- What is chosen for a chamber is a point of it. -/
theorem IsChoice.chamberAt_pick {pick : Nat → Member α}
    (hp : IsChoice (takenAt criteria points s) pick) {chamber : Nat}
    (hchamber : chamber ∈ chamberOrder (takenAt criteria points s)) :
    chamberAt points (pick chamber).id = some chamber := by
  rw [chamberAt_of_mem_takenAt (hp.mem chamber hchamber), hp.chamber_eq chamber hchamber]

/-- A choice among what a seed takes up selects a partner in every chamber. -/
theorem IsChoice.isSelection {pick : Nat → Member α}
    (hp : IsChoice (takenAt criteria points s) pick) :
    IsSelection criteria points s (pickedPositions (takenAt criteria points s) pick) where
  subset := by
    intro i hi
    obtain ⟨chamber, hchamber, rfl⟩ := mem_pickedPositions.mp hi
    exact mem_partners_iff_exists.mpr ⟨_, hp.mem chamber hchamber, rfl⟩
  existsUnique := by
    intro j hj
    obtain ⟨m, hm, rfl⟩ := mem_partners_iff_exists.mp hj
    have hchamber := mem_chamberOrder_of_mem hm
    rw [chamberAt_of_mem_takenAt hm]
    refine ⟨(pick m.point.chamber).id,
      ⟨mem_pickedPositions.mpr ⟨_, hchamber, rfl⟩, hp.chamberAt_pick hchamber⟩, ?_⟩
    rintro i ⟨hi, heq⟩
    obtain ⟨other, hother, rfl⟩ := mem_pickedPositions.mp hi
    rw [hp.chamberAt_pick hother] at heq
    rw [Option.some.inj heq]

/-- Every selection comes from a choice. -/
theorem IsSelection.exists_choice {selected : Finset Nat}
    (hsel : IsSelection criteria points s selected) (default : Member α) :
    ∃ pick, IsChoice (takenAt criteria points s) pick ∧
      pickedPositions (takenAt criteria points s) pick = selected := by
  classical
  have hpick : ∀ chamber, ∃ m : Member α, chamber ∈ chamberOrder (takenAt criteria points s) →
      m ∈ takenAt criteria points s ∧ m.point.chamber = chamber ∧ m.id ∈ selected := by
    intro chamber
    by_cases hchamber : chamber ∈ chamberOrder (takenAt criteria points s)
    · obtain ⟨x, hx, rfl⟩ := mem_chamberOrder.mp hchamber
      obtain ⟨i, ⟨hi, heq⟩, -⟩ :=
        hsel.existsUnique x.id (mem_partners_iff_exists.mpr ⟨x, hx, rfl⟩)
      obtain ⟨m, hm, rfl⟩ := mem_partners_iff_exists.mp (hsel.subset hi)
      rw [chamberAt_of_mem_takenAt hm, chamberAt_of_mem_takenAt hx] at heq
      exact ⟨m, fun _ => ⟨hm, Option.some.inj heq, hi⟩⟩
    · exact ⟨default, fun hmem => absurd hmem hchamber⟩
  -- what is picked for a chamber without points does not matter
  choose pick hpick using hpick
  refine ⟨pick, ⟨fun chamber hmem => (hpick chamber hmem).1,
    fun chamber hmem => (hpick chamber hmem).2.1⟩, ?_⟩
  ext i
  rw [mem_pickedPositions]
  constructor
  · rintro ⟨chamber, hchamber, rfl⟩
    exact (hpick chamber hchamber).2.2
  · intro hi
    obtain ⟨m, hm, rfl⟩ := mem_partners_iff_exists.mp (hsel.subset hi)
    have hchamber := mem_chamberOrder_of_mem hm
    obtain ⟨hmem, hown, hselected⟩ := hpick m.point.chamber hchamber
    refine ⟨m.point.chamber, hchamber, ?_⟩
    -- both points are selected in the chamber of `m`
    refine (hsel.existsUnique m.id (hsel.subset hi)).unique ⟨hselected, ?_⟩ ⟨hi, rfl⟩
    rw [chamberAt_of_mem_takenAt hmem, chamberAt_of_mem_takenAt hm, hown]

/-- The candidates of a seed, as sets of positions, are its selections. -/
theorem exists_mem_candidatesAt_iff (hs : s < points.length) {c : Finset Nat} :
    (∃ candidate ∈ candidatesAt criteria points s, c = candidate.positions) ↔
      (partners criteria points s).Nonempty ∧
        ∃ selected, IsSelection criteria points s selected ∧ c = insert s selected := by
  constructor
  · rintro ⟨candidate, hmem, rfl⟩
    obtain ⟨pick, hp, rfl⟩ := exists_choice_of_mem_candidatesAt hs hmem
    refine ⟨?_, _, hp.isSelection, positions_chosen _ _ _⟩
    by_contra hnone
    rw [List.eq_nil_of_length_eq_zero ((length_candidatesAt hs).trans (if_neg hnone))] at hmem
    exact List.not_mem_nil hmem
  · rintro ⟨hpartners, selected, hsel, rfl⟩
    obtain ⟨pick, hp, rfl⟩ := hsel.exists_choice ⟨s, points[s]⟩
    rw [← Finset.card_pos, card_partners] at hpartners
    have htaken := List.ne_nil_of_length_pos hpartners
    rw [candidatesAt_eq hs]
    refine ⟨_, (mem_spread_iff (takes_takenAt hs) htaken).mpr ⟨pick, hp, rfl⟩, ?_⟩
    rw [positions_chosen]

/-- A candidate starts with its seed. -/
theorem head?_map_id_of_mem (hs : s < points.length) {c : Candidate α}
    (hc : c ∈ candidatesAt criteria points s) : (c.map (·.id)).head? = some s := by
  obtain ⟨pick, -, rfl⟩ := exists_choice_of_mem_candidatesAt hs hc
  rfl

/-- A candidate has a member in every chamber that has a partner of its seed. -/
theorem exists_mem_chamber_of_mem (hs : s < points.length) {c : Candidate α}
    (hc : c ∈ candidatesAt criteria points s) {j : Nat} (hj : j ∈ partners criteria points s) :
    ∃ i ∈ c.map (·.id), chamberAt points i = chamberAt points j := by
  obtain ⟨pick, hp, rfl⟩ := exists_choice_of_mem_candidatesAt hs hc
  obtain ⟨m, hm, rfl⟩ := mem_partners_iff_exists.mp hj
  have hchamber := mem_chamberOrder_of_mem hm
  refine ⟨(pick m.point.chamber).id, ?_, ?_⟩
  · exact List.mem_map_of_mem (List.mem_cons_of_mem _ (List.mem_map_of_mem hchamber))
  · rw [hp.chamberAt_pick hchamber, chamberAt_of_mem_takenAt hm]

/-- A candidate has no two members of one chamber. -/
theorem nodup_chamberAt_of_mem (hs : s < points.length) {c : Candidate α}
    (hc : c ∈ candidatesAt criteria points s) :
    ((c.map (·.id)).map (chamberAt points)).Nodup := by
  obtain ⟨pick, hp, rfl⟩ := exists_choice_of_mem_candidatesAt hs hc
  have horder : ((chamberOrder (takenAt criteria points s)).map pick).map
      (fun m => chamberAt points m.id) =
        (chamberOrder (takenAt criteria points s)).map some := by
    rw [List.map_map]
    exact List.map_congr_left fun chamber hchamber => hp.chamberAt_pick hchamber
  have hseed : chamberAt points s = some points[s].chamber := by
    rw [chamberAt, List.getElem?_eq_getElem hs]
    rfl
  -- the seed's chamber is not among those of its partners, and these come once each
  rw [List.map_map, chosen, List.map_cons, List.nodup_cons]
  constructor
  · show chamberAt points s ∉ _
    rw [Function.comp_def, horder, hseed, List.mem_map]
    rintro ⟨chamber, hchamber, heq⟩
    obtain ⟨m, hm, hown⟩ := mem_chamberOrder.mp hchamber
    exact (takes_takenAt hs).chamber_ne m hm (hown.trans (Option.some.inj heq))
  · rw [Function.comp_def, horder]
    exact (nodup_chamberOrder _).map (Option.some_injective Nat)

end Selections

/-! ## The tracks -/

section Link

variable {l : Linker α} {points : List (SpacePoint α)} {d : Diagnostics α}

/-- Across chambers, linking without a bound finds the candidates of each seed. -/
theorem unbounded_eq_flatMap (hmode : l.singleStub = false) :
    (l.unbounded points d).1 =
      (seedsOf l.criteria points).flatMap (candidatesAt l.criteria points) := by
  rw [Linker.unbounded, if_neg (by simp [hmode]), linkFreely_eq]

/-- A track is a candidate of a seed. -/
theorem mem_tracks_iff (hmode : l.singleStub = false) {tracks : List (Track α)}
    (hlink : (l.link points d).tracks = .ok tracks) {t : Track α} :
    t ∈ tracks ↔ ∃ s ∈ seedsOf l.criteria points,
      ∃ c ∈ candidatesAt l.criteria points s, c.toTrack l.numPlanes = t := by
  obtain ⟨-, rfl⟩ := Linker.tracks_link_eq_ok_iff.mp hlink
  rw [unbounded_eq_flatMap hmode, List.mem_map]
  simp only [List.mem_flatMap]
  constructor
  · rintro ⟨c, ⟨s, hs, hc⟩, rfl⟩
    exact ⟨s, hs, c, hc, rfl⟩
  · rintro ⟨s, hs, c, hc, rfl⟩
    exact ⟨c, ⟨s, hs, hc⟩, rfl⟩

theorem lt_length_of_mem_seedsOf {criteria : Criteria α} {s : Nat}
    (hs : s ∈ seedsOf criteria points) : s < points.length :=
  lt_of_mem_seedsBelow hs

/-- The meaning of linking across chambers.  As sets of points the tracks are exactly a seed with
partners and a selection of one partner out of every chamber that has one.  So no track misses a
chamber with a partner of its seed, none has two points of one chamber, and a seed shares a track
with each of its partners. -/
theorem memberSets_link (l : Linker α) (points : List (SpacePoint α)) (d : Diagnostics α)
    (tracks : List (Track α)) (hmode : l.singleStub = false)
    (hlink : (l.link points d).tracks = .ok tracks) :
    {c | ∃ t ∈ tracks, c = t.spacePoints.toFinset} =
        {c | ∃ s ∈ seedsOf l.criteria points, (partners l.criteria points s).Nonempty ∧
          ∃ selected, IsSelection l.criteria points s selected ∧ c = insert s selected} ∧
      (∀ t ∈ tracks, ∃ s ∈ seedsOf l.criteria points, t.spacePoints.head? = some s ∧
        ∀ j ∈ partners l.criteria points s,
          ∃ i ∈ t.spacePoints, chamberAt points i = chamberAt points j) ∧
      (∀ t ∈ tracks, (t.spacePoints.map (chamberAt points)).Nodup) ∧
      ∀ s ∈ seedsOf l.criteria points, ∀ j ∈ partners l.criteria points s,
        ∃ t ∈ tracks, s ∈ t.spacePoints ∧ j ∈ t.spacePoints := by
  refine ⟨?_, ?_, ?_, ?_⟩
  · ext c
    have hseed : ∀ s ∈ seedsOf l.criteria points,
        ((∃ candidate ∈ candidatesAt l.criteria points s, c = candidate.positions) ↔
          (partners l.criteria points s).Nonempty ∧
            ∃ selected, IsSelection l.criteria points s selected ∧ c = insert s selected) :=
      fun s hs => exists_mem_candidatesAt_iff (lt_length_of_mem_seedsOf hs)
    constructor
    · rintro ⟨t, ht, rfl⟩
      obtain ⟨s, hs, candidate, hcandidate, rfl⟩ := (mem_tracks_iff hmode hlink).mp ht
      exact ⟨s, hs, (hseed s hs).mp ⟨candidate, hcandidate, rfl⟩⟩
    · rintro ⟨s, hs, hselected⟩
      obtain ⟨candidate, hcandidate, rfl⟩ := (hseed s hs).mpr hselected
      exact ⟨_, (mem_tracks_iff hmode hlink).mpr ⟨s, hs, candidate, hcandidate, rfl⟩, rfl⟩
  · intro t ht
    obtain ⟨s, hs, c, hc, rfl⟩ := (mem_tracks_iff hmode hlink).mp ht
    have hlt := lt_length_of_mem_seedsOf hs
    exact ⟨s, hs, head?_map_id_of_mem hlt hc, fun j hj => exists_mem_chamber_of_mem hlt hc hj⟩
  · intro t ht
    obtain ⟨s, hs, c, hc, rfl⟩ := (mem_tracks_iff hmode hlink).mp ht
    exact nodup_chamberAt_of_mem (lt_length_of_mem_seedsOf hs) hc
  · intro s hs j hj
    have hlt := lt_length_of_mem_seedsOf hs
    have haccepted := mem_partners_iff.mp hj
    obtain ⟨hsj, hj⟩ := lt_of_accepted haccepted
    obtain ⟨c, hc, hcontains⟩ := (contains_candidatesAt_iff hsj hj).mpr haccepted
    refine ⟨_, (mem_tracks_iff hmode hlink).mpr ⟨s, hs, c, hc, rfl⟩, ?_, ?_⟩
    · exact List.mem_of_mem_head? (head?_map_id_of_mem hlt hc)
    · obtain ⟨m, hm, hid⟩ := List.any_eq_true.mp hcontains
      exact List.mem_map.mpr ⟨m, hm, by simpa using hid⟩

/-- Two points of chamber 2 and one of chamber 3 agree with the first point of chamber 1, and a
point of chamber 3 agrees with the second. -/
def forking : List (SpacePoint Float) :=
  [⟨1, ⟨0, 0, 0, 0⟩, []⟩, ⟨2, ⟨0.5, 0, 0, 0⟩, []⟩, ⟨2, ⟨0.25, 0, 0, 0⟩, []⟩,
    ⟨3, ⟨0.75, 0, 0, 0⟩, []⟩, ⟨1, ⟨5, 0, 0, 0⟩, []⟩, ⟨3, ⟨5.5, 0, 0, 0⟩, []⟩]

/-- The first point shares a track with its partner in chamber 3. -/
theorem exists_track_forking :
    ∃ tracks, ((Linker.ofTracking Tracking.standard 12).link forking Diagnostics.none).tracks =
        .ok tracks ∧
      ∃ t ∈ tracks, 0 ∈ t.spacePoints ∧ 3 ∈ t.spacePoints := by
  have hlink : ((Linker.ofTracking Tracking.standard 12).link forking Diagnostics.none).tracks =
      .ok _ := Linker.tracks_link_eq_ok_iff.mpr ⟨by decide +kernel, rfl⟩
  exact ⟨_, hlink, (memberSets_link _ forking Diagnostics.none _ rfl hlink).2.2.2 0
    (by decide +kernel) 3 (by decide +kernel)⟩

/-! ## The number of tracks -/

/-- The tracks that start with a point are the candidates it found as a seed. -/
theorem countP_head?_flatMap (criteria : Criteria α) (points : List (SpacePoint α)) (s : Nat) :
    ((seedsOf criteria points).flatMap (candidatesAt criteria points)).countP
        (fun c => (c.map (·.id)).head? == some s) =
      if s ∈ seedsOf criteria points then (candidatesAt criteria points s).length else 0 := by
  -- all candidates of a seed start with it, and none of another seed does
  have hone : ∀ s' ∈ seedsOf criteria points,
      (candidatesAt criteria points s').countP (fun c => (c.map (·.id)).head? == some s) =
        if s' = s then (candidatesAt criteria points s').length else 0 := by
    intro s' hs'
    have hhead : ∀ c ∈ candidatesAt criteria points s', (c.map (·.id)).head? = some s' :=
      fun c hc => head?_map_id_of_mem (lt_length_of_mem_seedsOf hs') hc
    by_cases heq : s' = s
    · rw [if_pos heq, List.countP_eq_length]
      intro c hc
      rw [hhead c hc, heq, beq_self_eq_true]
    · rw [if_neg heq, List.countP_eq_zero]
      intro c hc
      rw [hhead c hc]
      simpa using heq
  rw [List.countP_flatMap, Function.comp_def, List.map_congr_left hone,
    ← List.sum_toFinset _ (nodup_seedsOf criteria points), Finset.sum_ite_eq']
  simp only [List.mem_toFinset]

/-- The number of all candidates, seed by seed. -/
theorem length_flatMap_candidatesAt (criteria : Criteria α) (points : List (SpacePoint α)) :
    ((seedsOf criteria points).flatMap (candidatesAt criteria points)).length =
      ∑ s ∈ (seedsOf criteria points).toFinset with (partners criteria points s).Nonempty,
        2 ^ ((partners criteria points s).card -
          ((partners criteria points s).image (chamberAt points)).card) := by
  rw [List.length_flatMap, ← List.sum_toFinset _ (nodup_seedsOf criteria points),
    Finset.sum_filter]
  refine Finset.sum_congr rfl fun s hs => ?_
  exact length_candidatesAt (lt_length_of_mem_seedsOf (List.mem_toFinset.mp hs))

/-- The exact number of tracks.  A seed with `k` partners in `m` chambers is the first member of
`2 ^ (k - m)` tracks, and a seed without partners or a point that is no seed is first on none.  The
event fails if and only if these numbers together exceed the bound. -/
theorem count_tracks_link (t : Tracking α) (numPlanes : Nat) (points : List (SpacePoint α))
    (d : Diagnostics α) (hmode : t.singleStub = false) :
    (∀ tracks, ((Linker.ofTracking t numPlanes).link points d).tracks = .ok tracks → ∀ s,
      tracks.countP (fun track => track.spacePoints.head? == some s) =
        if s ∈ seedsOf t.criteria points ∧ (partners t.criteria points s).Nonempty then
          2 ^ ((partners t.criteria points s).card -
            ((partners t.criteria points s).image (chamberAt points)).card)
        else 0) ∧
      (((Linker.ofTracking t numPlanes).link points d).tracks =
          .error (.tooManyTracks t.effectiveMaxTracks) ↔
        t.effectiveMaxTracks <
          ∑ s ∈ (seedsOf t.criteria points).toFinset with (partners t.criteria points s).Nonempty,
            2 ^ ((partners t.criteria points s).card -
              ((partners t.criteria points s).image (chamberAt points)).card)) := by
  have hfree : ((Linker.ofTracking t numPlanes).unbounded points d).1 =
      (seedsOf t.criteria points).flatMap (candidatesAt t.criteria points) :=
    unbounded_eq_flatMap hmode
  constructor
  · intro tracks hlink s
    obtain ⟨-, rfl⟩ := Linker.tracks_link_eq_ok_iff.mp hlink
    have hcount := countP_head?_flatMap t.criteria points s
    rw [List.countP_map, hfree]
    by_cases hs : s ∈ seedsOf t.criteria points
    · rw [if_pos hs, length_candidatesAt (lt_length_of_mem_seedsOf hs)] at hcount
      simp only [hs, true_and]
      exact hcount
    · rw [if_neg hs] at hcount
      rw [if_neg fun h => hs h.1]
      exact hcount
  · rw [Linker.tracks_link_eq_error_iff, hfree, length_flatMap_candidatesAt]
    exact and_iff_left rfl

/-- The forking event makes three tracks, too many for a bound of two. -/
theorem link_forking_of_two :
    ((Linker.ofTracking { Tracking.standard with maxTracks := 2 } 12).link forking
      Diagnostics.none).tracks = .error (.tooManyTracks 2) :=
  (count_tracks_link { Tracking.standard with maxTracks := 2 } 12 forking Diagnostics.none
    rfl).2.mpr (by decide +kernel)

/-! ## Repeated tracks -/

/-- The seed of a candidate is its least position, for partners come after it. -/
theorem isLeast_positions {criteria : Criteria α} {s : Nat} (hs : s < points.length)
    {c : Candidate α} (hc : c ∈ candidatesAt criteria points s) :
    IsLeast (c.positions : Set Nat) s := by
  obtain ⟨pick, hp, rfl⟩ := exists_choice_of_mem_candidatesAt hs hc
  rw [positions_chosen]
  constructor
  · exact Finset.mem_coe.mpr (Finset.mem_insert_self _ _)
  · intro i hi
    rcases Finset.mem_insert.mp (Finset.mem_coe.mp hi) with rfl | hi
    · exact Nat.le_refl _
    · have hpartner := mem_partners_iff.mp (hp.isSelection.subset hi)
      exact Nat.le_of_lt (lt_of_accepted hpartner).1

/-- Candidates of different seeds differ, so candidates repeat only within a seed. -/
theorem nodup_map_positions_flatMap_iff (criteria : Criteria α) (points : List (SpacePoint α)) :
    (((seedsOf criteria points).flatMap (candidatesAt criteria points)).map
        Candidate.positions).Nodup ↔
      ∀ s ∈ seedsOf criteria points,
        ((candidatesAt criteria points s).map Candidate.positions).Nodup := by
  rw [List.map_flatMap, List.nodup_flatMap]
  refine and_iff_left ?_
  -- a set in common would have the two seeds as its least position
  refine (nodup_seedsOf criteria points).imp_of_mem ?_
  intro s s' hs hs' hne
  rw [Function.onFun, List.disjoint_left]
  intro positions hmem hmem'
  obtain ⟨c, hc, rfl⟩ := List.mem_map.mp hmem
  obtain ⟨c', hc', heq⟩ := List.mem_map.mp hmem'
  have hleast := isLeast_positions (lt_length_of_mem_seedsOf hs) hc
  have hleast' := isLeast_positions (lt_length_of_mem_seedsOf hs') hc'
  rw [heq] at hleast'
  exact hne (hleast.unique hleast')

/-- The candidates of a seed are different sets if and only if no three of its partners share a
chamber. -/
theorem nodup_map_positions_iff {criteria : Criteria α} {s : Nat} (hs : s < points.length) :
    ((candidatesAt criteria points s).map Candidate.positions).Nodup ↔
      ∀ j ∈ partners criteria points s, ((partners criteria points s).filter
        fun i => chamberAt points i = chamberAt points j).card ≤ 2 := by
  have htakes : Takes ⟨s, points[s]⟩ (takenAt criteria points s) := takes_takenAt hs
  have hsets : ((candidatesAt criteria points s).map Candidate.positions).Nodup ↔
      (spread ⟨s, points[s]⟩ [] (takenAt criteria points s)).Nodup := by
    rw [candidatesAt_eq hs]
    exact ⟨List.Nodup.of_map _, fun h => h.map_on fun c hc c' hc' heq =>
      eq_of_positions_eq htakes hc hc' heq⟩
  rw [hsets, nodup_spread_iff htakes]
  constructor
  · intro htwo j hj
    obtain ⟨m, hm, rfl⟩ := mem_partners_iff_exists.mp hj
    rw [chamberAt_of_mem_takenAt hm, card_filter_chamberAt]
    exact htwo m.point.chamber
  · intro htwo chamber
    by_cases hchamber : chamber ∈ chamberOrder (takenAt criteria points s)
    · obtain ⟨m, hm, rfl⟩ := mem_chamberOrder.mp hchamber
      have hpartner := htwo m.id (mem_partners_iff_exists.mpr ⟨m, hm, rfl⟩)
      rwa [chamberAt_of_mem_takenAt hm, card_filter_chamberAt] at hpartner
    · have hnone := mt pointsIn_pos_iff.mp hchamber
      omega

/-- When tracks repeat.  No two tracks have the same set of points if and only if every point makes
a track of its own or no seed has three partners in one chamber. -/
theorem nodup_memberSets_iff (l : Linker α) (points : List (SpacePoint α)) (d : Diagnostics α)
    (tracks : List (Track α)) (hlink : (l.link points d).tracks = .ok tracks) :
    (tracks.map fun t => t.spacePoints.toFinset).Nodup ↔
      l.singleStub = true ∨
        ∀ s ∈ seedsOf l.criteria points, ∀ j ∈ partners l.criteria points s,
          ((partners l.criteria points s).filter
            fun i => chamberAt points i = chamberAt points j).card ≤ 2 := by
  obtain ⟨-, rfl⟩ := Linker.tracks_link_eq_ok_iff.mp hlink
  have hsets : ((l.unbounded points d).1.map (Candidate.toTrack l.numPlanes)).map
      (fun t => t.spacePoints.toFinset) = (l.unbounded points d).1.map Candidate.positions := by
    rw [List.map_map]
    rfl
  rw [hsets]
  by_cases hmode : l.singleStub
  · refine iff_of_true ?_ (Or.inl hmode)
    rw [Linker.unbounded, if_pos hmode]
    exact nodup_map_positions_members points
  · rw [unbounded_eq_flatMap (by simpa using hmode), nodup_map_positions_flatMap_iff,
      or_iff_right hmode]
    exact forall₂_congr fun s hs => nodup_map_positions_iff (lt_length_of_mem_seedsOf hs)

/-- In the forking event no seed has three partners in one chamber, so its tracks are different. -/
theorem nodup_memberSets_forking :
    ∃ tracks, ((Linker.ofTracking Tracking.standard 12).link forking Diagnostics.none).tracks =
        .ok tracks ∧ (tracks.map fun t => t.spacePoints.toFinset).Nodup := by
  have hlink : ((Linker.ofTracking Tracking.standard 12).link forking Diagnostics.none).tracks =
      .ok _ := Linker.tracks_link_eq_ok_iff.mpr ⟨by decide +kernel, rfl⟩
  exact ⟨_, hlink, (nodup_memberSets_iff _ forking Diagnostics.none _ hlink).mpr
    (Or.inr (by decide +kernel))⟩

/-- In the crowded event the third partner in chamber 2 makes two tracks of the same points. -/
theorem not_nodup_memberSets_crowded :
    ∃ tracks, ((Linker.ofTracking Tracking.standard 12).link crowded Diagnostics.none).tracks =
        .ok tracks ∧ ¬(tracks.map fun t => t.spacePoints.toFinset).Nodup :=
  ⟨_, rfl, by decide +kernel⟩

end Link

end DriftChamber
