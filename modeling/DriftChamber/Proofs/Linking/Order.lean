/-
# The order of members and tracks

Linking across chambers keeps an order that the sets of points do not show (`order_link`):

* a track lists its seed first, and every other member comes after the seed in the event; its hits
  are those of its members, in member order;
* the tracks come in the order of their seeds;
* where the event lists its points chamber after chamber, every track does too.

A fork may put a later point in the place of any member.  The order survives because members stand
in the order in which their chambers arrived, whichever point of a chamber is chosen
(`IsChoice.map_chamber_chosen`), and chambers that arrive one after the other have increasing
numbers (`pairwise_chamberOrder`).
-/
import DriftChamber.Proofs.Linking.Tracks

namespace DriftChamber

variable {α : Type}

/-! ## Chamber after chamber -/

/-- The points of an event come chamber after chamber. -/
def ChamberMajor (points : List (SpacePoint α)) : Prop :=
  points.Pairwise fun p q => p.chamber ≤ q.chamber

/-- Points that are gathered from their chambers come chamber after chamber. -/
theorem chamberMajor_flatten (chambers : List (List (SpacePoint α))) :
    ChamberMajor (SpacePoint.flatten chambers) := by
  have hnumbers : (chambers.zipIdx 1).Pairwise fun a b => a.2 < b.2 := by
    rw [← List.pairwise_map (f := Prod.snd) (R := fun a b => a < b), List.zipIdx_map_snd]
    exact List.pairwise_lt_range'
  rw [ChamberMajor, SpacePoint.flatten, List.pairwise_flatMap]
  refine ⟨fun entry _ => ?_, hnumbers.imp fun hlt p hp q hq => ?_⟩
  · exact List.pairwise_map.mpr (List.pairwise_of_forall fun _ _ => Nat.le_refl entry.2)
  · obtain ⟨p, -, rfl⟩ := List.mem_map.mp hp
    obtain ⟨q, -, rfl⟩ := List.mem_map.mp hq
    exact Nat.le_of_lt hlt

namespace ChamberMajor

variable {points : List (SpacePoint α)} {i j : Nat} {p q : SpacePoint α}

theorem chamber_le (h : ChamberMajor points) (hi : points[i]? = some p)
    (hj : points[j]? = some q) (hij : i < j) : p.chamber ≤ q.chamber := by
  obtain ⟨hlt, rfl⟩ := List.getElem?_eq_some_iff.mp hi
  obtain ⟨hlt', rfl⟩ := List.getElem?_eq_some_iff.mp hj
  exact List.pairwise_iff_getElem.mp h i j hlt hlt' hij

/-- A point of an earlier chamber comes earlier. -/
theorem lt_of_chamber_lt (h : ChamberMajor points) (hi : points[i]? = some p)
    (hj : points[j]? = some q) (hlt : p.chamber < q.chamber) : i < j := by
  by_contra hnot
  rcases Nat.lt_or_eq_of_le (Nat.le_of_not_lt hnot) with hji | rfl
  · exact absurd (h.chamber_le hj hi hji) (Nat.not_le.mpr hlt)
  · rw [hi] at hj
    cases hj
    exact absurd hlt (Nat.lt_irrefl _)

theorem pairwise_members (h : ChamberMajor points) :
    (members points).Pairwise fun m m' => m.point.chamber ≤ m'.point.chamber := by
  have hpoints : (members points).map (·.point) = points := by
    rw [members, List.map_map]
    exact List.zipIdx_map_fst 0 points
  rw [ChamberMajor, ← hpoints, List.pairwise_map] at h
  exact h

end ChamberMajor

/-- Where points come chamber after chamber, chambers arrive in increasing order. -/
theorem pairwise_chamberOrder {taken : List (Member α)}
    (h : taken.Pairwise fun m m' => m.point.chamber ≤ m'.point.chamber) :
    (chamberOrder taken).Pairwise (· < ·) := by
  induction taken using List.reverseRecOn with
  | nil => exact List.Pairwise.nil
  | append_singleton taken m ih =>
      obtain ⟨hbefore, -, hlast⟩ := List.pairwise_append.mp h
      by_cases hseen : m.point.chamber ∈ chamberOrder taken
      · rw [chamberOrder_append_of_seen hseen]
        exact ih hbefore
      · rw [chamberOrder_append_of_new hseen, List.pairwise_append]
        refine ⟨ih hbefore, List.pairwise_singleton _ _, fun chamber hchamber last hmem => ?_⟩
        rw [List.mem_singleton] at hmem
        subst hmem
        obtain ⟨x, hx, hxc⟩ := mem_chamberOrder.mp hchamber
        have hle : x.point.chamber ≤ m.point.chamber :=
          hlast x hx m (List.mem_singleton_self m)
        have hne : chamber ≠ m.point.chamber := fun heq => hseen (heq ▸ hchamber)
        omega

/-- The members of a choice stand in the order in which their chambers arrived. -/
theorem IsChoice.map_chamber_chosen {seed : Member α} {taken : List (Member α)}
    {pick : Nat → Member α} (hp : IsChoice taken pick) :
    (chosen seed taken pick).map (·.point.chamber) =
      seed.point.chamber :: chamberOrder taken := by
  rw [chosen, List.map_cons, List.map_map, List.cons_inj_right]
  calc (chamberOrder taken).map ((·.point.chamber) ∘ pick)
      = (chamberOrder taken).map id := List.map_congr_left hp.chamber_eq
    _ = chamberOrder taken := List.map_id _

variable [Scalar α]

/-! ## Members of a candidate -/

section Candidates

variable {criteria : Criteria α} {points : List (SpacePoint α)} {s : Nat} (hs : s < points.length)
  {c : Candidate α} (hc : c ∈ candidatesAt criteria points s)
include hs hc

/-- Where points come chamber after chamber, so do the members of a candidate. -/
theorem pairwise_chamber_lt_of_mem (hmajor : ChamberMajor points) :
    c.Pairwise fun m m' => m.point.chamber < m'.point.chamber := by
  obtain ⟨pick, hp, rfl⟩ := exists_choice_of_mem_candidatesAt hs hc
  have htaken : (takenAt criteria points s).Pairwise
      fun m m' => m.point.chamber ≤ m'.point.chamber :=
    hmajor.pairwise_members.sublist (takenAt_sublist criteria points s)
  rw [← List.pairwise_map (f := fun m : Member α => m.point.chamber) (R := fun a b => a < b),
    hp.map_chamber_chosen, List.pairwise_cons]
  refine ⟨fun chamber hchamber => ?_, pairwise_chamberOrder htaken⟩
  -- a partner comes after the seed and belongs to another chamber
  obtain ⟨m, hm, rfl⟩ := mem_chamberOrder.mp hchamber
  obtain ⟨hpoint, haccepted⟩ := mem_takenAt_iff.mp hm
  have hle := hmajor.chamber_le (List.getElem?_eq_getElem hs) hpoint (lt_of_accepted haccepted).1
  exact lt_of_le_of_ne hle ((takes_takenAt hs).chamber_ne m hm).symm

/-- A candidate is its seed and points that the seed accepts. -/
theorem exists_map_id_eq_cons : ∃ rest, c.map (·.id) = s :: rest ∧
    ∀ i ∈ rest, accepted criteria points s i = true := by
  obtain ⟨pick, hp, rfl⟩ := exists_choice_of_mem_candidatesAt hs hc
  refine ⟨_, rfl, fun i hi => ?_⟩
  obtain ⟨m, hm, rfl⟩ := List.mem_map.mp hi
  obtain ⟨chamber, hchamber, rfl⟩ := List.mem_map.mp hm
  exact (mem_takenAt_iff.mp (hp.mem chamber hchamber)).2

/-- No point is a member twice, for members belong to different chambers. -/
theorem nodup_map_id_of_mem : (c.map (·.id)).Nodup :=
  (nodup_chamberAt_of_mem hs hc).of_map

end Candidates

/-! ## Tracks in order -/

/-- The hits of the point at a position. -/
def hitsAt (points : List (SpacePoint α)) (i : Nat) : List (Hit α) :=
  points[i]?.elim [] (·.hits)

/-- A track as linking leaves it, before it is fitted. -/
structure Track.AsLinked (criteria : Criteria α) (points : List (SpacePoint α)) (numPlanes : Nat)
    (t : Track α) : Prop where
  /-- The first member is a seed, and the others are points after it that it accepts. -/
  exists_seed : ∃ s ∈ seedsOf criteria points, ∃ rest, t.spacePoints = s :: rest ∧
    ∀ i ∈ rest, s < i ∧ accepted criteria points s i = true
  /-- No point is a member twice. -/
  nodup : t.spacePoints.Nodup
  /-- All members are points of the event. -/
  lt_length : ∀ i ∈ t.spacePoints, i < points.length
  /-- The hits are those of the members, in member order. -/
  hits_eq : t.hits = t.spacePoints.flatMap (hitsAt points)
  /-- All else is as in a track without members. -/
  eq_empty : t = { Track.empty numPlanes with spacePoints := t.spacePoints, hits := t.hits }

/-- A candidate of a seed makes a track of that form. -/
theorem asLinked_toTrack {criteria : Criteria α} {points : List (SpacePoint α)} {s : Nat}
    (hs : s ∈ seedsOf criteria points) {c : Candidate α} (hc : c ∈ candidatesAt criteria points s)
    (numPlanes : Nat) : (c.toTrack numPlanes).AsLinked criteria points numPlanes := by
  have hlt := lt_length_of_mem_seedsOf hs
  have hpoint : ∀ m ∈ c, points[m.id]? = some m.point := fun m hm =>
    getElem?_id_of_mem hlt hc hm
  refine ⟨?_, nodup_map_id_of_mem hlt hc, ?_, ?_, rfl⟩
  · obtain ⟨rest, heq, haccepted⟩ := exists_map_id_eq_cons hlt hc
    exact ⟨s, hs, rest, heq, fun i hi => ⟨(lt_of_accepted (haccepted i hi)).1, haccepted i hi⟩⟩
  · intro i hi
    obtain ⟨m, hm, rfl⟩ := List.mem_map.mp hi
    exact (List.getElem?_eq_some_iff.mp (hpoint m hm)).1
  · show c.flatMap (·.point.hits) = (c.map (·.id)).flatMap (hitsAt points)
    rw [List.flatMap_map]
    refine List.flatMap_congr fun m hm => ?_
    rw [hitsAt, hpoint m hm, Option.elim_some]

/-- The first members of candidates, seed after seed, never fall. -/
theorem pairwise_head?_flatMap (criteria : Criteria α) (points : List (SpacePoint α)) :
    ((seedsOf criteria points).flatMap (candidatesAt criteria points)).Pairwise fun c c' =>
      ∃ s s', (c.map (·.id)).head? = some s ∧ (c'.map (·.id)).head? = some s' ∧ s ≤ s' := by
  have hhead : ∀ s ∈ seedsOf criteria points, ∀ c ∈ candidatesAt criteria points s,
      (c.map (·.id)).head? = some s :=
    fun s hs c hc => head?_map_id_of_mem (lt_length_of_mem_seedsOf hs) hc
  rw [List.pairwise_flatMap]
  constructor
  · intro s hs
    exact List.pairwise_of_forall_mem_list fun c hc c' hc' =>
      ⟨s, s, hhead s hs c hc, hhead s hs c' hc', Nat.le_refl s⟩
  · refine (pairwise_seedsOf criteria points).imp_of_mem fun hs hs' hlt c hc c' hc' => ?_
    exact ⟨_, _, hhead _ hs c hc, hhead _ hs' c' hc', Nat.le_of_lt hlt⟩

/-- Whether two positions hold points, the first one of an earlier chamber. -/
def ChamberBefore (points : List (SpacePoint α)) (i j : Nat) : Prop :=
  ∃ p q, points[i]? = some p ∧ points[j]? = some q ∧ p.chamber < q.chamber

/-- The order that linking keeps.  A track starts with its seed, which comes before all other
members in the event; no member is listed twice, the hits are those of the members in member order,
and the fit results are at their marks.  The first members of the tracks never fall along the list.
If the points were gathered from their chambers, the members of every track, forks included, come
in the order of the event and of their chambers. -/
theorem order_link (l : Linker α) (points : List (SpacePoint α)) (d : Diagnostics α)
    (tracks : List (Track α)) (hmode : l.singleStub = false)
    (hlink : (l.link points d).tracks = .ok tracks) :
    (∀ t ∈ tracks, t.AsLinked l.criteria points l.numPlanes) ∧
      (tracks.Pairwise fun t t' => ∃ s s', t.spacePoints.head? = some s ∧
        t'.spacePoints.head? = some s' ∧ s ≤ s') ∧
      ∀ chambers, points = SpacePoint.flatten chambers → ∀ t ∈ tracks,
        t.spacePoints.Pairwise fun i j => i < j ∧ ChamberBefore points i j := by
  refine ⟨fun t ht => ?_, ?_, ?_⟩
  · obtain ⟨s, hs, c, hc, rfl⟩ := (mem_tracks_iff hmode hlink).mp ht
    exact asLinked_toTrack hs hc l.numPlanes
  · obtain ⟨-, rfl⟩ := Linker.tracks_link_eq_ok_iff.mp hlink
    rw [unbounded_eq_flatMap hmode]
    exact List.pairwise_map.mpr (pairwise_head?_flatMap l.criteria points)
  · rintro chambers hpoints t ht
    have hmajor : ChamberMajor points := hpoints ▸ chamberMajor_flatten chambers
    obtain ⟨s, hs, c, hc, rfl⟩ := (mem_tracks_iff hmode hlink).mp ht
    have hlt := lt_length_of_mem_seedsOf hs
    refine List.pairwise_map.mpr ((pairwise_chamber_lt_of_mem hlt hc hmajor).imp_of_mem ?_)
    intro m m' hm hm' hchamber
    have hpoint := getElem?_id_of_mem hlt hc hm
    have hpoint' := getElem?_id_of_mem hlt hc hm'
    exact ⟨hmajor.lt_of_chamber_lt hpoint hpoint' hchamber, _, _, hpoint, hpoint', hchamber⟩

/-- Three chambers with one, two and two points that all agree, on one hit each. -/
def layered : List (List (SpacePoint Float)) :=
  [[⟨0, ⟨0, 0, 0, 0⟩, [⟨1, 1, 0⟩]⟩],
    [⟨0, ⟨0.5, 0, 0, 0⟩, [⟨5, 1, 0⟩]⟩, ⟨0, ⟨0.25, 0, 0, 0⟩, [⟨5, 2, 0⟩]⟩],
    [⟨0, ⟨0.5, 0, 0, 0⟩, [⟨9, 1, 0⟩]⟩, ⟨0, ⟨0.25, 0, 0, 0⟩, [⟨9, 2, 0⟩]⟩]]

/-- The first point of chamber 1 makes four tracks, three of them forks, and each goes through the
chambers in order. -/
theorem order_link_layered :
    ∃ tracks, ((Linker.ofTracking Tracking.standard 12).link (SpacePoint.flatten layered)
        Diagnostics.none).tracks = .ok tracks ∧
      tracks.map (·.spacePoints) = [[0, 1, 3], [0, 2, 3], [0, 1, 4], [0, 2, 4]] ∧
      ∀ t ∈ tracks, t.spacePoints.Pairwise fun i j =>
        i < j ∧ ChamberBefore (SpacePoint.flatten layered) i j := by
  have hlink : ((Linker.ofTracking Tracking.standard 12).link (SpacePoint.flatten layered)
      Diagnostics.none).tracks = .ok _ :=
    Linker.tracks_link_eq_ok_iff.mpr ⟨by decide +kernel, rfl⟩
  refine ⟨_, hlink, by decide +kernel, ?_⟩
  exact (order_link _ _ Diagnostics.none _ rfl hlink).2.2 layered rfl

end DriftChamber
