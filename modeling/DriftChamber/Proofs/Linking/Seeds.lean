/-
# The seeds of an event

Which points are seeds, said without reference to candidates: going from the left, a point is a
seed if no earlier seed of another chamber accepts it (`mem_seedsOf_iff`).  Linking without a bound
finds the candidates of these seeds, one seed after the other (`linkFreely_eq`), since a point is on
a candidate of an earlier seed if and only if that seed accepts it (`contains_candidatesAt_iff`).
-/
import DriftChamber.Proofs.Linking.Choices

namespace DriftChamber

variable {α : Type}

/-! ## Points by position -/

/-- The chamber of the point at a position. -/
def chamberAt (points : List (SpacePoint α)) (i : Nat) : Option Nat :=
  points[i]?.map (·.chamber)

theorem getElem?_members (points : List (SpacePoint α)) (i : Nat) :
    (members points)[i]? = points[i]?.map fun point => ⟨i, point⟩ := by
  simp [members, Function.comp_def]

theorem map_id_members (points : List (SpacePoint α)) :
    (members points).map (·.id) = List.range points.length := by
  rw [members, List.map_map, List.range_eq_range']
  exact List.zipIdx_map_snd 0 points

theorem drop_members_eq_cons {points : List (SpacePoint α)} {n : Nat} (hn : n < points.length) :
    (members points).drop n = ⟨n, points[n]⟩ :: (members points).drop (n + 1) := by
  have hmember : (members points)[n]? = some ⟨n, points[n]⟩ := by
    rw [getElem?_members, List.getElem?_eq_getElem hn]
    rfl
  obtain ⟨hlength, hget⟩ := List.getElem?_eq_some_iff.mp hmember
  rw [List.drop_eq_getElem_cons hlength, hget]

theorem drop_members_of_le {points : List (SpacePoint α)} {n : Nat} (hn : points.length ≤ n) :
    (members points).drop n = [] :=
  List.drop_of_length_le (by simpa [members] using hn)

variable [Scalar α]

/-- Whether the point at `s` accepts the one at `j`: it comes later, it belongs to another chamber
and the difference of the stubs is inside the tolerances. -/
def accepted (criteria : Criteria α) (points : List (SpacePoint α)) (s j : Nat) : Bool :=
  match points[s]?, points[j]? with
  | some seed, some point =>
      decide (s < j) && decide (seed.chamber ≠ point.chamber) &&
        criteria.accepts (seed.stub.sub point.stub)
  | _, _ => false

/-- The seeds among the first `n` points: from the left, those that no earlier seed accepts. -/
def seedsBelow (criteria : Criteria α) (points : List (SpacePoint α)) : Nat → List Nat
  | 0 => []
  | n + 1 =>
      let earlier := seedsBelow criteria points n
      if earlier.any fun s => accepted criteria points s n then earlier else earlier ++ [n]

/-- The seeds of an event. -/
def seedsOf (criteria : Criteria α) (points : List (SpacePoint α)) : List Nat :=
  seedsBelow criteria points points.length

/-- The positions of the points that the point at `s` accepts. -/
def partners (criteria : Criteria α) (points : List (SpacePoint α)) (s : Nat) : Finset Nat :=
  (Finset.range points.length).filter fun j => accepted criteria points s j

section Positions

variable {criteria : Criteria α} {points : List (SpacePoint α)}

theorem mem_seedsBelow_succ {n s : Nat} :
    s ∈ seedsBelow criteria points (n + 1) ↔ s ∈ seedsBelow criteria points n ∨
      s = n ∧ ∀ s' ∈ seedsBelow criteria points n, accepted criteria points s' n = false := by
  rw [seedsBelow]
  by_cases hany : (seedsBelow criteria points n).any fun s => accepted criteria points s n
  · have hnot : ¬∀ s' ∈ seedsBelow criteria points n, accepted criteria points s' n = false := by
      obtain ⟨s', hs', haccepted⟩ := List.any_eq_true.mp hany
      exact fun hall => by simp [hall s' hs'] at haccepted
    simp only [if_pos hany, hnot, and_false, or_false]
  · have hall : ∀ s' ∈ seedsBelow criteria points n, accepted criteria points s' n = false := by
      simpa using hany
    simp only [if_neg hany, List.mem_append, List.mem_singleton]
    exact or_congr_right ⟨fun h => ⟨h, hall⟩, fun h => h.1⟩

theorem lt_of_mem_seedsBelow {n s : Nat} (hs : s ∈ seedsBelow criteria points n) : s < n := by
  induction n with
  | zero => exact absurd hs List.not_mem_nil
  | succ n ih =>
      rcases mem_seedsBelow_succ.mp hs with hs | ⟨rfl, -⟩
      · exact Nat.lt_succ_of_lt (ih hs)
      · exact Nat.lt_succ_self s

/-- Later points do not change which of the first ones are seeds. -/
theorem mem_seedsBelow_iff {n s : Nat} :
    s ∈ seedsBelow criteria points n ↔ s < n ∧
      ∀ s' ∈ seedsBelow criteria points s, accepted criteria points s' s = false := by
  induction n with
  | zero => simp [seedsBelow]
  | succ n ih =>
      rw [mem_seedsBelow_succ, ih]
      constructor
      · rintro (⟨hlt, hall⟩ | ⟨rfl, hall⟩)
        · exact ⟨Nat.lt_succ_of_lt hlt, hall⟩
        · exact ⟨Nat.lt_succ_self s, hall⟩
      · rintro ⟨hlt, hall⟩
        rcases Nat.lt_succ_iff_lt_or_eq.mp hlt with hlt | rfl
        · exact Or.inl ⟨hlt, hall⟩
        · exact Or.inr ⟨rfl, hall⟩

/-- A point is a seed if and only if no earlier seed accepts it. -/
theorem mem_seedsOf_iff {s : Nat} :
    s ∈ seedsOf criteria points ↔ s < points.length ∧
      ∀ s' < s, s' ∈ seedsOf criteria points → accepted criteria points s' s = false := by
  rw [seedsOf, mem_seedsBelow_iff]
  refine and_congr_right fun hs => ?_
  constructor
  · intro hall s' hlt hs'
    exact hall s' (mem_seedsBelow_iff.mpr ⟨hlt, (mem_seedsBelow_iff.mp hs').2⟩)
  · intro hall s' hs'
    obtain ⟨hlt, hseed⟩ := mem_seedsBelow_iff.mp hs'
    exact hall s' hlt (mem_seedsBelow_iff.mpr ⟨lt_trans hlt hs, hseed⟩)

/-- Seeds are listed from the left, each once. -/
theorem pairwise_seedsBelow (n : Nat) : (seedsBelow criteria points n).Pairwise (· < ·) := by
  induction n with
  | zero => exact List.Pairwise.nil
  | succ n ih =>
      rw [seedsBelow]
      split
      · exact ih
      · refine List.pairwise_append.mpr ⟨ih, List.pairwise_singleton _ _, fun s hs last hlast => ?_⟩
        rw [List.mem_singleton.mp hlast]
        exact lt_of_mem_seedsBelow hs

theorem pairwise_seedsOf (criteria : Criteria α) (points : List (SpacePoint α)) :
    (seedsOf criteria points).Pairwise (· < ·) :=
  pairwise_seedsBelow points.length

theorem nodup_seedsOf (criteria : Criteria α) (points : List (SpacePoint α)) :
    (seedsOf criteria points).Nodup :=
  (pairwise_seedsOf criteria points).imp Nat.ne_of_lt

end Positions

/-! ## What a seed takes up -/

/-- The members that the point at a position takes up when it is a seed. -/
def takenAt (criteria : Criteria α) (points : List (SpacePoint α)) (s : Nat) : List (Member α) :=
  match (members points)[s]? with
  | some seed => ((members points).drop (s + 1)).filter (seed.joins criteria)
  | none => []

/-- The candidates that the point at a position finds when it is a seed. -/
def candidatesAt (criteria : Criteria α) (points : List (SpacePoint α)) (s : Nat) :
    List (Candidate α) :=
  match (members points)[s]? with
  | some seed => spread seed [] (takenAt criteria points s)
  | none => []

section Taken

variable {criteria : Criteria α} {points : List (SpacePoint α)} {s : Nat}

theorem accepted_iff {j : Nat} {seed point : SpacePoint α} (hs : points[s]? = some seed)
    (hj : points[j]? = some point) :
    accepted criteria points s j ↔ s < j ∧ Member.joins criteria ⟨s, seed⟩ ⟨j, point⟩ := by
  rw [accepted, hs, hj, Member.joins]
  simp only [Bool.and_eq_true, decide_eq_true_eq, and_assoc]

/-- A point accepts points after it only. -/
theorem lt_of_accepted {j : Nat} (h : accepted criteria points s j) :
    s < j ∧ j < points.length := by
  rw [accepted] at h
  split at h
  · next seed point hs hj =>
      rw [Bool.and_eq_true, Bool.and_eq_true, decide_eq_true_eq] at h
      exact ⟨h.1.1, (List.getElem?_eq_some_iff.mp hj).1⟩
  · exact absurd h Bool.false_ne_true

theorem mem_partners_iff {j : Nat} :
    j ∈ partners criteria points s ↔ accepted criteria points s j := by
  rw [partners, Finset.mem_filter, Finset.mem_range]
  exact and_iff_right_of_imp fun h => (lt_of_accepted h).2

/-- A seed takes up the points that it accepts. -/
theorem mem_takenAt_iff {m : Member α} :
    m ∈ takenAt criteria points s ↔
      points[m.id]? = some m.point ∧ accepted criteria points s m.id := by
  rw [takenAt, getElem?_members]
  cases hs : points[s]? with
  | none => simp [accepted, hs]
  | some seed =>
      rw [Option.map_some]
      simp only [List.mem_filter]
      constructor
      · rintro ⟨hdrop, hjoins⟩
        obtain ⟨i, hi⟩ := List.mem_iff_getElem?.mp hdrop
        rw [List.getElem?_drop, getElem?_members, Option.map_eq_some_iff] at hi
        obtain ⟨point, hpoint, rfl⟩ := hi
        exact ⟨hpoint, (accepted_iff hs hpoint).mpr ⟨by omega, hjoins⟩⟩
      · rintro ⟨hpoint, haccepted⟩
        obtain ⟨hlt, hjoins⟩ := (accepted_iff hs hpoint).mp haccepted
        refine ⟨List.mem_iff_getElem?.mpr ⟨m.id - (s + 1), ?_⟩, hjoins⟩
        rw [List.getElem?_drop, Nat.add_sub_cancel' hlt, getElem?_members, hpoint]
        rfl

/-- A seed takes up points in the order of the event. -/
theorem takenAt_sublist (criteria : Criteria α) (points : List (SpacePoint α)) (s : Nat) :
    (takenAt criteria points s).Sublist (members points) := by
  rw [takenAt]
  split
  · exact List.filter_sublist.trans (List.drop_sublist _ _)
  · exact List.nil_sublist _

/-- No point is taken up twice. -/
theorem nodup_map_id_takenAt (criteria : Criteria α) (points : List (SpacePoint α)) (s : Nat) :
    ((takenAt criteria points s).map (·.id)).Nodup := by
  have hall : ((members points).map (·.id)).Nodup := by
    rw [map_id_members]
    exact List.nodup_range
  exact hall.sublist ((takenAt_sublist criteria points s).map _)

/-- What a seed takes up is what it may take up. -/
theorem takes_takenAt (hs : s < points.length) :
    Takes ⟨s, points[s]⟩ (takenAt criteria points s) where
  nodup := nodup_map_id_takenAt criteria points s
  seed_notMem := by
    rw [List.mem_map]
    rintro ⟨m, hm, hid⟩
    exact Nat.ne_of_gt (lt_of_accepted (mem_takenAt_iff.mp hm).2).1 hid
  chamber_ne := fun m hm => by
    obtain ⟨hpoint, haccepted⟩ := mem_takenAt_iff.mp hm
    have hjoins := ((accepted_iff (List.getElem?_eq_getElem hs) hpoint).mp haccepted).2
    rw [Member.joins, Bool.and_eq_true, decide_eq_true_eq] at hjoins
    exact Ne.symm hjoins.1

theorem candidatesAt_eq (hs : s < points.length) :
    candidatesAt criteria points s =
      spread ⟨s, points[s]⟩ [] (takenAt criteria points s) := by
  rw [candidatesAt, getElem?_members, List.getElem?_eq_getElem hs]
  rfl

/-- Each candidate of a seed is a choice among what the seed takes up. -/
theorem exists_choice_of_mem_candidatesAt (hs : s < points.length) {c : Candidate α}
    (hc : c ∈ candidatesAt criteria points s) :
    ∃ pick, IsChoice (takenAt criteria points s) pick ∧
      c = chosen ⟨s, points[s]⟩ (takenAt criteria points s) pick := by
  rw [candidatesAt_eq hs] at hc
  exact exists_choice_of_mem_spread (takes_takenAt hs) c hc

/-- A member of a candidate is the point at its position. -/
theorem getElem?_id_of_mem (hs : s < points.length) {c : Candidate α}
    (hc : c ∈ candidatesAt criteria points s) {m : Member α} (hm : m ∈ c) :
    points[m.id]? = some m.point := by
  rw [candidatesAt_eq hs] at hc
  rcases mem_cons_of_mem_spread (takes_takenAt hs) hc hm with rfl | hm
  · exact List.getElem?_eq_getElem hs
  · exact (mem_takenAt_iff.mp hm).1

/-- A later point is on a candidate of a seed if and only if the seed accepts it. -/
theorem contains_candidatesAt_iff {j : Nat} (hlt : s < j) (hj : j < points.length) :
    (∃ c ∈ candidatesAt criteria points s, c.contains j) ↔ accepted criteria points s j := by
  have hs : s < points.length := lt_trans hlt hj
  rw [candidatesAt_eq hs]
  constructor
  · rintro ⟨c, hc, hcontains⟩
    rw [Candidate.contains, List.any_eq_true] at hcontains
    obtain ⟨x, hx, hid⟩ := hcontains
    rw [beq_iff_eq] at hid
    subst hid
    rcases mem_cons_of_mem_spread (takes_takenAt hs) hc hx with heq | hx
    · exact absurd (congrArg Member.id heq) (Nat.ne_of_gt hlt)
    · exact (mem_takenAt_iff.mp hx).2
  · intro haccepted
    have hm : ⟨j, points[j]⟩ ∈ takenAt criteria points s :=
      mem_takenAt_iff.mpr ⟨List.getElem?_eq_getElem hj, haccepted⟩
    obtain ⟨c, hc, hmem⟩ := exists_mem_spread (takes_takenAt hs) hm
    exact ⟨c, hc, List.any_eq_true.mpr ⟨_, hmem, beq_self_eq_true j⟩⟩

/-! ### Counting them by position -/

theorem chamberAt_of_mem_takenAt {m : Member α} (hm : m ∈ takenAt criteria points s) :
    chamberAt points m.id = some m.point.chamber := by
  rw [chamberAt, (mem_takenAt_iff.mp hm).1]
  rfl

/-- A seed takes up the points at the positions of its partners. -/
theorem mem_partners_iff_exists {j : Nat} :
    j ∈ partners criteria points s ↔ ∃ m ∈ takenAt criteria points s, m.id = j := by
  constructor
  · intro hj
    have haccepted := mem_partners_iff.mp hj
    have hlt := (lt_of_accepted haccepted).2
    exact ⟨⟨j, points[j]⟩,
      mem_takenAt_iff.mpr ⟨List.getElem?_eq_getElem hlt, haccepted⟩, rfl⟩
  · rintro ⟨m, hm, rfl⟩
    exact mem_partners_iff.mpr (mem_takenAt_iff.mp hm).2

theorem toFinset_map_id_takenAt (criteria : Criteria α) (points : List (SpacePoint α)) (s : Nat) :
    ((takenAt criteria points s).map (·.id)).toFinset = partners criteria points s := by
  ext j
  rw [List.mem_toFinset, List.mem_map, mem_partners_iff_exists]

theorem card_partners (criteria : Criteria α) (points : List (SpacePoint α)) (s : Nat) :
    (partners criteria points s).card = (takenAt criteria points s).length := by
  rw [← toFinset_map_id_takenAt, List.toFinset_card_of_nodup (nodup_map_id_takenAt _ _ _),
    List.length_map]

/-- The chambers in order of arrival are the chambers of the partners. -/
theorem card_image_chamberAt (criteria : Criteria α) (points : List (SpacePoint α)) (s : Nat) :
    ((partners criteria points s).image (chamberAt points)).card =
      (chamberOrder (takenAt criteria points s)).length := by
  have himage : (partners criteria points s).image (chamberAt points) =
      ((chamberOrder (takenAt criteria points s)).map some).toFinset := by
    ext chamber
    simp only [Finset.mem_image, mem_partners_iff_exists, List.mem_toFinset, List.mem_map,
      mem_chamberOrder]
    constructor
    · rintro ⟨j, ⟨m, hm, rfl⟩, rfl⟩
      exact ⟨m.point.chamber, ⟨m, hm, rfl⟩, (chamberAt_of_mem_takenAt hm).symm⟩
    · rintro ⟨-, ⟨m, hm, rfl⟩, rfl⟩
      exact ⟨m.id, ⟨m, hm, rfl⟩, chamberAt_of_mem_takenAt hm⟩
  rw [himage, List.toFinset_card_of_nodup
    ((nodup_chamberOrder _).map (Option.some_injective Nat)), List.length_map]

/-- The points of a chamber that a seed takes up are its partners in that chamber. -/
theorem card_filter_chamberAt (criteria : Criteria α) (points : List (SpacePoint α))
    (s chamber : Nat) :
    ((partners criteria points s).filter fun j => chamberAt points j = some chamber).card =
      pointsIn (takenAt criteria points s) chamber := by
  have hfilter : (partners criteria points s).filter (fun j => chamberAt points j = some chamber) =
      (((takenAt criteria points s).filter fun m => m.point.chamber == chamber).map
        (·.id)).toFinset := by
    ext j
    simp only [Finset.mem_filter, mem_partners_iff_exists, List.mem_toFinset, List.mem_map,
      List.mem_filter, beq_iff_eq]
    constructor
    · rintro ⟨⟨m, hm, rfl⟩, hchamber⟩
      rw [chamberAt_of_mem_takenAt hm] at hchamber
      exact ⟨m, ⟨hm, Option.some.inj hchamber⟩, rfl⟩
    · rintro ⟨m, ⟨hm, hchamber⟩, rfl⟩
      exact ⟨⟨m, hm, rfl⟩, by rw [chamberAt_of_mem_takenAt hm, hchamber]⟩
  have hnodup : (((takenAt criteria points s).filter fun m => m.point.chamber == chamber).map
      (·.id)).Nodup := (nodup_map_id_takenAt criteria points s).sublist (List.filter_sublist.map _)
  rw [hfilter, List.toFinset_card_of_nodup hnodup, List.length_map, pointsIn,
    List.countP_eq_length_filter]

/-- The number of candidates of a seed with partners, by the partners and their chambers. -/
theorem length_candidatesAt (hs : s < points.length) :
    (candidatesAt criteria points s).length =
      if (partners criteria points s).Nonempty then
        2 ^ ((partners criteria points s).card -
          ((partners criteria points s).image (chamberAt points)).card)
      else 0 := by
  rw [candidatesAt_eq hs]
  by_cases htaken : takenAt criteria points s = []
  · rw [if_neg (by rw [← Finset.card_pos, card_partners, htaken]; exact Nat.lt_irrefl 0), htaken]
    rfl
  · have hpos := List.length_pos_of_ne_nil htaken
    rw [if_pos (by rwa [← Finset.card_pos, card_partners]), card_image_chamberAt, card_partners,
      length_spread (takes_takenAt hs) htaken]

end Taken

/-! ## Linking without a bound -/

section Seeding

variable {criteria : Criteria α} {points : List (SpacePoint α)} {n : Nat}

theorem mem_seedsOf_iff_any (hn : n < points.length) :
    n ∈ seedsOf criteria points ↔
      (seedsBelow criteria points n).any (fun s => accepted criteria points s n) = false := by
  rw [seedsOf, mem_seedsBelow_iff, and_iff_right hn, List.any_eq_false]
  simp only [Bool.not_eq_true]

/-- A point is on a candidate found so far if and only if an earlier seed accepts it. -/
theorem any_contains_candidatesAt (hn : n < points.length) :
    ((seedsBelow criteria points n).flatMap (candidatesAt criteria points)).any (·.contains n) =
      (seedsBelow criteria points n).any fun s => accepted criteria points s n := by
  rw [Bool.eq_iff_iff, List.any_flatMap, List.any_eq_true, List.any_eq_true]
  refine exists_congr fun s => and_congr_right fun hs => ?_
  rw [← contains_candidatesAt_iff (lt_of_mem_seedsBelow hs) hn, List.any_eq_true]

/-- One point of linking without a bound: a seed adds its candidates and is compared with the later
points, and any other point is passed over. -/
theorem linkFreely_drop_succ (hn : n < points.length) (d : Diagnostics α) :
    linkFreely criteria ((members points).drop n)
        ((seedsBelow criteria points n).flatMap (candidatesAt criteria points)) d =
      linkFreely criteria ((members points).drop (n + 1))
        ((seedsBelow criteria points (n + 1)).flatMap (candidatesAt criteria points))
        (if n ∈ seedsOf criteria points then
          compared ⟨n, points[n]⟩ ((members points).drop (n + 1)) d
        else d) := by
  rw [drop_members_eq_cons hn, linkFreely, seedsBelow]
  simp only [any_contains_candidatesAt hn, mem_seedsOf_iff_any hn]
  by_cases hany : (seedsBelow criteria points n).any fun s => accepted criteria points s n
  · rw [if_pos hany, if_pos hany, if_neg (by simp [hany])]
  · rw [if_neg hany, if_neg hany, if_pos (by simpa using hany), List.flatMap_append,
      List.flatMap_singleton, candidatesAt_eq hn, takenAt, getElem?_members,
      List.getElem?_eq_getElem hn]
    rfl

end Seeding

/-- Linking the points from a position on completes what the seeds before it found. -/
theorem linkFreely_drop (criteria : Criteria α) (points : List (SpacePoint α)) (n : Nat)
    (hn : n ≤ points.length) (d : Diagnostics α) :
    (linkFreely criteria ((members points).drop n)
        ((seedsBelow criteria points n).flatMap (candidatesAt criteria points)) d).1 =
      (seedsOf criteria points).flatMap (candidatesAt criteria points) := by
  -- by the number of points that are left
  induction hrest : points.length - n generalizing n d with
  | zero =>
      rw [drop_members_of_le (by omega), linkFreely, seedsOf, show n = points.length by omega]
  | succ k ih =>
      rw [linkFreely_drop_succ (by omega)]
      exact ih (n + 1) (by omega) _ (by omega)

/-- Linking without a bound finds the candidates of each seed, seed after seed. -/
theorem linkFreely_eq (criteria : Criteria α) (points : List (SpacePoint α)) (d : Diagnostics α) :
    (linkFreely criteria (members points) [] d).1 =
      (seedsOf criteria points).flatMap (candidatesAt criteria points) :=
  linkFreely_drop criteria points 0 (Nat.zero_le _) d

end DriftChamber
