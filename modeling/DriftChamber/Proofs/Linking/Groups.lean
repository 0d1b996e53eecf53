/-
# Groups of points that do not interact

If no point of a group accepts a point outside it, or is accepted by one, the group is linked as if
it were alone (`link_part`): the tracks of the event that lie in the group are, up to the numbering
of the points, the tracks of the group.

The run on the whole event is compared with the run on the group in two steps:

* `linkFreely_filter`: leaving out the other points leaves out the candidates that lie outside;
* `linkFreely_renumber`: linking asks of the positions of points only whether they are equal.
-/
import DriftChamber.Proofs.Linking.Tracks

namespace DriftChamber

variable {α : Type}

/-! ## Part of an event -/

/-- The points at the positions of a set, in order. -/
def part (A : Finset Nat) (points : List (SpacePoint α)) : List (SpacePoint α) :=
  (points.zipIdx.filter fun entry => entry.2 ∈ A).map (·.1)

/-- The position in the part of the point at a position of the event: how many points of the part
come before it. -/
def rankIn (A : Finset Nat) (i : Nat) : Nat := Nat.count (· ∈ A) i

/-- The last point decides for itself whether it is in the part. -/
theorem part_append (A : Finset Nat) (points : List (SpacePoint α)) (p : SpacePoint α) :
    part A (points ++ [p]) = part A points ++ if points.length ∈ A then [p] else [] := by
  unfold part
  rw [List.zipIdx_append, List.filter_append, List.map_append]
  by_cases h : points.length ∈ A <;> simp [h]

/-- A part has as many points as there are indices of it in the event. -/
theorem length_part (A : Finset Nat) (points : List (SpacePoint α)) :
    (part A points).length = rankIn A points.length := by
  induction points using List.reverseRecOn with
  | nil => rfl
  | append_singleton points p ih =>
      rw [part_append, List.length_append, ih, List.length_append, List.length_singleton, rankIn,
        rankIn, Nat.count_succ]
      split <;> rfl

/-- Positions in the part tell its points apart. -/
theorem injOn_rankIn (A : Finset Nat) : Set.InjOn (rankIn A) A := by
  intro i hi j hj h
  exact Nat.count_injective hi hj h

/-- The part that leaves out one point. -/
theorem part_eq_eraseIdx {A : Finset Nat} {p : Nat} (points : List (SpacePoint α))
    (hA : ∀ i < points.length, (i ∈ A ↔ i ≠ p)) : part A points = points.eraseIdx p := by
  induction points using List.reverseRecOn with
  | nil => rfl
  | append_singleton points x ih =>
      have hlast := hA points.length (by simp)
      rw [part_append, ih fun i hi => hA i (by rw [List.length_append]; omega)]
      rcases Nat.lt_trichotomy p points.length with hlt | heq | hgt
      · rw [if_pos (hlast.mpr (by omega)), List.eraseIdx_append_of_lt_length hlt]
      · rw [if_neg fun hmem => hlast.mp hmem heq.symm,
          List.eraseIdx_append_of_length_le (Nat.le_of_eq heq.symm), heq, Nat.sub_self,
          List.eraseIdx_of_length_le (Nat.le_refl _)]
        rfl
      · rw [if_pos (hlast.mpr (by omega)), List.eraseIdx_of_length_le (by omega),
          List.eraseIdx_of_length_le (by rw [List.length_append, List.length_singleton]; omega)]

theorem rankIn_eq_of_mem_iff {A : Finset Nat} {p n : Nat} (hA : ∀ i < n, (i ∈ A ↔ i ≠ p)) :
    rankIn A n = if p < n then n - 1 else n := by
  induction n with
  | zero => rfl
  | succ n ih =>
      have hlast := hA n (Nat.lt_succ_self n)
      rw [rankIn, Nat.count_succ, ← rankIn, ih fun i hi => hA i (Nat.lt_succ_of_lt hi)]
      by_cases heq : n = p
      · rw [if_neg fun hmem => hlast.mp hmem heq, if_neg (by omega), if_pos (by omega)]
        omega
      · rw [if_pos (hlast.mpr heq)]
        split <;> split <;> omega

/-- The point with another number. -/
def Member.renumber (g : Nat → Nat) (m : Member α) : Member α := ⟨g m.id, m.point⟩

/-- A further point takes the next number. -/
theorem members_append (points : List (SpacePoint α)) (p : SpacePoint α) :
    members (points ++ [p]) = members points ++ [⟨points.length, p⟩] := by
  unfold members
  rw [List.zipIdx_append, List.map_append]
  simp

theorem nodup_map_id_members (points : List (SpacePoint α)) :
    ((members points).map (·.id)).Nodup := by
  rw [map_id_members]
  exact List.nodup_range

theorem exists_getElem_members {points : List (SpacePoint α)} {i : Nat}
    (hi : i < (members points).length) :
    ∃ p, points[i]? = some p ∧ (members points)[i] = ⟨i, p⟩ := by
  have hget := getElem?_members points i
  rw [List.getElem?_eq_getElem hi] at hget
  cases hp : points[i]? with
  | none => simp [hp] at hget
  | some p =>
      rw [hp] at hget
      exact ⟨p, rfl, Option.some.inj hget⟩

/-- The points of a part are points of the event, numbered anew. -/
theorem members_part (A : Finset Nat) (points : List (SpacePoint α)) :
    members (part A points) =
      ((members points).filter fun m => m.id ∈ A).map (Member.renumber (rankIn A)) := by
  induction points using List.reverseRecOn with
  | nil => rfl
  | append_singleton points p ih =>
      rw [part_append, members_append, List.filter_append, List.map_append, ← ih]
      by_cases h : points.length ∈ A
      · rw [if_pos h, members_append, length_part]
        simp [h, Member.renumber]
      · rw [if_neg h]
        simp [h]

/-! ## Candidates with other numbers -/

/-- The candidate with its points numbered anew. -/
def Candidate.renumber (g : Nat → Nat) (c : Candidate α) : Candidate α :=
  c.map (Member.renumber g)

/-- The track with its points numbered anew. -/
def Track.renumber (g : Nat → Nat) (t : Track α) : Track α :=
  { t with spacePoints := t.spacePoints.map g }

/-- Whether all points of a candidate are at positions of a set. -/
def Candidate.LiesIn (A : Finset Nat) (c : Candidate α) : Prop := ∀ m ∈ c, m.id ∈ A

instance (A : Finset Nat) (c : Candidate α) : Decidable (c.LiesIn A) :=
  inferInstanceAs (Decidable (∀ m ∈ c, m.id ∈ A))

theorem Candidate.toTrack_renumber [Scalar α] (g : Nat → Nat) (numPlanes : Nat)
    (c : Candidate α) : (c.renumber g).toTrack numPlanes = (c.toTrack numPlanes).renumber g := by
  unfold renumber toTrack Track.renumber
  simp [List.flatMap_map, Member.renumber, Function.comp_def]

theorem Candidate.forall_mem_spacePoints_toTrack [Scalar α] {numPlanes : Nat} {c : Candidate α}
    {P : Nat → Prop} : (∀ i ∈ (c.toTrack numPlanes).spacePoints, P i) ↔ ∀ m ∈ c, P m.id :=
  List.forall_mem_map

section Renumber

variable {A : Finset Nat} {g : Nat → Nat} {seed m : Member α} {c : Candidate α}

/-- Numbers that are kept apart tell the same members from others. -/
theorem Candidate.contains_renumber (hg : Set.InjOn g A) (hc : c.LiesIn A) {i : Nat}
    (hi : i ∈ A) : (c.renumber g).contains (g i) = c.contains i := by
  unfold renumber contains
  rw [Bool.eq_iff_iff, List.any_map, List.any_eq_true, List.any_eq_true]
  refine exists_congr fun x => and_congr_right fun hx => ?_
  show (g x.id == g i) = true ↔ (x.id == i) = true
  rw [beq_iff_eq, beq_iff_eq]
  exact hg.eq_iff (hc x hx) hi

theorem Candidate.place?_renumber (g : Nat → Nat) (c : Candidate α) (chamber : Nat) :
    (c.renumber g).place? chamber = c.place? chamber := by
  unfold renumber place?
  rw [List.findIdx?_map]
  rfl

/-- What an offer leaves of a candidate, and the fork it makes, do not hang on the numbering. -/
theorem Candidate.offered_renumber (hg : Set.InjOn g A) (hc : c.LiesIn A) (hm : m.id ∈ A) :
    (c.renumber g).left (m.renumber g) = (c.left m).renumber g ∧
      (c.renumber g).forked? (m.renumber g) = (c.forked? m).map (Candidate.renumber g) := by
  have hcontains : (c.renumber g).contains (m.renumber g).id = c.contains m.id :=
    contains_renumber hg hc hm
  have hplace : (c.renumber g).place? (m.renumber g).point.chamber = c.place? m.point.chamber :=
    place?_renumber g c m.point.chamber
  unfold left forked?
  rw [hcontains, hplace]
  by_cases hmember : c.contains m.id
  · rw [if_pos hmember, if_pos hmember, if_pos hmember, if_pos hmember]
    exact ⟨rfl, rfl⟩
  · rw [if_neg hmember, if_neg hmember, if_neg hmember, if_neg hmember]
    cases c.place? m.point.chamber with
    | none => simp [renumber, extend]
    | some place => simp [renumber, fork, List.map_set]

theorem grow_eq_of_ne_nil {candidates : List (Candidate α)} (hne : candidates ≠ []) :
    grow seed m candidates = candidates.map (·.left m) ++ forks m candidates := by
  obtain ⟨c, rest, rfl⟩ := List.exists_cons_of_ne_nil hne
  rfl

/-- Growing looks at members, and not at how they are numbered. -/
theorem grow_renumber (hg : Set.InjOn g A) {candidates : List (Candidate α)}
    (hcandidates : ∀ c ∈ candidates, c.LiesIn A) (hm : m.id ∈ A) :
    grow (seed.renumber g) (m.renumber g) (candidates.map (Candidate.renumber g)) =
      (grow seed m candidates).map (Candidate.renumber g) := by
  by_cases hne : candidates = []
  · subst hne
    rfl
  · have hleft : (candidates.map (Candidate.renumber g)).map (·.left (m.renumber g)) =
        (candidates.map (·.left m)).map (Candidate.renumber g) := by
      rw [List.map_map, List.map_map]
      exact List.map_congr_left fun c hc =>
        (Candidate.offered_renumber hg (hcandidates c hc) hm).1
    have hforks : forks (m.renumber g) (candidates.map (Candidate.renumber g)) =
        (forks m candidates).map (Candidate.renumber g) := by
      unfold forks
      rw [List.filterMap_map, List.map_filterMap]
      exact List.filterMap_congr fun c hc =>
        (Candidate.offered_renumber hg (hcandidates c hc) hm).2
    rw [grow_eq_of_ne_nil (by simpa using hne), grow_eq_of_ne_nil hne, List.map_append, hleft,
      hforks]

theorem spread_renumber {taken : List (Member α)} (hg : Set.InjOn g A) (h : Takes seed taken)
    (hin : ∀ x ∈ seed :: taken, x.id ∈ A) :
    spread (seed.renumber g) [] (taken.map (Member.renumber g)) =
      (spread seed [] taken).map (Candidate.renumber g) := by
  induction taken using List.reverseRecOn with
  | nil => rfl
  | append_singleton taken m ih =>
      have hbefore : ∀ x ∈ seed :: taken, x.id ∈ A := by
        intro x hx
        refine hin x ?_
        rw [← List.cons_append]
        exact List.mem_append_left _ hx
      have hcandidates : ∀ c ∈ spread seed [] taken, c.LiesIn A := by
        intro c hc x hx
        exact hbefore x (List.mem_cons.mpr (mem_cons_of_mem_spread h.of_append hc hx))
      rw [List.map_append, List.map_singleton, spread_append, spread_append,
        ih h.of_append hbefore]
      exact grow_renumber hg hcandidates (hin m (by simp))

/-- A point of the set is on a candidate exactly if it is on one that lies in the set. -/
theorem any_contains_filter {found : List (Candidate α)} {i : Nat} (hi : i ∈ A)
    (hfound : ∀ c ∈ found, c.LiesIn A ∨ ∀ x ∈ c, x.id ∉ A) :
    (found.filter fun c => c.LiesIn A).any (·.contains i) = found.any (·.contains i) := by
  rw [Bool.eq_iff_iff, List.any_eq_true, List.any_eq_true]
  constructor
  · rintro ⟨c, hc, hcontains⟩
    exact ⟨c, List.mem_of_mem_filter hc, hcontains⟩
  · rintro ⟨c, hc, hcontains⟩
    refine ⟨c, List.mem_filter.mpr ⟨hc, ?_⟩, hcontains⟩
    obtain ⟨x, hx, hid⟩ := List.any_eq_true.mp hcontains
    rw [beq_iff_eq] at hid
    rcases hfound c hc with hlies | hout
    · exact decide_eq_true hlies
    · exact absurd (hid ▸ hi) (hout x hx)

end Renumber

/-! ## Linking a part -/

variable [Scalar α]

/-- What a seed joins among later points is what it may take up. -/
theorem takes_filter_joins {criteria : Criteria α} {seed : Member α} {later : List (Member α)}
    (hnodup : ((seed :: later).map (·.id)).Nodup) :
    Takes seed (later.filter (seed.joins criteria)) := by
  rw [List.map_cons, List.nodup_cons] at hnodup
  refine ⟨hnodup.2.sublist (List.filter_sublist.map _), ?_, ?_⟩
  · intro hmem
    exact hnodup.1 ((List.filter_sublist.map _).subset hmem)
  · intro m hm
    have hjoins := (List.mem_filter.mp hm).2
    rw [Member.joins, Bool.and_eq_true, decide_eq_true_eq] at hjoins
    exact Ne.symm hjoins.1

section Part

variable {criteria : Criteria α} {A : Finset Nat}

/-- Linking finds the same candidates, numbered anew, when the points are. -/
theorem linkFreely_renumber (criteria : Criteria α) {g : Nat → Nat} (hg : Set.InjOn g A)
    (rest : List (Member α)) (found : List (Candidate α)) (d d' : Diagnostics α)
    (hnodup : (rest.map (·.id)).Nodup) (hrest : ∀ m ∈ rest, m.id ∈ A)
    (hfound : ∀ c ∈ found, c.LiesIn A) :
    (linkFreely criteria (rest.map (Member.renumber g)) (found.map (Candidate.renumber g)) d').1 =
      (linkFreely criteria rest found d).1.map (Candidate.renumber g) := by
  induction rest generalizing found d d' with
  | nil => rfl
  | cons seed later ih =>
      have hseed : seed.id ∈ A := hrest seed List.mem_cons_self
      have hlater : ∀ m ∈ later, m.id ∈ A := fun m hm => hrest m (List.mem_cons_of_mem _ hm)
      have hnodup' : (later.map (·.id)).Nodup := (List.nodup_cons.mp hnodup).2
      have hused : (found.map (Candidate.renumber g)).any (·.contains (seed.renumber g).id) =
          found.any (·.contains seed.id) := by
        rw [Bool.eq_iff_iff, List.any_map, List.any_eq_true, List.any_eq_true]
        refine exists_congr fun c => and_congr_right fun hc => ?_
        rw [Function.comp, ← Candidate.contains_renumber hg (hfound c hc) hseed]
        rfl
      rw [List.map_cons, linkFreely, linkFreely, hused]
      by_cases hany : found.any (·.contains seed.id)
      · rw [if_pos hany, if_pos hany]
        exact ih found d d' hnodup' hlater hfound
      · have htakes : Takes seed (later.filter (seed.joins criteria)) := takes_filter_joins hnodup
        have hin : ∀ x ∈ seed :: later.filter (seed.joins criteria), x.id ∈ A := by
          intro x hx
          rcases List.mem_cons.mp hx with rfl | hx
          · exact hseed
          · exact hlater x (List.mem_of_mem_filter hx)
        have hjoins : (later.map (Member.renumber g)).filter ((seed.renumber g).joins criteria) =
            (later.filter (seed.joins criteria)).map (Member.renumber g) := by
          rw [List.filter_map]
          rfl
        rw [if_neg hany, if_neg hany, hjoins, spread_renumber hg htakes hin, ← List.map_append]
        refine ih _ _ _ hnodup' hlater ?_
        intro c hc
        rcases List.mem_append.mp hc with hc | hc
        · exact hfound c hc
        · intro x hx
          exact hin x (List.mem_cons.mpr (mem_cons_of_mem_spread htakes hc hx))

/-- A candidate of a seed lies on the seed's side, if the points that the seed joins do. -/
theorem mem_iff_of_mem_spread {seed : Member α} {later : List (Member α)}
    (hnodup : ((seed :: later).map (·.id)).Nodup)
    (hseed : ∀ m ∈ later, seed.joins criteria m → (seed.id ∈ A ↔ m.id ∈ A)) {c : Candidate α}
    (hc : c ∈ spread seed [] (later.filter (seed.joins criteria))) {x : Member α} (hx : x ∈ c) :
    seed.id ∈ A ↔ x.id ∈ A := by
  rcases mem_cons_of_mem_spread (takes_filter_joins hnodup) hc hx with rfl | hx
  · exact Iff.rfl
  · exact hseed x (List.mem_of_mem_filter hx) (List.mem_filter.mp hx).2

/-- The candidates of a seed that lie in a set are all of them if the seed does, and else none. -/
theorem filter_spread {seed : Member α} {later : List (Member α)}
    (hnodup : ((seed :: later).map (·.id)).Nodup)
    (hseed : ∀ m ∈ later, seed.joins criteria m → (seed.id ∈ A ↔ m.id ∈ A)) :
    (spread seed [] (later.filter (seed.joins criteria))).filter (fun c => c.LiesIn A) =
      if seed.id ∈ A then spread seed [] (later.filter (seed.joins criteria)) else [] := by
  split
  · next hin =>
      rw [List.filter_eq_self]
      intro c hc
      exact decide_eq_true fun x hx => (mem_iff_of_mem_spread hnodup hseed hc hx).mp hin
  · next hout =>
      rw [List.filter_eq_nil_iff]
      intro c hc hlies
      obtain ⟨pick, -, rfl⟩ := exists_choice_of_mem_spread (takes_filter_joins hnodup) c hc
      exact hout (of_decide_eq_true hlies seed List.mem_cons_self)

/-- Linking some of the points finds the candidates that lie among them, if no point of them joins
another one or is joined by it. -/
theorem linkFreely_filter (criteria : Criteria α) (rest : List (Member α))
    (found : List (Candidate α)) (d d' : Diagnostics α) (hnodup : (rest.map (·.id)).Nodup)
    (hapart : rest.Pairwise fun s m => s.joins criteria m → (s.id ∈ A ↔ m.id ∈ A))
    (hfound : ∀ c ∈ found, c.LiesIn A ∨ ∀ x ∈ c, x.id ∉ A) :
    (linkFreely criteria (rest.filter fun m => m.id ∈ A) (found.filter fun c => c.LiesIn A) d').1 =
      (linkFreely criteria rest found d).1.filter fun c => c.LiesIn A := by
  induction rest generalizing found d d' with
  | nil => rfl
  | cons seed later ih =>
      have hnodup' : (later.map (·.id)).Nodup := (List.nodup_cons.mp hnodup).2
      obtain ⟨hseed, hlater⟩ := List.pairwise_cons.mp hapart
      have hfound' : ∀ c ∈ found ++ spread seed [] (later.filter (seed.joins criteria)),
          c.LiesIn A ∨ ∀ x ∈ c, x.id ∉ A := by
        intro c hc
        rcases List.mem_append.mp hc with hc | hc
        · exact hfound c hc
        · by_cases hin : seed.id ∈ A
          · exact Or.inl fun x hx => (mem_iff_of_mem_spread hnodup hseed hc hx).mp hin
          · exact Or.inr fun x hx => mt (mem_iff_of_mem_spread hnodup hseed hc hx).mpr hin
      have hspread := filter_spread hnodup hseed
      rw [linkFreely]
      by_cases hin : seed.id ∈ A
      · -- the seed is tried in both runs, and is on a candidate in both or in neither
        rw [List.filter_cons_of_pos (by simpa using hin), linkFreely,
          any_contains_filter hin hfound]
        by_cases hany : found.any (·.contains seed.id)
        · rw [if_pos hany, if_pos hany]
          exact ih found d d' hnodup' hlater hfound
        · have hjoins : (later.filter fun m => m.id ∈ A).filter (seed.joins criteria) =
              later.filter (seed.joins criteria) := by
            rw [List.filter_filter]
            refine List.filter_congr fun m hm => ?_
            rw [Bool.and_eq_left_iff_imp]
            exact fun hj => decide_eq_true ((hseed m hm hj).mp hin)
          have hnext := ih _ (compared seed later d)
            (compared seed (later.filter fun m => m.id ∈ A) d') hnodup' hlater hfound'
          rw [List.filter_append, hspread, if_pos hin] at hnext
          rw [if_neg hany, if_neg hany, hjoins]
          exact hnext
      · -- the seed is left out, and with it candidates that lie outside
        rw [List.filter_cons_of_neg (by simpa using hin)]
        by_cases hany : found.any (·.contains seed.id)
        · rw [if_pos hany]
          exact ih found d d' hnodup' hlater hfound
        · have hnext := ih _ (compared seed later d) d' hnodup' hlater hfound'
          rw [List.filter_append, hspread, if_neg hin, List.append_nil] at hnext
          rw [if_neg hany]
          exact hnext

end Part

/-! ## Groups -/

/-- Whether the points at the positions of a set do not interact with the other points: no point
accepts one on the other side. -/
def Apart (criteria : Criteria α) (points : List (SpacePoint α)) (A : Finset Nat) : Prop :=
  ∀ i j, accepted criteria points i j → (i ∈ A ↔ j ∈ A)

/-- Whether the point at a position accepts none and is accepted by none. -/
def Isolated (criteria : Criteria α) (points : List (SpacePoint α)) (p : Nat) : Prop :=
  ∀ i, accepted criteria points i p = false ∧ accepted criteria points p i = false

theorem apart_iff_forall_lt {criteria : Criteria α} {points : List (SpacePoint α)}
    {A : Finset Nat} :
    Apart criteria points A ↔
      ∀ j < points.length, ∀ i < j, accepted criteria points i j → (i ∈ A ↔ j ∈ A) := by
  constructor
  · exact fun h j _ i _ => h i j
  · intro h i j haccepted
    obtain ⟨hlt, hj⟩ := lt_of_accepted haccepted
    exact h j hj i hlt haccepted

/-- Only points of the event can take part in a pair, so there are finitely many to look at. -/
theorem isolated_iff_forall_lt {criteria : Criteria α} {points : List (SpacePoint α)} {p : Nat} :
    Isolated criteria points p ↔
      ∀ i < points.length,
        accepted criteria points i p = false ∧ accepted criteria points p i = false := by
  constructor
  · exact fun h i _ => h i
  · intro h i
    by_cases hi : i < points.length
    · exact h i hi
    · constructor <;> rw [← Bool.not_eq_true] <;> intro haccepted
      · obtain ⟨hlt, hj⟩ := lt_of_accepted haccepted
        omega
      · exact hi (lt_of_accepted haccepted).2

instance (criteria : Criteria α) (points : List (SpacePoint α)) (A : Finset Nat) :
    Decidable (Apart criteria points A) :=
  decidable_of_iff _ apart_iff_forall_lt.symm

instance (criteria : Criteria α) (points : List (SpacePoint α)) (p : Nat) :
    Decidable (Isolated criteria points p) :=
  decidable_of_iff _ isolated_iff_forall_lt.symm

/-- A seed and the points it joins are on the same side. -/
theorem Apart.pairwise {criteria : Criteria α} {points : List (SpacePoint α)} {A : Finset Nat}
    (hA : Apart criteria points A) :
    (members points).Pairwise fun s m => s.joins criteria m → (s.id ∈ A ↔ m.id ∈ A) := by
  rw [List.pairwise_iff_getElem]
  intro i j hi hj hlt hjoins
  obtain ⟨seed, hseed, heq⟩ := exists_getElem_members hi
  obtain ⟨point, hpoint, heq'⟩ := exists_getElem_members hj
  rw [heq, heq'] at hjoins ⊢
  exact hA i j ((accepted_iff hseed hpoint).mpr ⟨hlt, hjoins⟩)

section Link

variable {l : Linker α} {points : List (SpacePoint α)} {A : Finset Nat}

/-- What linking finds in a group without a bound is what it finds in the event and lies in the
group. -/
theorem unbounded_part (hmode : l.singleStub = false) (hA : Apart l.criteria points A)
    (d d' : Diagnostics α) :
    (l.unbounded (part A points) d').1 =
      ((l.unbounded points d).1.filter fun c => c.LiesIn A).map
        (Candidate.renumber (rankIn A)) := by
  have hmode' : ¬l.singleStub = true := by simp [hmode]
  have hnodup := nodup_map_id_members points
  have hrenumber := linkFreely_renumber l.criteria (injOn_rankIn A)
    ((members points).filter fun m => m.id ∈ A) [] d d' (hnodup.sublist
      (List.filter_sublist.map _)) (fun m hm => of_decide_eq_true (List.mem_filter.mp hm).2)
    (by simp)
  have hfilter := linkFreely_filter l.criteria (members points) [] d d hnodup
    hA.pairwise (by simp)
  rw [List.map_nil, ← members_part] at hrenumber
  rw [List.filter_nil] at hfilter
  rw [Linker.unbounded, Linker.unbounded, if_neg hmode', if_neg hmode', hrenumber, hfilter]

/-- Every candidate lies in the group or outside it. -/
theorem liesIn_or_of_mem_candidatesAt {criteria : Criteria α} (hA : Apart criteria points A)
    {s : Nat} (hs : s < points.length) {c : Candidate α}
    (hc : c ∈ candidatesAt criteria points s) : c.LiesIn A ∨ ∀ x ∈ c, x.id ∉ A := by
  have hside : ∀ x ∈ c, (s ∈ A ↔ x.id ∈ A) := by
    intro x hx
    rw [candidatesAt_eq hs] at hc
    rcases mem_cons_of_mem_spread (takes_takenAt hs) hc hx with rfl | hx
    · exact Iff.rfl
    · exact hA s x.id (mem_takenAt_iff.mp hx).2
  by_cases hin : s ∈ A
  · exact Or.inl fun x hx => (hside x hx).mp hin
  · exact Or.inr fun x hx => mt (hside x hx).mpr hin

/-- A point that accepts none and is accepted by none is on no candidate. -/
theorem id_ne_of_mem_candidatesAt {criteria : Criteria α} {p s : Nat}
    (hp : Isolated criteria points p) (hs : s < points.length) {c : Candidate α}
    (hc : c ∈ candidatesAt criteria points s) {x : Member α} (hx : x ∈ c) :
    x.id < points.length ∧ x.id ≠ p := by
  rw [candidatesAt_eq hs] at hc
  rcases mem_cons_of_mem_spread (takes_takenAt hs) hc hx with rfl | hx
  · refine ⟨hs, ?_⟩
    show s ≠ p
    rintro rfl
    -- a seed makes candidates only with points that it accepts
    have hnone : takenAt criteria points s = [] := by
      rw [List.eq_nil_iff_forall_not_mem]
      intro m hm
      have haccepted := (mem_takenAt_iff.mp hm).2
      rw [(hp m.id).2] at haccepted
      exact Bool.false_ne_true haccepted
    rw [hnone] at hc
    exact List.not_mem_nil hc
  · have haccepted := (mem_takenAt_iff.mp hx).2
    refine ⟨(lt_of_accepted haccepted).2, ?_⟩
    intro heq
    rw [heq, (hp s).1] at haccepted
    exact Bool.false_ne_true haccepted

/-- Without a bound, a point that accepts none and is accepted by none may be left out. -/
theorem unbounded_eraseIdx (hmode : l.singleStub = false) {p : Nat}
    (hp : Isolated l.criteria points p) (d d' : Diagnostics α) :
    (l.unbounded (points.eraseIdx p) d').1 =
      (l.unbounded points d).1.map (Candidate.renumber fun i => if p < i then i - 1 else i) := by
  have hmem : ∀ i < points.length, (i ∈ (Finset.range points.length).erase p ↔ i ≠ p) := by
    intro i hi
    simp [hi]
  have hapart : Apart l.criteria points ((Finset.range points.length).erase p) := by
    intro i j haccepted
    obtain ⟨hlt, hj⟩ := lt_of_accepted haccepted
    have hip : i ≠ p := by
      rintro rfl
      simp [(hp j).2] at haccepted
    have hjp : j ≠ p := by
      rintro rfl
      simp [(hp i).1] at haccepted
    exact iff_of_true ((hmem i (by omega)).mpr hip) ((hmem j hj).mpr hjp)
  have hids : ∀ c ∈ (l.unbounded points d).1, ∀ x ∈ c, x.id < points.length ∧ x.id ≠ p := by
    intro c hc x hx
    rw [unbounded_eq_flatMap hmode, List.mem_flatMap] at hc
    obtain ⟨s, hs, hc⟩ := hc
    exact id_ne_of_mem_candidatesAt hp (lt_length_of_mem_seedsOf hs) hc hx
  have hall : (l.unbounded points d).1.filter
      (fun c => c.LiesIn ((Finset.range points.length).erase p)) = (l.unbounded points d).1 := by
    rw [List.filter_eq_self]
    intro c hc
    exact decide_eq_true fun x hx => (hmem x.id (hids c hc x hx).1).mpr (hids c hc x hx).2
  have hpart := unbounded_part hmode hapart d d'
  rw [part_eq_eraseIdx points hmem, hall] at hpart
  rw [hpart]
  refine List.map_congr_left fun c hc => List.map_congr_left fun x hx => ?_
  have hid := (hids c hc x hx).1
  rw [Member.renumber, Member.renumber,
    rankIn_eq_of_mem_iff fun i hi => hmem i (Nat.lt_trans hi hid)]

/-- Groups are linked on their own.  If an event has tracks, each of them lies in the group or
outside it, and the tracks of the group alone are those that lie in it, in their order, with their
hits and all else, and with the points numbered as in the group.  So a point within tolerance of
no point of another chamber may come or go: the outcome stays, but for the numbering. -/
theorem link_part (l : Linker α) (points : List (SpacePoint α)) (d d' : Diagnostics α)
    (hmode : l.singleStub = false) :
    (∀ A : Finset Nat, Apart l.criteria points A →
      ∀ tracks, (l.link points d).tracks = .ok tracks →
        (∀ t ∈ tracks, (∀ i ∈ t.spacePoints, i ∈ A) ∨ ∀ i ∈ t.spacePoints, i ∉ A) ∧
          (l.link (part A points) d').tracks =
            .ok ((tracks.filter fun t => ∀ i ∈ t.spacePoints, i ∈ A).map
              (Track.renumber (rankIn A)))) ∧
      ∀ p, Isolated l.criteria points p →
        (l.link (points.eraseIdx p) d').tracks =
          (l.link points d).tracks.map
            (List.map (Track.renumber fun i => if p < i then i - 1 else i)) := by
  constructor
  · intro A hA tracks hlink
    obtain ⟨hfits, htracks⟩ := Linker.tracks_link_eq_ok_iff.mp hlink
    constructor
    · intro t ht
      obtain ⟨s, hs, c, hc, rfl⟩ := (mem_tracks_iff hmode hlink).mp ht
      rcases liesIn_or_of_mem_candidatesAt hA (lt_length_of_mem_seedsOf hs) hc with hin | hout
      · exact Or.inl (Candidate.forall_mem_spacePoints_toTrack.mpr hin)
      · exact Or.inr (Candidate.forall_mem_spacePoints_toTrack.mpr hout)
    · rw [Linker.tracks_link_eq_ok_iff, unbounded_part hmode hA d d', List.length_map]
      -- a part of what the event has is within the bound as well
      refine ⟨le_trans (List.length_filter_le _ _) hfits, ?_⟩
      rw [htracks, List.filter_map, List.map_map, List.map_map]
      have hlies : ((fun t : Track α => decide (∀ i ∈ t.spacePoints, i ∈ A)) ∘
          Candidate.toTrack l.numPlanes) = fun c => decide (c.LiesIn A) := by
        funext c
        exact decide_eq_decide.mpr Candidate.forall_mem_spacePoints_toTrack
      rw [hlies]
      exact List.map_congr_left fun c _ =>
        (Candidate.toTrack_renumber (rankIn A) l.numPlanes c).symm
  · intro p hp
    rw [Linker.tracks_link, Linker.tracks_link, unbounded_eraseIdx hmode hp d d', List.length_map,
      apply_ite (Except.map _), List.map_map]
    have htoTrack : (Candidate.toTrack l.numPlanes : Candidate α → Track α) ∘
          Candidate.renumber (fun i => if p < i then i - 1 else i) =
        Track.renumber (fun i => if p < i then i - 1 else i) ∘
          Candidate.toTrack l.numPlanes := by
      funext c
      exact Candidate.toTrack_renumber _ l.numPlanes c
    rw [htoTrack, ← List.map_map]
    rfl

/-- Two groups, one point after the other, around 0 and around 10, and a last point by itself. -/
def interleaved : List (SpacePoint Float) :=
  [⟨1, ⟨0, 0, 0, 0⟩, [⟨1, 1, 0⟩]⟩, ⟨1, ⟨10, 0, 0, 0⟩, [⟨1, 9, 10⟩]⟩,
    ⟨2, ⟨0.5, 0, 0, 0⟩, [⟨7, 1, 0.5⟩]⟩, ⟨2, ⟨10.25, 0, 0, 0⟩, [⟨7, 9, 10.25⟩]⟩,
    ⟨2, ⟨0.25, 0, 0, 0⟩, [⟨7, 2, 0.25⟩]⟩, ⟨3, ⟨10.5, 0, 0, 0⟩, [⟨8, 9, 10.5⟩]⟩,
    ⟨3, ⟨0.75, 0, 0, 0⟩, [⟨8, 1, 0.75⟩]⟩, ⟨2, ⟨5, 0, 0, 0⟩, []⟩]

/-- The group around 0 makes two of the three tracks, alone as well as among the others, and the
last point changes nothing. -/
theorem link_part_interleaved :
    ∃ tracks, ((Linker.ofTracking Tracking.standard 12).link interleaved Diagnostics.none).tracks =
        .ok tracks ∧
      tracks.map (·.spacePoints) = [[0, 2, 6], [0, 4, 6], [1, 3, 5]] ∧
      ((Linker.ofTracking Tracking.standard 12).link (part {0, 2, 4, 6} interleaved)
          Diagnostics.none).tracks =
        .ok ((tracks.filter fun t => ∀ i ∈ t.spacePoints, i ∈ ({0, 2, 4, 6} : Finset Nat)).map
          (Track.renumber (rankIn {0, 2, 4, 6}))) ∧
      ((Linker.ofTracking Tracking.standard 12).link (interleaved.eraseIdx 7)
          Diagnostics.none).tracks =
        .ok (tracks.map (Track.renumber fun i => if 7 < i then i - 1 else i)) := by
  have hlink : ((Linker.ofTracking Tracking.standard 12).link interleaved
      Diagnostics.none).tracks = .ok _ :=
    Linker.tracks_link_eq_ok_iff.mpr ⟨by decide +kernel, rfl⟩
  obtain ⟨hgroups, halone⟩ := link_part (Linker.ofTracking Tracking.standard 12) interleaved
    Diagnostics.none Diagnostics.none rfl
  refine ⟨_, hlink, by decide +kernel, (hgroups {0, 2, 4, 6} (by decide +kernel) _ hlink).2, ?_⟩
  rw [halone 7 (by decide +kernel), hlink]
  rfl

end Link

end DriftChamber
