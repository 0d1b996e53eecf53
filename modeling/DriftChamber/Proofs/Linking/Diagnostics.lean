/-
# What the diagnostics see

Linking across chambers compares a seed with every later point of another chamber, and a point that
an earlier seed accepted is no seed.  So the diagnostics see the pairs of points of different
chambers that start with a seed (`comparedPairs`), and no others:

* `diagnostics_linkAll`: over any number of events in turn they count these pairs, and in each
  component they keep the first difference of least magnitude;
* `covers_link_iff`: so they see all pairs of points of different chambers exactly if every pair
  starts with a seed.

The first rests on one step of linking (`linkFreely_drop_succ`) and on one step of the comparison
(`Diagnostics.IsClosest.closer`), both carried over the pairs in scan order.
-/
import DriftChamber.Proofs.Float.Order
import DriftChamber.Proofs.Linking.Tracks

namespace DriftChamber

variable {α : Type}

/-! ## Pairs of points -/

/-- The pairs of points of different chambers, the earlier point first, in scan order. -/
def crossPairs (points : List (SpacePoint α)) : List (Member α × Member α) :=
  (members points ×ˢ members points).filter fun p =>
    decide (p.1.id < p.2.id) && decide (p.1.point.chamber ≠ p.2.point.chamber)

/-- The pairs that a point makes with the later points of other chambers. -/
def pairsFrom (points : List (SpacePoint α)) (m : Member α) : List (Member α × Member α) :=
  ((members points).filter fun m' =>
    decide (m.id < m'.id) && decide (m.point.chamber ≠ m'.point.chamber)).map (m, ·)

theorem fst_of_mem_pairsFrom {points : List (SpacePoint α)} {m : Member α}
    {p : Member α × Member α} (h : p ∈ pairsFrom points m) : p.1 = m := by
  obtain ⟨m', -, rfl⟩ := List.mem_map.mp h
  rfl

theorem crossPairs_eq_flatMap (points : List (SpacePoint α)) :
    crossPairs points = (members points).flatMap (pairsFrom points) := by
  unfold crossPairs
  show ((members points).flatMap fun m => (members points).map (m, ·)).filter _ = _
  rw [List.filter_flatMap]
  exact List.flatMap_congr fun m _ => List.filter_map

theorem id_of_getElem?_members {points : List (SpacePoint α)} {i : Nat} {m : Member α}
    (h : (members points)[i]? = some m) : m.id = i := by
  rw [getElem?_members, Option.map_eq_some_iff] at h
  obtain ⟨point, -, rfl⟩ := h
  rfl

/-- The points after a position are those left when all up to it are dropped. -/
theorem filter_lt_members (points : List (SpacePoint α)) (n : Nat) :
    (members points).filter (fun m => decide (n < m.id)) = (members points).drop (n + 1) := by
  conv_lhs => rw [← List.take_append_drop (n + 1) (members points), List.filter_append]
  have hearlier : ((members points).take (n + 1)).filter (fun m => decide (n < m.id)) = [] := by
    rw [List.filter_eq_nil_iff]
    intro m hm
    obtain ⟨i, hi⟩ := List.mem_iff_getElem?.mp hm
    rw [List.getElem?_take] at hi
    split at hi
    · have hid := id_of_getElem?_members hi
      simp only [decide_eq_true_eq]
      omega
    · cases hi
  have hlater : ((members points).drop (n + 1)).filter (fun m => decide (n < m.id)) =
      (members points).drop (n + 1) := by
    rw [List.filter_eq_self]
    intro m hm
    obtain ⟨i, hi⟩ := List.mem_iff_getElem?.mp hm
    rw [List.getElem?_drop] at hi
    have hid := id_of_getElem?_members hi
    simp only [decide_eq_true_eq]
    omega
  rw [hearlier, hlater, List.nil_append]

/-- A point is paired with the points of other chambers among those that are left after it. -/
theorem pairsFrom_eq {points : List (SpacePoint α)} {n : Nat} (point : SpacePoint α) :
    pairsFrom points ⟨n, point⟩ =
      (((members points).drop (n + 1)).filter fun m => decide (point.chamber ≠ m.point.chamber)).map
        (⟨n, point⟩, ·) := by
  rw [← filter_lt_members, List.filter_filter, pairsFrom]
  simp only [Bool.and_comm]

variable [Scalar α]

/-- The difference of the stubs of a pair. -/
def delta (p : Member α × Member α) : Ray α := p.1.point.stub.sub p.2.point.stub

/-- The pairs that linking compares: those that start with a seed. -/
def comparedPairs (criteria : Criteria α) (points : List (SpacePoint α)) :
    List (Member α × Member α) :=
  (crossPairs points).filter fun p => decide (p.1.id ∈ seedsOf criteria points)

theorem comparedPairs_eq_flatMap (criteria : Criteria α) (points : List (SpacePoint α)) :
    comparedPairs criteria points = (members points).flatMap fun m =>
      if m.id ∈ seedsOf criteria points then pairsFrom points m else [] := by
  rw [comparedPairs, crossPairs_eq_flatMap, List.filter_flatMap]
  refine List.flatMap_congr fun m _ => ?_
  by_cases hseed : m.id ∈ seedsOf criteria points
  · rw [if_pos hseed, List.filter_eq_self]
    intro p hp
    rw [fst_of_mem_pairsFrom hp]
    exact decide_eq_true hseed
  · rw [if_neg hseed, List.filter_eq_nil_iff]
    intro p hp
    rw [fst_of_mem_pairsFrom hp]
    simpa using hseed

/-- The differences that linking looks at in some events, in scan order. -/
def differences (criteria : Criteria α) (events : List (List (SpacePoint α))) : List (Ray α) :=
  events.flatMap fun points => (comparedPairs criteria points).map delta

/-! ## One event -/

/-- A seed is compared with the points that it makes pairs with. -/
theorem compared_eq_foldl (points : List (SpacePoint α)) (n : Nat) (point : SpacePoint α)
    (d : Diagnostics α) :
    compared ⟨n, point⟩ ((members points).drop (n + 1)) d =
      ((pairsFrom points ⟨n, point⟩).map delta).foldl Diagnostics.record d := by
  rw [pairsFrom_eq, List.map_map, List.foldl_map]
  rfl

/-- Linking the points from a position on sees the pairs of the seeds among them. -/
theorem diagnostics_linkFreely_drop (criteria : Criteria α) (points : List (SpacePoint α)) (n : Nat)
    (hn : n ≤ points.length) (d : Diagnostics α) :
    (linkFreely criteria ((members points).drop n)
        ((seedsBelow criteria points n).flatMap (candidatesAt criteria points)) d).2 =
      ((((members points).drop n).flatMap fun m =>
        if m.id ∈ seedsOf criteria points then pairsFrom points m else []).map delta).foldl
          Diagnostics.record d := by
  -- by the number of points that are left
  induction hrest : points.length - n generalizing n d with
  | zero =>
      rw [drop_members_of_le (by omega)]
      rfl
  | succ k ih =>
      have hlt : n < points.length := by omega
      rw [linkFreely_drop_succ hlt, ih (n + 1) (by omega) _ (by omega), drop_members_eq_cons hlt,
        List.flatMap_cons, List.map_append, List.foldl_append]
      congr 1
      by_cases hseed : n ∈ seedsOf criteria points
      · rw [if_pos hseed, if_pos hseed, compared_eq_foldl]
      · rw [if_neg hseed, if_neg hseed]
        rfl

/-- Linking without a bound sees the pairs that start with a seed. -/
theorem diagnostics_linkFreely (criteria : Criteria α) (points : List (SpacePoint α))
    (d : Diagnostics α) :
    (linkFreely criteria (members points) [] d).2 =
      ((comparedPairs criteria points).map delta).foldl Diagnostics.record d := by
  rw [comparedPairs_eq_flatMap]
  exact diagnostics_linkFreely_drop criteria points 0 (Nat.zero_le _) d

namespace Linker

variable {l : Linker α} {points : List (SpacePoint α)} {d : Diagnostics α}

/-- What the diagnostics see in an event that keeps within the bound. -/
theorem diagnostics_link_of_ok (hmode : l.singleStub = false) {tracks : List (Track α)}
    (hlink : (l.link points d).tracks = .ok tracks) :
    (l.link points d).diagnostics =
      ((comparedPairs l.criteria points).map delta).foldl Diagnostics.record d := by
  obtain ⟨hfits, -⟩ := tracks_link_eq_ok_iff.mp hlink
  rw [diagnostics_link l points d hfits, unbounded, if_neg (by simp [hmode]),
    diagnostics_linkFreely]

/-- Where every point makes a track of its own, nothing is compared. -/
theorem diagnostics_link_of_singleStub (hmode : l.singleStub = true) :
    (l.link points d).diagnostics = d := by
  unfold link candidates
  rw [if_pos hmode]
  by_cases hfull : l.maxTracks < points.length
  · rw [if_pos hfull]
  · rw [if_neg hfull]

end Linker

/-! ## Closest values -/

namespace Diagnostics

/-- What is kept of some values of a component: the first one of least magnitude, as far as there is
one of magnitude below the mark, and else the mark.  What is no number has no magnitude to compare
and is never kept. -/
inductive IsClosest (values : List α) : α → Prop
  /-- No value is of magnitude below the mark. -/
  | unset (hnone : ∀ v ∈ values, ¬Scalar.abs v < Scalar.abs (differenceUnset : α)) :
      IsClosest values differenceUnset
  /-- Earlier values are of greater magnitude, and later ones are not of smaller magnitude. -/
  | kept {before after : List α} {closest : α} (hvalues : values = before ++ closest :: after)
      (hbelow : Scalar.abs closest < Scalar.abs (differenceUnset : α))
      (hbefore : ∀ v ∈ before, ¬Scalar.abs v ≤ Scalar.abs closest)
      (hafter : ∀ v ∈ after, ¬Scalar.abs v < Scalar.abs closest) : IsClosest values closest

namespace IsClosest

variable {values : List Float} {current : Float}

/-- No value is closer. -/
theorem not_lt (h : IsClosest values current) :
    ∀ v ∈ values, ¬Scalar.abs v < Scalar.abs current := by
  cases h with
  | unset hnone => exact hnone
  | kept hvalues _ hbefore hafter =>
      subst hvalues
      intro v hv
      rcases List.mem_append.mp hv with hv | hv
      · exact fun hlt => hbefore v hv (Binary64.le_of_lt hlt)
      · rcases List.mem_cons.mp hv with rfl | hv
        · exact Binary64.lt_irrefl
        · exact hafter v hv

theorem le_unset (h : IsClosest values current) :
    Scalar.abs current ≤ Scalar.abs (differenceUnset : Float) := by
  cases h with
  | unset _ => decide +kernel
  | kept _ hbelow => exact Binary64.le_of_lt hbelow

/-- No number is closer, so none is of smaller magnitude. -/
theorem abs_le (h : IsClosest values current) {v : Float} (hv : v ∈ values)
    (hnumber : v.isNaN = false) : Scalar.abs current ≤ Scalar.abs v := by
  refine Binary64.le_of_not_gt ?_ (Binary64.isNaN_abs hnumber) (h.not_lt v hv)
  cases h with
  | unset _ => decide +kernel
  | kept _ hbelow => exact Binary64.isNaN_of_lt hbelow

/-- One more value. -/
theorem closer (h : IsClosest values current) (v : Float) :
    IsClosest (values ++ [v]) (Diagnostics.closer current v) := by
  unfold Diagnostics.closer
  by_cases hlt : Scalar.abs v < Scalar.abs current
  · rw [if_pos hlt]
    have hvalues : values ++ [v] = values ++ v :: [] := rfl
    refine kept hvalues ?_ ?_ fun w hw => absurd hw List.not_mem_nil
    · exact Binary64.lt_of_lt_of_le hlt h.le_unset
    · exact fun w hw hle => h.not_lt w hw (Binary64.lt_of_le_of_lt hle hlt)
  · rw [if_neg hlt]
    cases h with
    | unset hnone =>
        refine unset fun w hw => ?_
        rcases List.mem_append.mp hw with hw | hw
        · exact hnone w hw
        · rwa [List.mem_singleton.mp hw]
    | kept hvalues hbelow hbefore hafter =>
        refine kept (by rw [hvalues, List.append_assoc, List.cons_append]) hbelow hbefore ?_
        intro w hw
        rcases List.mem_append.mp hw with hw | hw
        · exact hafter w hw
        · rwa [List.mem_singleton.mp hw]

end IsClosest

/-- All values in turn. -/
theorem isClosest_foldl (values : List Float) :
    IsClosest values (values.foldl closer differenceUnset) := by
  induction values using List.reverseRecOn with
  | nil => exact .unset fun _ hv => absurd hv List.not_mem_nil
  | append_singleton values v ih =>
      rw [List.foldl_append]
      exact ih.closer v

/-- The components are kept apart. -/
theorem foldl_record (deltas : List (Ray α)) (d : Diagnostics α) :
    deltas.foldl record d =
      { closest :=
          ⟨(deltas.map (·.x)).foldl closer d.closest.x, (deltas.map (·.y)).foldl closer d.closest.y,
            (deltas.map (·.xp)).foldl closer d.closest.xp,
            (deltas.map (·.yp)).foldl closer d.closest.yp⟩
        pairsTested := d.pairsTested + deltas.length } := by
  induction deltas generalizing d with
  | nil => rfl
  | cons delta rest ih =>
      rw [List.foldl_cons, ih, record, List.length_cons]
      simp only [List.map_cons, List.foldl_cons, Diagnostics.mk.injEq, true_and]
      omega

end Diagnostics

/-! ## Events in turn -/

namespace Linker

/-- Links events one after the other, each going on with the diagnostics that the one before it
left.  It gives the outcome of every event, and the diagnostics in the end. -/
def linkAll (l : Linker α) :
    List (List (SpacePoint α)) → Diagnostics α →
      List (Except LinkError (List (Track α))) × Diagnostics α
  | [], d => ([], d)
  | points :: rest, d =>
      let linked := l.link points d
      let others := l.linkAll rest linked.diagnostics
      (linked.tracks :: others.1, others.2)

/-- Where no event is aborted, the diagnostics see the differences of one event after the other. -/
theorem linkAll_eq_foldl {l : Linker α} (hmode : l.singleStub = false)
    (events : List (List (SpacePoint α))) (d : Diagnostics α)
    (hlinked : ∀ outcome ∈ (l.linkAll events d).1, outcome.isOk = true) :
    (l.linkAll events d).2 = (differences l.criteria events).foldl Diagnostics.record d := by
  induction events generalizing d with
  | nil => rfl
  | cons points rest ih =>
      have hrest := ih (l.link points d).diagnostics fun outcome houtcome =>
        hlinked outcome (List.mem_cons_of_mem _ houtcome)
      have hfirst : (l.link points d).tracks.isOk = true := hlinked _ List.mem_cons_self
      cases htracks : (l.link points d).tracks with
      | error e =>
          rw [htracks] at hfirst
          cases hfirst
      | ok tracks =>
          rw [differences, List.flatMap_cons, List.foldl_append,
            ← diagnostics_link_of_ok hmode htracks]
          exact hrest

/-- Where every point makes a track of its own, no event changes the diagnostics. -/
theorem linkAll_of_singleStub {l : Linker α} (hmode : l.singleStub = true)
    (events : List (List (SpacePoint α))) (d : Diagnostics α) : (l.linkAll events d).2 = d := by
  induction events generalizing d with
  | nil => rfl
  | cons points rest ih => exact (ih _).trans (diagnostics_link_of_singleStub hmode)

end Linker

/-- What the diagnostics see of events that are linked in turn, none of which is aborted.  Across
chambers they count the pairs of points of different chambers that start with a seed, and in each
component, independently of the others, they keep the first of the differences of least magnitude.
Where every point makes a track of its own, they stay as they are. -/
theorem diagnostics_linkAll (l : Linker Float) (events : List (List (SpacePoint Float))) :
    (l.singleStub = false →
      (∀ outcome ∈ (l.linkAll events Diagnostics.none).1, outcome.isOk = true) →
      (l.linkAll events Diagnostics.none).2.pairsTested =
          (events.map fun points => (comparedPairs l.criteria points).length).sum ∧
        Diagnostics.IsClosest ((differences l.criteria events).map (·.x))
          (l.linkAll events Diagnostics.none).2.closest.x ∧
        Diagnostics.IsClosest ((differences l.criteria events).map (·.y))
          (l.linkAll events Diagnostics.none).2.closest.y ∧
        Diagnostics.IsClosest ((differences l.criteria events).map (·.xp))
          (l.linkAll events Diagnostics.none).2.closest.xp ∧
        Diagnostics.IsClosest ((differences l.criteria events).map (·.yp))
          (l.linkAll events Diagnostics.none).2.closest.yp) ∧
      (l.singleStub = true → ∀ d, (l.linkAll events d).2 = d) := by
  refine ⟨fun hmode hlinked => ?_, fun hmode => Linker.linkAll_of_singleStub hmode events⟩
  rw [Linker.linkAll_eq_foldl hmode events _ hlinked, Diagnostics.foldl_record]
  refine ⟨?_, Diagnostics.isClosest_foldl _, Diagnostics.isClosest_foldl _,
    Diagnostics.isClosest_foldl _, Diagnostics.isClosest_foldl _⟩
  rw [differences, List.length_flatMap]
  simp only [List.length_map]
  exact Nat.zero_add _

/-- Three points of three chambers that all agree, so that the second one is no seed. -/
def chained : List (SpacePoint Float) :=
  [⟨1, ⟨0, 0, 0, 0⟩, []⟩, ⟨2, ⟨0.5, 0, 0, 0⟩, []⟩, ⟨3, ⟨0.75, 0, 0, 0⟩, []⟩]

/-- Points that differ from the first one by as much as two of the chained points, to the other
side, and by what is no number. -/
def tied : List (SpacePoint Float) :=
  [⟨1, ⟨2, 0, 0, 0⟩, []⟩, ⟨2, ⟨1.5, 0, 0, 0⟩, []⟩, ⟨3, ⟨0 / 0, 0, 0, 0⟩, []⟩]

/-- The closest two chained points are not compared, and of the two differences of magnitude one
half the first one is kept. -/
theorem diagnostics_linkAll_chained :
    ((Linker.ofTracking Tracking.standard 12).linkAll [chained, tied]
        Diagnostics.none).2.pairsTested = 4 ∧
      ((differences Tracking.standard.criteria [chained, tied]).map (·.x)) =
        [-0.5, -0.75, 0.5, 0 / 0] ∧
      Diagnostics.IsClosest [-0.5, -0.75, 0.5, 0 / 0]
        ((Linker.ofTracking Tracking.standard 12).linkAll [chained, tied]
          Diagnostics.none).2.closest.x ∧
      ((Linker.ofTracking Tracking.standard 12).linkAll [chained, tied]
          Diagnostics.none).2.closest.x = -0.5 := by
  obtain ⟨hcount, hx, -⟩ := (diagnostics_linkAll (Linker.ofTracking Tracking.standard 12)
    [chained, tied]).1 rfl (by decide +kernel)
  have hdifferences : (differences Tracking.standard.criteria [chained, tied]).map (·.x) =
      [-0.5, -0.75, 0.5, 0 / 0] := by decide +kernel
  refine ⟨hcount.trans (by decide +kernel), hdifferences, ?_, by decide +kernel⟩
  rw [← hdifferences]
  exact hx

/-! ## The whole event -/

/-- A difference is no closer than what the diagnostics keep, in every component in which it is a
number. -/
structure Diagnostics.Bounds (d : Diagnostics Float) (difference : Ray Float) : Prop where
  /-- It is no closer in horizontal position. -/
  x : difference.x.isNaN = false → Scalar.abs d.closest.x ≤ Scalar.abs difference.x
  /-- It is no closer in vertical position. -/
  y : difference.y.isNaN = false → Scalar.abs d.closest.y ≤ Scalar.abs difference.y
  /-- It is no closer in horizontal slope. -/
  xp : difference.xp.isNaN = false → Scalar.abs d.closest.xp ≤ Scalar.abs difference.xp
  /-- It is no closer in vertical slope. -/
  yp : difference.yp.isNaN = false → Scalar.abs d.closest.yp ≤ Scalar.abs difference.yp

/-- What has been recorded is no closer than what is kept. -/
theorem Diagnostics.bounds_foldl_record {deltas : List (Ray Float)} {difference : Ray Float}
    (h : difference ∈ deltas) :
    (deltas.foldl record (none : Diagnostics Float)).Bounds difference := by
  rw [foldl_record]
  exact ⟨(isClosest_foldl _).abs_le (List.mem_map_of_mem h),
    (isClosest_foldl _).abs_le (List.mem_map_of_mem h),
    (isClosest_foldl _).abs_le (List.mem_map_of_mem h),
    (isClosest_foldl _).abs_le (List.mem_map_of_mem h)⟩

/-- How much of an event the diagnostics see.  They count all pairs of points of different chambers
exactly if each of these pairs starts with a seed.  They bound the difference of every pair that
does, so in that case they bound all. -/
theorem covers_link_iff (l : Linker Float) (points : List (SpacePoint Float))
    (hmode : l.singleStub = false) (tracks : List (Track Float))
    (hlink : (l.link points Diagnostics.none).tracks = .ok tracks) :
    ((l.link points Diagnostics.none).diagnostics.pairsTested = (crossPairs points).length ↔
        ∀ p ∈ crossPairs points, p.1.id ∈ seedsOf l.criteria points) ∧
      ∀ p ∈ crossPairs points, p.1.id ∈ seedsOf l.criteria points →
        (l.link points Diagnostics.none).diagnostics.Bounds (delta p) := by
  rw [Linker.diagnostics_link_of_ok hmode hlink]
  constructor
  · rw [Diagnostics.foldl_record, List.length_map]
    show 0 + (comparedPairs l.criteria points).length = _ ↔ _
    rw [Nat.zero_add, comparedPairs, List.length_filter_eq_length_iff]
    simp only [decide_eq_true_eq]
  · intro p hp hseed
    refine Diagnostics.bounds_foldl_record (List.mem_map_of_mem ?_)
    exact List.mem_filter.mpr ⟨hp, decide_eq_true hseed⟩

/-- In the crowded event the first point makes all the pairs, and it is a seed. -/
theorem covers_link_crowded :
    ((Linker.ofTracking Tracking.standard 12).link crowded
        Diagnostics.none).diagnostics.pairsTested = (crossPairs crowded).length ∧
      ∀ p ∈ crossPairs crowded, ((Linker.ofTracking Tracking.standard 12).link crowded
        Diagnostics.none).diagnostics.Bounds (delta p) := by
  have hseeds : ∀ p ∈ crossPairs crowded, p.1.id ∈ seedsOf Tracking.standard.criteria crowded := by
    decide +kernel
  obtain ⟨hcount, hbounds⟩ :=
    covers_link_iff (Linker.ofTracking Tracking.standard 12) crowded rfl _ rfl
  exact ⟨hcount.mpr hseeds, fun p hp => hbounds p hp (hseeds p hp)⟩

/-- Of the chained points the last two are the closest, but they are not compared. -/
theorem not_covers_link_chained :
    ∃ tracks, ((Linker.ofTracking Tracking.standard 12).link chained Diagnostics.none).tracks =
        .ok tracks ∧
      ((Linker.ofTracking Tracking.standard 12).link chained
        Diagnostics.none).diagnostics.pairsTested ≠ (crossPairs chained).length ∧
      ∃ p ∈ crossPairs chained, (delta p).x.isNaN = false ∧
        ¬Scalar.abs ((Linker.ofTracking Tracking.standard 12).link chained
          Diagnostics.none).diagnostics.closest.x ≤ Scalar.abs (delta p).x := by
  refine ⟨_, rfl, by decide +kernel,
    (⟨1, ⟨2, ⟨0.5, 0, 0, 0⟩, []⟩⟩, ⟨2, ⟨3, ⟨0.75, 0, 0, 0⟩, []⟩⟩), ?_⟩
  decide +kernel

end DriftChamber
