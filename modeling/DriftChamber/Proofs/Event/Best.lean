/-
# The best track of an event

An event offers one of its fitted tracks as the best one (`EventResult.best?`): that of least
chi-square per degree of freedom, and of several such tracks the first.  The comparison is by the
strict total order of doubles, so that even a chi-square that is no number has its place
(`Binary64.totalPlace`).

The choice is a fold over the fitted tracks.  What is best so far is the first of the least of what
was seen (`Scalar.IsFirstLeast`); one more entry keeps this (`IsFirstLeast.concat`), hence the whole
fold does (`isFirstLeast_firstLeast`).
-/
import DriftChamber.Proofs.Event.Planewise
import DriftChamber.Proofs.Float.Order

namespace DriftChamber

/-! ## The first of the least -/

namespace Scalar

variable {α β γ : Type} [Scalar α]

/-- The first of the least entries of a list: it precedes all that stand in front of it, and none
that stands behind it precedes it. -/
def IsFirstLeast (entries : List (α × β)) (entry : α × β) : Prop :=
  ∃ earlier later, entries = earlier ++ entry :: later ∧
    (∀ e ∈ earlier, precedes entry.1 e.1 = true) ∧ ∀ e ∈ later, precedes e.1 entry.1 = false

/-- What is attached to the entries has no part in the choice. -/
theorem firstLeast_map (f : β → γ) (entries : List (α × β)) :
    firstLeast (entries.map (Prod.map id f)) = (firstLeast entries).map (Prod.map id f) := by
  cases entries with
  | nil => rfl
  | cons entry rest =>
      rw [List.map_cons, firstLeast, firstLeast, List.foldl_map, Option.map_some]
      refine congrArg some (List.foldl_hom (Prod.map id f) fun best next => ?_)
      rw [apply_ite (Prod.map id f)]
      rfl

theorem firstLeast_eq_none_iff {entries : List (α × β)} :
    firstLeast entries = none ↔ entries = [] := by
  cases entries <;> simp [firstLeast]

theorem mem_of_firstLeast {entries : List (α × β)} {best : α × β}
    (h : firstLeast entries = some best) : best ∈ entries := by
  cases entries with
  | nil => cases h
  | cons entry rest =>
      cases h
      refine List.foldlRecOn (motive := (· ∈ entry :: rest)) rest _ List.mem_cons_self ?_
      intro best hbest next hnext
      split
      · exact List.mem_cons_of_mem _ hnext
      · exact hbest

section Ordered

variable {κ : Type} [LinearOrder κ] {place : α → κ} {entries : List (α × β)} {best : α × β}

/-- One more entry: the first of the least is the new entry if it precedes the one so far, and else
stays. -/
theorem IsFirstLeast.concat (hplace : ∀ a b : α, precedes a b = decide (place a < place b))
    (h : IsFirstLeast entries best) (next : α × β) :
    IsFirstLeast (entries ++ [next]) (if precedes next.1 best.1 then next else best) := by
  obtain ⟨earlier, later, rfl, hearlier, hlater⟩ := h
  simp only [hplace, decide_eq_true_eq, decide_eq_false_iff_not, not_lt] at hearlier hlater ⊢
  by_cases hnext : place next.1 < place best.1
  · rw [if_pos hnext]
    refine ⟨earlier ++ best :: later, [], by simp, ?_, by simp⟩
    intro e he
    rw [hplace, decide_eq_true_eq]
    -- the new entry is below the least so far, hence below all
    rcases List.mem_append.mp he with he | he
    · exact hnext.trans (hearlier e he)
    · rcases List.mem_cons.mp he with rfl | he
      · exact hnext
      · exact hnext.trans_le (hlater e he)
  · rw [if_neg hnext]
    refine ⟨earlier, later ++ [next], by simp, ?_, ?_⟩
    · simpa only [hplace, decide_eq_true_eq] using hearlier
    · simp only [hplace, decide_eq_false_iff_not, not_lt]
      intro e he
      rcases List.mem_append.mp he with he | he
      · exact hlater e he
      · rw [List.mem_singleton.mp he]
        exact not_lt.mp hnext

/-- All further entries, one after the other. -/
theorem IsFirstLeast.foldl (hplace : ∀ a b : α, precedes a b = decide (place a < place b))
    (h : IsFirstLeast entries best) (rest : List (α × β)) :
    IsFirstLeast (entries ++ rest)
      (rest.foldl (fun best next => if precedes next.1 best.1 then next else best) best) := by
  induction rest generalizing entries best with
  | nil => simpa using h
  | cons next rest ih =>
      rw [List.foldl_cons, List.append_cons]
      exact ih (h.concat hplace next)

/-- Where values are ordered by a place, the fold finds the first of the least. -/
theorem isFirstLeast_firstLeast (hplace : ∀ a b : α, precedes a b = decide (place a < place b))
    (h : firstLeast entries = some best) : IsFirstLeast entries best := by
  cases entries with
  | nil => cases h
  | cons entry rest =>
      cases h
      have hfirst : IsFirstLeast [entry] entry := ⟨[], [], rfl, by simp, by simp⟩
      exact hfirst.foldl hplace rest

/-- The first of the least is preceded by none. -/
theorem IsFirstLeast.precedes_eq_false
    (hplace : ∀ a b : α, precedes a b = decide (place a < place b))
    (h : IsFirstLeast entries best) {e : α × β} (he : e ∈ entries) :
    precedes e.1 best.1 = false := by
  obtain ⟨earlier, later, rfl, hearlier, hlater⟩ := h
  rcases List.mem_append.mp he with he | he
  · have hlt := hearlier e he
    rw [hplace, decide_eq_true_eq] at hlt
    rw [hplace, decide_eq_false_iff_not]
    exact hlt.asymm
  · rcases List.mem_cons.mp he with rfl | he
    · rw [hplace, decide_eq_false_iff_not]
      exact lt_irrefl _
    · exact hlater e he

end Ordered

end Scalar

/-! ## The tracks that take part -/

section Ranked

variable {α : Type} [Scalar α]

/-- Chi-square divided by the degrees of freedom. -/
def Track.chiSquarePerFree (t : Track α) : α := t.chiSquare / (t.nfree.toInt.toNat : α)

/-- A track with the value by which it is compared, if it has one. -/
def Track.ranked? (t : Track α) : Option (α × Track α) := t.reducedChiSquare?.map (·, t)

theorem Track.ranked?_eq_some_iff {t : Track α} {entry : α × Track α} :
    t.ranked? = some entry ↔
      t.isFitted = true ∧ 0 < t.nfree ∧ entry = (t.chiSquarePerFree, t) := by
  unfold ranked? reducedChiSquare? chiSquarePerFree
  cases t.isFitted <;> by_cases hfree : 0 < t.nfree <;> simp [hfree, eq_comm]

theorem Track.ranked?_eq_none {t : Track α} (h : t.isFitted = false) : t.ranked? = none := by
  rw [ranked?, reducedChiSquare?, h]
  rfl

namespace EventResult

/-- The tracks that take part, with their values and with their positions among all. -/
def placed (r : EventResult α) : List (α × Track α × Nat) :=
  r.tracks.zipIdx.filterMap fun entry => entry.1.reducedChiSquare?.map (·, entry)

theorem map_placed_position (r : EventResult α) :
    r.placed.map (Prod.map id (·.2)) = r.tracks.zipIdx.filterMap fun (track, index) =>
      track.reducedChiSquare?.map fun value => (value, index) := by
  rw [placed, List.map_filterMap]
  refine List.filterMap_congr fun entry _ => ?_
  rw [Option.map_map]
  rfl

theorem map_placed_track (r : EventResult α) :
    r.placed.map (Prod.map id (·.1)) = r.tracks.filterMap Track.ranked? := by
  conv_rhs => rw [← List.zipIdx_map_fst 0 r.tracks, List.filterMap_map]
  rw [placed, List.map_filterMap]
  refine List.filterMap_congr fun entry _ => ?_
  rw [Option.map_map]
  rfl

theorem getElem?_of_mem_placed {r : EventResult α} {entry : α × Track α × Nat}
    (h : entry ∈ r.placed) : r.tracks[entry.2.2]? = some entry.2.1 := by
  obtain ⟨place, hplace, hentry⟩ := List.mem_filterMap.mp h
  obtain ⟨value, -, rfl⟩ := Option.map_eq_some_iff.mp hentry
  exact List.mem_zipIdx_iff_getElem?.mp hplace

/-- The best track is the first of the least among the tracks themselves. -/
theorem best?_eq (r : EventResult α) :
    r.best? = (Scalar.firstLeast (r.tracks.filterMap Track.ranked?)).map (·.2) := by
  rw [best?, bestIndex?, ← map_placed_position, ← map_placed_track, Scalar.firstLeast_map,
    Scalar.firstLeast_map]
  cases hfirst : Scalar.firstLeast r.placed with
  | none => rfl
  | some entry => exact getElem?_of_mem_placed (Scalar.mem_of_firstLeast hfirst)

/-- Tracks without a fit have no part in the choice, whatever their chi-square. -/
theorem best?_congr {r r' : EventResult α}
    (h : r'.tracks.filter (·.isFitted) = r.tracks.filter (·.isFitted)) : r'.best? = r.best? := by
  have hfitted : ∀ tracks : List (Track α),
      tracks.filterMap Track.ranked? = (tracks.filter (·.isFitted)).filterMap Track.ranked? := by
    intro tracks
    rw [List.filterMap_filter]
    refine List.filterMap_congr fun t _ => ?_
    cases ht : t.isFitted with
    | false => exact Track.ranked?_eq_none ht
    | true => rfl
  rw [best?_eq, best?_eq, hfitted, h, ← hfitted]

/-- Where each fitted track has a degree of freedom, there is a best track exactly if there is a
fitted one. -/
theorem best?_eq_none_iff {r : EventResult α}
    (hfree : ∀ t ∈ r.tracks, t.isFitted = true → 0 < t.nfree) :
    r.best? = none ↔ r.numFitted = 0 := by
  rw [best?_eq, Option.map_eq_none_iff, Scalar.firstLeast_eq_none_iff, numFitted,
    List.filterMap_eq_nil_iff, List.countP_eq_zero]
  refine forall₂_congr fun t ht => ?_
  rw [← Track.isSome_reducedChiSquare? (hfree t ht), Track.ranked?, Option.map_eq_none_iff,
    Option.not_isSome_iff_eq_none]

end EventResult

/-! ## The choice -/

/-- What the best track of a list is: a fitted track with a degree of freedom.  Its chi-square per
degree of freedom comes before that of every fitted track or is the same, and it comes before those
of all fitted tracks that stand in front of it. -/
structure Track.BestOf (tracks : List (Track α)) (best : Track α) : Prop where
  /-- It has a ray. -/
  isFitted : best.isFitted = true
  /-- It has a degree of freedom. -/
  nfree_pos : 0 < best.nfree
  /-- None is better. -/
  least : ∀ t ∈ tracks, t.isFitted = true →
    Scalar.precedes best.chiSquarePerFree t.chiSquarePerFree = true ∨
      best.chiSquarePerFree = t.chiSquarePerFree
  /-- None in front of it is as good. -/
  first : ∃ earlier later, tracks = earlier ++ best :: later ∧
    ∀ t ∈ earlier, t.isFitted = true →
      Scalar.precedes best.chiSquarePerFree t.chiSquarePerFree = true

theorem EventResult.bestOf_of_best? {κ : Type} [LinearOrder κ] {place : α → κ}
    (hplace : ∀ a b : α, Scalar.precedes a b = decide (place a < place b))
    (htotal : ∀ a b : α, Scalar.precedes a b = true ∨ a = b ∨ Scalar.precedes b a = true)
    {r : EventResult α} {best : Track α}
    (hfree : ∀ t ∈ r.tracks, t.isFitted = true → 0 < t.nfree) (h : r.best? = some best) :
    Track.BestOf r.tracks best := by
  rw [best?_eq] at h
  obtain ⟨entry, hentry, rfl⟩ := Option.map_eq_some_iff.mp h
  have hspec := Scalar.isFirstLeast_firstLeast hplace hentry
  obtain ⟨earlier, later, hsplit, hearlier, -⟩ := id hspec
  -- what stands in front of the best track may hold tracks that take no part
  obtain ⟨front, back, htracks, rfl, hback⟩ := List.filterMap_eq_append_iff.mp hsplit
  obtain ⟨between, best, later, rfl, hbetween, hbest, -⟩ := List.filterMap_eq_cons_iff.mp hback
  obtain ⟨hfitted, hpos, rfl⟩ := Track.ranked?_eq_some_iff.mp hbest
  have hranked : ∀ t ∈ r.tracks, t.isFitted = true → t.ranked? = some (t.chiSquarePerFree, t) :=
    fun t ht hfit => Track.ranked?_eq_some_iff.mpr ⟨hfit, hfree t ht hfit, rfl⟩
  refine ⟨hfitted, hpos, ?_, front ++ between, later, by rw [htracks, List.append_assoc], ?_⟩
  · intro t ht hfit
    have hnot : Scalar.precedes t.chiSquarePerFree best.chiSquarePerFree = false :=
      hspec.precedes_eq_false hplace (List.mem_filterMap.mpr ⟨t, ht, hranked t ht hfit⟩)
    rcases htotal best.chiSquarePerFree t.chiSquarePerFree with hbefore | hsame | hafter
    · exact Or.inl hbefore
    · exact Or.inr hsame
    · rw [hnot] at hafter
      cases hafter
  · intro t ht hfit
    have hmem : t ∈ r.tracks := by
      rw [htracks, ← List.append_assoc]
      exact List.mem_append_left _ ht
    have hrank := hranked t hmem hfit
    rcases List.mem_append.mp ht with ht | ht
    · exact hearlier _ (List.mem_filterMap.mpr ⟨t, ht, hrank⟩)
    · rw [hbetween t ht] at hrank
      cases hrank

end Ranked

namespace Tracker

/-- The best track of an event.  There is one exactly if some track was fitted.  It is then the
first of the fitted tracks of least chi-square per degree of freedom.  The choice is a matter of the
fitted tracks alone: any other tracks may stand among them. -/
theorem best?_process (t : Tracker Float) (points : List (SpacePoint Float)) :
    ((t.process points).best? = none ↔ (t.process points).numFitted = 0) ∧
      (∀ best, (t.process points).best? = some best →
        Track.BestOf (t.process points).tracks best) ∧
      ∀ tracks : List (Track Float),
        tracks.filter (·.isFitted) = (t.process points).tracks.filter (·.isFitted) →
          ({ t.process points with tracks := tracks } : EventResult Float).best? =
            (t.process points).best? := by
  have hfree : ∀ track ∈ (t.process points).tracks, track.isFitted = true → 0 < track.nfree :=
    fun _ hmem => nfree_pos_of_mem_process hmem
  refine ⟨EventResult.best?_eq_none_iff hfree, ?_, ?_⟩
  · intro best hbest
    exact EventResult.bestOf_of_best? Binary64.precedes_eq Binary64.precedes_trichotomous hfree
      hbest
  · intro tracks htracks
    exact EventResult.best?_congr htracks

/-- A point like the loud one, but with deviations of one. -/
def faint : SpacePoint Float :=
  ⟨1, ⟨0, 0, 0, 0⟩, [⟨1, 1, 0⟩, ⟨2, 1, 1⟩, ⟨2, 2, -1⟩, ⟨3, 1, 0⟩, ⟨4, 1, 1⟩, ⟨4, 2, -1⟩]⟩

/-- An event of four points. -/
def mixed : List (SpacePoint Float) := [thin, loud, faint, faint]

/-- Of the four tracks the first has no fit, the second has a greater chi-square, and the last two
are equally good: the third is the best one, with the first track or without it. -/
theorem best?_process_mixed :
    ∃ best, (fourTracker.process mixed).best? = some best ∧ best.spacePoints = [2] ∧
      Track.BestOf (fourTracker.process mixed).tracks best ∧
      ({ fourTracker.process mixed with
          tracks := (fourTracker.process mixed).tracks.filter (·.isFitted) } :
        EventResult Float).best? = some best := by
  obtain ⟨-, hbest, hfitted⟩ := best?_process fourTracker mixed
  have hseen : (fourTracker.process mixed).best?.map (·.spacePoints) = some [2] := by
    decide +kernel
  obtain ⟨best, hsome, hthird⟩ := Option.map_eq_some_iff.mp hseen
  refine ⟨best, hsome, hthird, hbest best hsome, ?_⟩
  rw [hfitted _ (by rw [List.filter_filter]; simp only [Bool.and_self]), hsome]

end Tracker

end DriftChamber
