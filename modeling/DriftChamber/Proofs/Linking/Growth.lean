/-
# Growth of candidates without a bound

What linking finds when nothing bounds the number of candidates: a point that is taken up leaves
or extends each candidate of its seed and then adds the forks, and `spread` folds this over all
points that a seed takes up.  The run of the linker is this growth, cut off by the bound:

* `takeUp_eq`: one step of growth, given up if it ends above the room;
* `scan_toOption` and `seeds_toOption`: the same of a whole seed and of a whole event;
* `Linker.tracks_link`: the event has tracks exactly if the growth ends within the bound.

So the test before every single new candidate comes to one test of the final number.  The reason
is that the number of candidates never falls (`length_le_length_grow`).
-/
import DriftChamber.Linking

namespace DriftChamber

variable {α : Type}

/-! ## Offering a point -/

namespace Candidate

/-- What is left of a candidate that was offered a point: it is longer if it had no member of the
chamber. -/
def left (c : Candidate α) (m : Member α) : Candidate α :=
  if c.contains m.id then c
  else
    match c.place? m.point.chamber with
    | none => c.extend m
    | some _ => c

/-- The fork that a candidate makes when it is offered a point. -/
def forked? (c : Candidate α) (m : Member α) : Option (Candidate α) :=
  if c.contains m.id then none
  else (c.place? m.point.chamber).map fun place => c.fork place m

/-- The three things that can happen to a candidate: it has the point already, it is extended, or
it is forked. -/
theorem offered_cases (c : Candidate α) (m : Member α) :
    (c.contains m.id ∧ c.left m = c ∧ c.forked? m = none) ∨
      (¬c.contains m.id ∧ c.place? m.point.chamber = none ∧
        c.left m = c.extend m ∧ c.forked? m = none) ∨
      ∃ place, ¬c.contains m.id ∧ c.place? m.point.chamber = some place ∧
        c.left m = c ∧ c.forked? m = some (c.fork place m) := by
  by_cases hmember : c.contains m.id
  · exact Or.inl ⟨hmember, if_pos hmember, if_pos hmember⟩
  · rw [left, forked?, if_neg hmember, if_neg hmember]
    cases hplace : c.place? m.point.chamber with
    | none => exact Or.inr (Or.inl ⟨hmember, rfl, rfl, rfl⟩)
    | some place => exact Or.inr (Or.inr ⟨place, hmember, rfl, rfl, rfl⟩)

end Candidate

/-- The forks that candidates make when they are offered a point. -/
def forks (m : Member α) (candidates : List (Candidate α)) : List (Candidate α) :=
  candidates.filterMap fun c => c.forked? m

theorem forks_cons_of_none {m : Member α} {c : Candidate α} (rest : List (Candidate α))
    (h : c.forked? m = none) : forks m (c :: rest) = forks m rest :=
  List.filterMap_cons_none h

theorem forks_cons_of_some {m : Member α} {c f : Candidate α} (rest : List (Candidate α))
    (h : c.forked? m = some f) : forks m (c :: rest) = f :: forks m rest :=
  List.filterMap_cons_some h

/-- The candidates of a seed after it takes up one more point, however many there are. -/
def grow (seed m : Member α) : List (Candidate α) → List (Candidate α)
  | [] => [[seed, m]]
  | candidates@(_ :: _) => candidates.map (·.left m) ++ forks m candidates

/-- Growth never loses a candidate. -/
theorem length_le_length_grow (seed m : Member α) (candidates : List (Candidate α)) :
    candidates.length ≤ (grow seed m candidates).length := by
  cases candidates with
  | nil => exact Nat.zero_le _
  | cons c rest =>
      rw [grow, List.length_append, List.length_map]
      omega

/-- An offer gives what is left of all candidates and all their forks, unless the forks exceed the
room. -/
theorem offer_eq (room : Nat) (m : Member α) (size : Nat) (candidates : List (Candidate α))
    (hsize : size ≤ room) :
    offer room m size candidates =
      if room < size + (forks m candidates).length then none
      else some (candidates.map (·.left m), forks m candidates) := by
  -- `size` stays general, for it counts the forks made on the way
  induction candidates generalizing size with
  | nil =>
      rw [if_neg (by simpa [forks] using hsize)]
      rfl
  | cons c rest ih =>
      rw [offer, List.map_cons]
      rcases c.offered_cases m with ⟨hmember, hleft, hfork⟩ |
        ⟨hmember, hplace, hleft, hfork⟩ | ⟨place, hmember, hplace, hleft, hfork⟩
      · rw [if_pos hmember, ih size hsize, hleft, forks_cons_of_none rest hfork,
          apply_ite (Option.map _)]
        rfl
      · rw [if_neg hmember, hplace, hleft, forks_cons_of_none rest hfork]
        simp only
        rw [ih size hsize, apply_ite (Option.map _)]
        rfl
      · rw [if_neg hmember, hplace, hleft, forks_cons_of_some rest hfork, List.length_cons]
        simp only
        by_cases hroom : room ≤ size
        · rw [if_pos hroom, if_pos (by omega)]
        · rw [if_neg hroom, ih (size + 1) (by omega)]
          by_cases hfull : room < size + 1 + (forks m rest).length
          · rw [if_pos hfull, if_pos (by omega)]
            rfl
          · rw [if_neg hfull, if_neg (by omega)]
            rfl

/-- Taking up a point is growth, given up if it ends above the room. -/
theorem takeUp_eq (room : Nat) (seed m : Member α) (candidates : List (Candidate α))
    (hfits : candidates.length ≤ room) :
    takeUp room seed m candidates =
      if room < (grow seed m candidates).length then none
      else some (grow seed m candidates) := by
  cases candidates with
  | nil =>
      have hone : (grow seed m []).length = 1 := rfl
      rw [takeUp, hone]
      by_cases hroom : room = 0
      · rw [if_pos hroom, if_pos (by omega)]
      · rw [if_neg hroom, if_neg (by omega), grow]
  | cons c rest =>
      rw [takeUp, offer_eq room m _ _ hfits, grow, List.length_append, List.length_map]
      split <;> rfl

/-! ## One seed -/

/-- The candidates of a seed after it takes up some points in turn, from those it has. -/
def spread (seed : Member α) (candidates : List (Candidate α)) (taken : List (Member α)) :
    List (Candidate α) :=
  taken.foldl (fun grown m => grow seed m grown) candidates

/-- Growth over several points never loses a candidate either. -/
theorem length_le_length_spread (seed : Member α) (candidates : List (Candidate α))
    (taken : List (Member α)) : candidates.length ≤ (spread seed candidates taken).length := by
  induction taken generalizing candidates with
  | nil => exact Nat.le_refl _
  | cons m rest ih => exact Nat.le_trans (length_le_length_grow seed m candidates) (ih _)

variable [Scalar α]

/-- Whether a seed takes up a later point: it belongs to another chamber and the stubs agree. -/
def Member.joins (criteria : Criteria α) (seed m : Member α) : Bool :=
  decide (seed.point.chamber ≠ m.point.chamber) &&
    criteria.accepts (seed.point.stub.sub m.point.stub)

/-- The diagnostics after a seed was compared with the points of other chambers. -/
def compared (seed : Member α) (later : List (Member α)) (d : Diagnostics α) : Diagnostics α :=
  (later.filter fun m => decide (seed.point.chamber ≠ m.point.chamber)).foldl
    (fun seen m => seen.record (seed.point.stub.sub m.point.stub)) d

/-- A seed scans the later points: it takes up those it joins, unless they spread above the
room. -/
theorem scan_toOption (criteria : Criteria α) (room : Nat) (seed : Member α)
    (later : List (Member α)) (candidates : List (Candidate α)) (d : Diagnostics α)
    (hfits : candidates.length ≤ room) :
    (Linker.scan criteria room seed later candidates d).toOption =
      if room < (spread seed candidates (later.filter (seed.joins criteria))).length then none
      else some (spread seed candidates (later.filter (seed.joins criteria)),
        compared seed later d) := by
  induction later generalizing candidates d with
  | nil =>
      rw [if_neg (by simpa [spread] using hfits)]
      rfl
  | cons m later ih =>
      rw [Linker.scan]
      by_cases hsame : seed.point.chamber = m.point.chamber
      · have hjoins : seed.joins criteria m = false := by simp [Member.joins, hsame]
        have hcompared : compared seed (m :: later) d = compared seed later d := by
          simp [compared, hsame]
        rw [if_pos hsame, List.filter_cons_of_neg (by simp [hjoins]), hcompared]
        exact ih candidates d hfits
      · have hcompared : compared seed (m :: later) d =
            compared seed later (d.record (seed.point.stub.sub m.point.stub)) := by
          simp [compared, hsame]
        rw [if_neg hsame, hcompared]
        by_cases haccepts : criteria.accepts (seed.point.stub.sub m.point.stub)
        · have hjoins : seed.joins criteria m = true := by simp [Member.joins, hsame, haccepts]
          rw [List.filter_cons_of_pos hjoins, spread, List.foldl_cons, ← spread]
          simp only [if_pos haccepts]
          rw [takeUp_eq room seed m candidates hfits]
          by_cases hfull : room < (grow seed m candidates).length
          · -- what exceeds the room now exceeds it in the end
            have hmono := length_le_length_spread seed (grow seed m candidates)
              (later.filter (seed.joins criteria))
            rw [if_pos hfull, if_pos (Nat.lt_of_lt_of_le hfull hmono)]
            rfl
          · rw [if_neg hfull]
            exact ih (grow seed m candidates) _ (Nat.le_of_not_lt hfull)
        · have hjoins : seed.joins criteria m = false := by
            simp [Member.joins, haccepts]
          rw [List.filter_cons_of_neg (by simp [hjoins])]
          simp only [if_neg haccepts]
          exact ih candidates _ hfits

/-! ## A whole event -/

/-- What linking finds without a bound: each point that is on no candidate yet spreads over the
later points that it joins. -/
def linkFreely (criteria : Criteria α) : List (Member α) → List (Candidate α) → Diagnostics α →
    List (Candidate α) × Diagnostics α
  | [], found, d => (found, d)
  | seed :: later, found, d =>
      if found.any (·.contains seed.id) then linkFreely criteria later found d
      else
        linkFreely criteria later (found ++ spread seed [] (later.filter (seed.joins criteria)))
          (compared seed later d)

/-- Nothing that was found is lost. -/
theorem length_le_length_linkFreely (criteria : Criteria α) (rest : List (Member α))
    (found : List (Candidate α)) (d : Diagnostics α) :
    found.length ≤ (linkFreely criteria rest found d).1.length := by
  induction rest generalizing found d with
  | nil => exact Nat.le_refl _
  | cons seed later ih =>
      rw [linkFreely]
      by_cases hused : found.any (·.contains seed.id)
      · rw [if_pos hused]
        exact ih found d
      · rw [if_neg hused]
        have hmono := ih (found ++ spread seed [] (later.filter (seed.joins criteria)))
          (compared seed later d)
        rw [List.length_append] at hmono
        omega

/-- The seeds of an event find what they find without a bound, unless that is too much. -/
theorem seeds_toOption (criteria : Criteria α) (maxTracks : Nat) (rest : List (Member α))
    (found : List (Candidate α)) (d : Diagnostics α) (hfits : found.length ≤ maxTracks) :
    (Linker.seeds criteria maxTracks rest found d).toOption =
      if maxTracks < (linkFreely criteria rest found d).1.length then none
      else some (linkFreely criteria rest found d) := by
  induction rest generalizing found d with
  | nil =>
      rw [linkFreely, if_neg (Nat.not_lt.mpr hfits)]
      rfl
  | cons seed later ih =>
      rw [Linker.seeds, linkFreely]
      by_cases hused : found.any (·.contains seed.id)
      · rw [if_pos hused, if_pos hused]
        exact ih found d hfits
      · rw [if_neg hused, if_neg hused]
        have hscan := scan_toOption criteria (maxTracks - found.length) seed later [] d
          (Nat.zero_le _)
        by_cases hfull : maxTracks - found.length <
            (spread seed [] (later.filter (seed.joins criteria))).length
        · -- what later seeds find only adds to what is too much
          have hmono := length_le_length_linkFreely criteria later
            (found ++ spread seed [] (later.filter (seed.joins criteria)))
            (compared seed later d)
          rw [List.length_append] at hmono
          rw [if_pos hfull] at hscan
          rw [if_pos (by omega)]
          cases hrun : Linker.scan criteria (maxTracks - found.length) seed later [] d with
          | error seen => rfl
          | ok result => rw [hrun] at hscan; cases hscan
        · rw [if_neg hfull] at hscan
          cases hrun : Linker.scan criteria (maxTracks - found.length) seed later [] d with
          | error seen => rw [hrun] at hscan; cases hscan
          | ok result =>
              rw [hrun] at hscan
              cases hscan
              exact ih _ _ (by rw [List.length_append]; omega)

/-- An event in which one point of chamber 1 agrees with three points of chamber 2. -/
def crowded : List (SpacePoint Float) :=
  [⟨1, ⟨0, 0, 0, 0⟩, []⟩, ⟨2, ⟨0.5, 0, 0, 0⟩, []⟩, ⟨2, ⟨0.25, 0, 0, 0⟩, []⟩,
    ⟨2, ⟨0.125, 0, 0, 0⟩, []⟩]

example :
    ((Linker.seeds Tracking.standard.criteria 4 (members crowded) [] Diagnostics.none).toOption.map
        fun found => found.1.map fun c => c.map (·.id)) = some [[0, 1], [0, 2], [0, 3], [0, 3]] ∧
      (Linker.seeds Tracking.standard.criteria 3 (members crowded) [] Diagnostics.none).toOption =
        none := by
  decide

namespace Linker

/-- The candidates and diagnostics of an event without a bound. -/
def unbounded (l : Linker α) (points : List (SpacePoint α)) (d : Diagnostics α) :
    List (Candidate α) × Diagnostics α :=
  if l.singleStub then ((members points).map fun m => [m], d)
  else linkFreely l.criteria (members points) [] d

/-- The bound decides between everything and nothing. -/
theorem candidates_toOption (l : Linker α) (points : List (SpacePoint α)) (d : Diagnostics α) :
    (l.candidates points d).toOption =
      if l.maxTracks < (l.unbounded points d).1.length then none
      else some (l.unbounded points d) := by
  rw [candidates, unbounded]
  by_cases hmode : l.singleStub
  · have hlength : ((members points).map fun m => [m]).length = points.length := by
      simp [members]
    rw [if_pos hmode, if_pos hmode]
    simp only [hlength]
    split <;> rfl
  · rw [if_neg hmode, if_neg hmode]
    exact seeds_toOption l.criteria l.maxTracks (members points) [] d (Nat.zero_le _)

/-- The tracks of an event, by what linking finds without a bound. -/
theorem tracks_link (l : Linker α) (points : List (SpacePoint α)) (d : Diagnostics α) :
    (l.link points d).tracks =
      if l.maxTracks < (l.unbounded points d).1.length then .error (.tooManyTracks l.maxTracks)
      else .ok ((l.unbounded points d).1.map (Candidate.toTrack l.numPlanes)) := by
  have hrun := l.candidates_toOption points d
  rw [link]
  by_cases hfull : l.maxTracks < (l.unbounded points d).1.length
  · rw [if_pos hfull] at hrun ⊢
    cases hc : l.candidates points d with
    | error seen => rfl
    | ok result => rw [hc] at hrun; cases hrun
  · rw [if_neg hfull] at hrun ⊢
    cases hc : l.candidates points d with
    | error seen => rw [hc] at hrun; cases hrun
    | ok result =>
        rw [hc] at hrun
        cases hrun
        rfl

/-- The diagnostics of an event that keeps within the bound do not depend on it. -/
theorem diagnostics_link (l : Linker α) (points : List (SpacePoint α)) (d : Diagnostics α)
    (hfits : (l.unbounded points d).1.length ≤ l.maxTracks) :
    (l.link points d).diagnostics = (l.unbounded points d).2 := by
  have hrun := l.candidates_toOption points d
  rw [if_neg (Nat.not_lt.mpr hfits)] at hrun
  rw [link]
  cases hc : l.candidates points d with
  | error seen => rw [hc] at hrun; cases hrun
  | ok result =>
      rw [hc] at hrun
      cases hrun
      rfl

end Linker

end DriftChamber
