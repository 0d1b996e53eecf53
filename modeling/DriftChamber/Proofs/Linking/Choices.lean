/-
# The candidates of a seed as choices

A seed that takes up some points ends with one candidate for each way of choosing one point out of
every chamber among them, though not always with one only:

* `mem_spread_iff`: the candidates are the seed followed by such a choice, chamber after chamber
  in the order in which the chambers first occur;
* `length_spread`: a point of a new chamber leaves the number of candidates and any other doubles
  it, so there are `2 ^ (points - chambers)`;
* `nodup_spread_iff`: no candidate occurs twice if and only if no chamber has more than two points.

All rests on two equations.  A point of a new chamber extends every candidate
(`spread_append_of_new`), and a point of a chamber that occurred adds to the candidates those in
which it stands for the point of its chamber (`spread_append_of_seen`).
-/
import Mathlib
import DriftChamber.Proofs.Linking.Growth

namespace DriftChamber

variable {α : Type}

/-! ## Chambers in order of arrival -/

/-- The chambers of some points, in the order in which they first occur. -/
def chamberOrder (taken : List (Member α)) : List Nat :=
  taken.foldl
    (fun order m => if m.point.chamber ∈ order then order else order ++ [m.point.chamber]) []

theorem chamberOrder_append_of_seen {taken : List (Member α)} {m : Member α}
    (hseen : m.point.chamber ∈ chamberOrder taken) :
    chamberOrder (taken ++ [m]) = chamberOrder taken := by
  rw [chamberOrder, List.foldl_append, ← chamberOrder, List.foldl_cons, List.foldl_nil,
    if_pos hseen]

theorem chamberOrder_append_of_new {taken : List (Member α)} {m : Member α}
    (hnew : m.point.chamber ∉ chamberOrder taken) :
    chamberOrder (taken ++ [m]) = chamberOrder taken ++ [m.point.chamber] := by
  rw [chamberOrder, List.foldl_append, ← chamberOrder, List.foldl_cons, List.foldl_nil,
    if_neg hnew]

/-- The order lists the chambers of the points. -/
theorem mem_chamberOrder {taken : List (Member α)} {chamber : Nat} :
    chamber ∈ chamberOrder taken ↔ ∃ m ∈ taken, m.point.chamber = chamber := by
  induction taken using List.reverseRecOn with
  | nil => simp [chamberOrder]
  | append_singleton taken m ih =>
      by_cases hseen : m.point.chamber ∈ chamberOrder taken
      · rw [chamberOrder_append_of_seen hseen, ih]
        constructor
        · rintro ⟨x, hx, rfl⟩
          exact ⟨x, List.mem_append_left _ hx, rfl⟩
        · rintro ⟨x, hx, rfl⟩
          rcases List.mem_append.mp hx with hx | hx
          · exact ⟨x, hx, rfl⟩
          · rw [List.mem_singleton] at hx
            subst hx
            exact ih.mp hseen
      · rw [chamberOrder_append_of_new hseen, List.mem_append, ih, List.mem_singleton]
        constructor
        · rintro (⟨x, hx, rfl⟩ | rfl)
          · exact ⟨x, List.mem_append_left _ hx, rfl⟩
          · exact ⟨m, List.mem_append_right _ (List.mem_singleton_self m), rfl⟩
        · rintro ⟨x, hx, rfl⟩
          rcases List.mem_append.mp hx with hx | hx
          · exact Or.inl ⟨x, hx, rfl⟩
          · rw [List.mem_singleton] at hx
            exact Or.inr (by rw [hx])

theorem mem_chamberOrder_of_mem {taken : List (Member α)} {m : Member α} (hm : m ∈ taken) :
    m.point.chamber ∈ chamberOrder taken :=
  mem_chamberOrder.mpr ⟨m, hm, rfl⟩

/-- No chamber is listed twice. -/
theorem nodup_chamberOrder (taken : List (Member α)) : (chamberOrder taken).Nodup := by
  induction taken using List.reverseRecOn with
  | nil => exact List.nodup_nil
  | append_singleton taken m ih =>
      by_cases hseen : m.point.chamber ∈ chamberOrder taken
      · rw [chamberOrder_append_of_seen hseen]
        exact ih
      · rw [chamberOrder_append_of_new hseen, ← List.concat_eq_append]
        exact ih.concat hseen

/-- There are no more chambers than points. -/
theorem length_chamberOrder_le (taken : List (Member α)) :
    (chamberOrder taken).length ≤ taken.length := by
  induction taken using List.reverseRecOn with
  | nil => exact Nat.le_refl _
  | append_singleton taken m ih =>
      by_cases hseen : m.point.chamber ∈ chamberOrder taken
      · rw [chamberOrder_append_of_seen hseen, List.length_append]
        omega
      · rw [chamberOrder_append_of_new hseen, List.length_append, List.length_append,
          List.length_singleton, List.length_singleton]
        omega

/-- The number of points in a chamber. -/
def pointsIn (taken : List (Member α)) (chamber : Nat) : Nat :=
  taken.countP fun m => m.point.chamber == chamber

theorem pointsIn_append (taken : List (Member α)) (m : Member α) (chamber : Nat) :
    pointsIn (taken ++ [m]) chamber =
      pointsIn taken chamber + if m.point.chamber = chamber then 1 else 0 := by
  simp [pointsIn, List.countP_append]

/-- A chamber has a point if it is in the order. -/
theorem pointsIn_pos_iff {taken : List (Member α)} {chamber : Nat} :
    0 < pointsIn taken chamber ↔ chamber ∈ chamberOrder taken := by
  rw [pointsIn, List.countP_pos_iff, mem_chamberOrder]
  simp

/-- In a chamber with one point all points are the same. -/
theorem eq_of_pointsIn_le_one {taken : List (Member α)} {x y : Member α}
    (hone : pointsIn taken x.point.chamber ≤ 1) (hx : x ∈ taken) (hy : y ∈ taken)
    (hxy : y.point.chamber = x.point.chamber) : x = y := by
  have hx' : x ∈ taken.filter fun m => m.point.chamber == x.point.chamber := by simp [hx]
  have hy' : y ∈ taken.filter fun m => m.point.chamber == x.point.chamber := by simp [hy, hxy]
  rw [pointsIn, List.countP_eq_length_filter] at hone
  obtain ⟨i, hi, hxi⟩ := List.getElem_of_mem hx'
  obtain ⟨j, hj, hyj⟩ := List.getElem_of_mem hy'
  have hij : i = j := by omega
  subst hij
  exact hxi.symm.trans hyj

/-- A chamber with two points has two different ones. -/
theorem exists_ne_of_two_le_pointsIn {taken : List (Member α)} {chamber : Nat}
    (hnodup : taken.Nodup) (htwo : 2 ≤ pointsIn taken chamber) :
    ∃ x ∈ taken, ∃ y ∈ taken, x.point.chamber = chamber ∧ y.point.chamber = chamber ∧ x ≠ y := by
  rw [pointsIn, List.countP_eq_length_filter] at htwo
  have hfilter := hnodup.filter fun m => m.point.chamber == chamber
  obtain ⟨hx, hxc⟩ :=
    List.mem_filter.mp (List.getElem_mem (Nat.lt_of_lt_of_le Nat.zero_lt_two htwo))
  obtain ⟨hy, hyc⟩ := List.mem_filter.mp (List.getElem_mem (Nat.lt_of_lt_of_le Nat.one_lt_two htwo))
  refine ⟨_, hx, _, hy, by simpa using hxc, by simpa using hyc, ?_⟩
  intro heq
  exact absurd (hfilter.getElem_inj_iff.mp heq) Nat.zero_ne_one

/-! ## Choices -/

/-- What a seed may take up: points at positions of their own, outside the seed's chamber. -/
structure Takes (seed : Member α) (taken : List (Member α)) : Prop where
  /-- Points are told apart by position. -/
  nodup : (taken.map (·.id)).Nodup
  /-- The seed is none of them. -/
  seed_notMem : seed.id ∉ taken.map (·.id)
  /-- They belong to other chambers. -/
  chamber_ne : ∀ m ∈ taken, m.point.chamber ≠ seed.point.chamber

/-- A choice of a point in every chamber of the given points. -/
structure IsChoice (taken : List (Member α)) (pick : Nat → Member α) : Prop where
  /-- The chosen point is one of those given. -/
  mem : ∀ chamber ∈ chamberOrder taken, pick chamber ∈ taken
  /-- It belongs to the chamber. -/
  chamber_eq : ∀ chamber ∈ chamberOrder taken, (pick chamber).point.chamber = chamber

/-- The candidate of a choice. -/
def chosen (seed : Member α) (taken : List (Member α)) (pick : Nat → Member α) : Candidate α :=
  seed :: (chamberOrder taken).map pick

/-- The candidate with a point in place of the member of its chamber. -/
def Candidate.swap (c : Candidate α) (m : Member α) : Candidate α :=
  c.map fun old => if old.point.chamber = m.point.chamber then m else old

namespace Takes

variable {seed m : Member α} {taken : List (Member α)}

/-- What holds of more points holds of the first of them. -/
theorem of_append (h : Takes seed (taken ++ [m])) : Takes seed taken where
  nodup := by
    have hnodup := h.nodup
    rw [List.map_append] at hnodup
    exact hnodup.of_append_left
  seed_notMem := fun hmem => h.seed_notMem (by
    rw [List.map_append]
    exact List.mem_append_left _ hmem)
  chamber_ne := fun x hx => h.chamber_ne x (List.mem_append_left _ hx)

/-- The last point is neither the seed nor an earlier one. -/
theorem id_ne (h : Takes seed (taken ++ [m])) : ∀ x ∈ seed :: taken, x.id ≠ m.id := by
  intro x hx
  rcases List.mem_cons.mp hx with rfl | hx
  · intro heq
    exact h.seed_notMem (by rw [heq]; simp)
  · intro heq
    have hnodup := h.nodup
    rw [List.map_append, List.nodup_append] at hnodup
    exact hnodup.2.2 x.id (List.mem_map_of_mem hx) m.id (by simp) heq

theorem last_chamber_ne (h : Takes seed (taken ++ [m])) :
    m.point.chamber ≠ seed.point.chamber :=
  h.chamber_ne m (by simp)

end Takes

/-! ## One more point -/

/-- Among points of one each of some chambers, the place of a chamber is its position. -/
theorem Candidate.place?_map {pick : Nat → Member α} {order : List Nat} (chamber : Nat)
    (horder : ∀ c ∈ order, (pick c).point.chamber = c) :
    Candidate.place? (order.map pick) chamber =
      if chamber ∈ order then some (order.idxOf chamber) else none := by
  induction order with
  | nil => rfl
  | cons c rest ih =>
      have hc := horder c List.mem_cons_self
      have hrest := ih fun c' hc' => horder c' (List.mem_cons_of_mem _ hc')
      rw [Candidate.place?] at hrest
      rw [Candidate.place?, List.map_cons, List.findIdx?_cons, hc, hrest, List.idxOf_cons]
      by_cases heq : c = chamber
      · simp [heq]
      · have hne : (c == chamber) = false := by simpa using heq
        have hne' : chamber ≠ c := fun hh => heq hh.symm
        rw [hne]
        by_cases hmem : chamber ∈ rest <;> simp [hmem, hne']

namespace IsChoice

variable {seed m : Member α} {taken : List (Member α)} {pick : Nat → Member α}

/-- No chosen point is the one that comes next. -/
theorem contains_chosen (hp : IsChoice taken pick) (h : Takes seed (taken ++ [m])) :
    (chosen seed taken pick).contains m.id = false := by
  rw [Candidate.contains, List.any_eq_false]
  intro x hx
  have hx' : x ∈ seed :: taken := by
    rcases List.mem_cons.mp hx with rfl | hx
    · exact List.mem_cons_self
    · obtain ⟨chamber, hchamber, rfl⟩ := List.mem_map.mp hx
      exact List.mem_cons_of_mem _ (hp.mem chamber hchamber)
  simpa using h.id_ne x hx'

/-- The chamber of the next point has its place in a candidate if it occurred before. -/
theorem place?_chosen (hp : IsChoice taken pick) (h : Takes seed (taken ++ [m])) :
    (chosen seed taken pick).place? m.point.chamber =
      if m.point.chamber ∈ chamberOrder taken then
        some ((chamberOrder taken).idxOf m.point.chamber + 1)
      else none := by
  have hseed : (seed.point.chamber == m.point.chamber) = false := by
    simpa using fun heq => h.last_chamber_ne (Eq.symm heq)
  rw [Candidate.place?, chosen, List.findIdx?_cons, hseed, ← Candidate.place?,
    Candidate.place?_map _ hp.chamber_eq, if_neg Bool.false_ne_true, apply_ite (Option.map _)]
  rfl

/-- Swapping in a point is choosing it for its chamber. -/
theorem swap_chosen (hp : IsChoice taken pick) (h : Takes seed (taken ++ [m])) :
    (chosen seed taken pick).swap m =
      chosen seed taken (Function.update pick m.point.chamber m) := by
  have hseed : seed.point.chamber ≠ m.point.chamber := fun heq => h.last_chamber_ne heq.symm
  rw [Candidate.swap, chosen, chosen, List.map_cons, if_neg hseed, List.map_map]
  congr 1
  apply List.map_congr_left
  intro chamber hchamber
  rw [Function.comp, hp.chamber_eq chamber hchamber, Function.update_apply]

/-- A point of a chamber that occurred leaves a candidate and makes a fork, in which it is swapped
in. -/
theorem offer_of_seen (hp : IsChoice taken pick) (h : Takes seed (taken ++ [m]))
    (hseen : m.point.chamber ∈ chamberOrder taken) :
    (chosen seed taken pick).left m = chosen seed taken pick ∧
      (chosen seed taken pick).forked? m = some ((chosen seed taken pick).swap m) := by
  have hmember : ¬(chosen seed taken pick).contains m.id := by simp [hp.contains_chosen h]
  have hplace := hp.place?_chosen h
  rw [if_pos hseen] at hplace
  rw [Candidate.left, Candidate.forked?, if_neg hmember, if_neg hmember, hplace, Option.map_some,
    hp.swap_chosen h, Candidate.fork, chosen, chosen, List.set_cons_succ,
    (nodup_chamberOrder taken).map_update, if_pos hseen]
  exact ⟨rfl, rfl⟩

/-- A point of a new chamber extends a candidate, which makes no fork. -/
theorem offer_of_new (hp : IsChoice taken pick) (h : Takes seed (taken ++ [m]))
    (hnew : m.point.chamber ∉ chamberOrder taken) :
    (chosen seed taken pick).left m = (chosen seed taken pick).extend m ∧
      (chosen seed taken pick).forked? m = none := by
  have hmember : ¬(chosen seed taken pick).contains m.id := by simp [hp.contains_chosen h]
  have hplace := hp.place?_chosen h
  rw [if_neg hnew] at hplace
  rw [Candidate.left, Candidate.forked?, if_neg hmember, if_neg hmember, hplace]
  exact ⟨rfl, rfl⟩

/-- Choosing one of the points for its chamber completes a choice for the others. -/
theorem update_of_mem {x : Member α} (hx : x ∈ taken)
    (hother : ∀ chamber ∈ chamberOrder taken, chamber ≠ x.point.chamber →
      pick chamber ∈ taken ∧ (pick chamber).point.chamber = chamber) :
    IsChoice taken (Function.update pick x.point.chamber x) := by
  constructor
  · intro chamber hchamber
    by_cases heq : chamber = x.point.chamber
    · rw [heq, Function.update_self]
      exact hx
    · rw [Function.update_of_ne heq]
      exact (hother chamber hchamber heq).1
  · intro chamber hchamber
    by_cases heq : chamber = x.point.chamber
    · rw [heq, Function.update_self]
    · rw [Function.update_of_ne heq]
      exact (hother chamber hchamber heq).2

/-- Choosing the next point for its chamber is a choice. -/
theorem update (hp : IsChoice taken pick) (m : Member α) :
    IsChoice (taken ++ [m]) (Function.update pick m.point.chamber m) := by
  apply update_of_mem (List.mem_append_right _ (List.mem_singleton_self m))
  intro chamber hchamber hne
  have hbefore : chamber ∈ chamberOrder taken := by
    obtain ⟨x, hx, rfl⟩ := mem_chamberOrder.mp hchamber
    rcases List.mem_append.mp hx with hx | hx
    · exact mem_chamberOrder_of_mem hx
    · exact absurd (by rw [List.mem_singleton.mp hx]) hne
  exact ⟨List.mem_append_left _ (hp.mem chamber hbefore), hp.chamber_eq chamber hbefore⟩

/-- A choice is still one when a point of a chamber that occurred comes next. -/
theorem append_of_seen (hp : IsChoice taken pick)
    (hseen : m.point.chamber ∈ chamberOrder taken) : IsChoice (taken ++ [m]) pick where
  mem := fun chamber hchamber => by
    rw [chamberOrder_append_of_seen hseen] at hchamber
    exact List.mem_append_left _ (hp.mem chamber hchamber)
  chamber_eq := fun chamber hchamber => by
    rw [chamberOrder_append_of_seen hseen] at hchamber
    exact hp.chamber_eq chamber hchamber

/-- What is chosen for another chamber than that of the last point is an earlier point. -/
theorem mem_of_ne (hp : IsChoice (taken ++ [m]) pick) {chamber : Nat}
    (hchamber : chamber ∈ chamberOrder taken) (hne : chamber ≠ m.point.chamber) :
    pick chamber ∈ taken := by
  obtain ⟨x, hx, hxc⟩ := mem_chamberOrder.mp hchamber
  have hlater : chamber ∈ chamberOrder (taken ++ [m]) :=
    mem_chamberOrder.mpr ⟨x, List.mem_append_left _ hx, hxc⟩
  rcases List.mem_append.mp (hp.mem chamber hlater) with hmem | hmem
  · exact hmem
  · have hown := hp.chamber_eq chamber hlater
    rw [List.mem_singleton.mp hmem] at hown
    exact absurd hown.symm hne

/-- A choice among more points is one among the first, once another point than the last one is
chosen for its chamber. -/
theorem swap_out (hp : IsChoice (taken ++ [m]) pick) {x : Member α} (hx : x ∈ taken)
    (hxm : x.point.chamber = m.point.chamber) :
    IsChoice taken (Function.update pick m.point.chamber x) := by
  rw [← hxm]
  apply update_of_mem hx
  intro chamber hchamber hne
  obtain ⟨y, hy, hyc⟩ := mem_chamberOrder.mp hchamber
  exact ⟨hp.mem_of_ne hchamber (hxm ▸ hne),
    hp.chamber_eq chamber (mem_chamberOrder.mpr ⟨y, List.mem_append_left _ hy, hyc⟩)⟩

/-- A choice among more points that does not fall on the last one is a choice among the first. -/
theorem of_append (hp : IsChoice (taken ++ [m]) pick)
    (hlast : m.point.chamber ∈ chamberOrder taken → pick m.point.chamber ≠ m) :
    IsChoice taken pick := by
  have hsub : ∀ chamber ∈ chamberOrder taken, chamber ∈ chamberOrder (taken ++ [m]) := by
    intro chamber hchamber
    obtain ⟨x, hx, hxc⟩ := mem_chamberOrder.mp hchamber
    exact mem_chamberOrder.mpr ⟨x, List.mem_append_left _ hx, hxc⟩
  constructor
  · intro chamber hchamber
    by_cases heq : chamber = m.point.chamber
    · subst heq
      rcases List.mem_append.mp (hp.mem _ (hsub _ hchamber)) with hmem | hmem
      · exact hmem
      · exact absurd (List.mem_singleton.mp hmem) (hlast hchamber)
    · exact hp.mem_of_ne hchamber heq
  · exact fun chamber hchamber => hp.chamber_eq chamber (hsub chamber hchamber)

/-- For a new chamber its only point is chosen. -/
theorem eq_last_of_new (hp : IsChoice (taken ++ [m]) pick)
    (hnew : m.point.chamber ∉ chamberOrder taken) : pick m.point.chamber = m := by
  have hchamber : m.point.chamber ∈ chamberOrder (taken ++ [m]) :=
    mem_chamberOrder.mpr ⟨m, List.mem_append_right _ (List.mem_singleton_self m), rfl⟩
  rcases List.mem_append.mp (hp.mem _ hchamber) with hmem | hmem
  · exact absurd (mem_chamberOrder.mpr ⟨_, hmem, hp.chamber_eq _ hchamber⟩) hnew
  · exact List.mem_singleton.mp hmem

/-- Extending a candidate by a point of a new chamber is choosing the point for its chamber. -/
theorem extend_chosen (seed : Member α) (pick : Nat → Member α)
    (hnew : m.point.chamber ∉ chamberOrder taken) :
    (chosen seed taken pick).extend m =
      chosen seed (taken ++ [m]) (Function.update pick m.point.chamber m) := by
  rw [Candidate.extend, chosen, chosen, chamberOrder_append_of_new hnew, List.map_append,
    List.map_singleton, Function.update_self, (nodup_chamberOrder taken).map_update, if_neg hnew,
    List.cons_append]

end IsChoice

/-! ## The candidates of a seed -/

section Spread

variable {seed m : Member α} {taken : List (Member α)}

theorem spread_append (seed : Member α) (taken : List (Member α)) (m : Member α) :
    spread seed [] (taken ++ [m]) = grow seed m (spread seed [] taken) := by
  rw [spread, List.foldl_append]
  rfl

/-- A seed that takes up a point has a candidate. -/
theorem spread_ne_nil (seed : Member α) (hne : taken ≠ []) : spread seed [] taken ≠ [] := by
  obtain ⟨m, rest, rfl⟩ := List.exists_cons_of_ne_nil hne
  have hlength := length_le_length_spread seed [[seed, m]] rest
  rw [List.length_singleton] at hlength
  exact List.ne_nil_of_length_pos hlength

/-- Growth by a point of a new chamber, for candidates that are choices. -/
theorem grow_of_new {candidates : List (Candidate α)} (h : Takes seed (taken ++ [m]))
    (hchoices : ∀ c ∈ candidates, ∃ pick, IsChoice taken pick ∧ c = chosen seed taken pick)
    (hne : candidates ≠ []) (hnew : m.point.chamber ∉ chamberOrder taken) :
    grow seed m candidates = candidates.map (·.extend m) := by
  have hoffer : ∀ c ∈ candidates, c.left m = c.extend m ∧ c.forked? m = none := by
    intro c hc
    obtain ⟨pick, hp, rfl⟩ := hchoices c hc
    exact hp.offer_of_new h hnew
  obtain ⟨c, rest, rfl⟩ := List.exists_cons_of_ne_nil hne
  rw [grow, forks, List.filterMap_eq_nil_iff.mpr fun c hc => (hoffer c hc).2, List.append_nil]
  exact List.map_congr_left fun c hc => (hoffer c hc).1

/-- Growth by a point of a chamber that occurred, for candidates that are choices. -/
theorem grow_of_seen {candidates : List (Candidate α)} (h : Takes seed (taken ++ [m]))
    (hchoices : ∀ c ∈ candidates, ∃ pick, IsChoice taken pick ∧ c = chosen seed taken pick)
    (hne : candidates ≠ []) (hseen : m.point.chamber ∈ chamberOrder taken) :
    grow seed m candidates = candidates ++ candidates.map (·.swap m) := by
  have hoffer : ∀ c ∈ candidates, c.left m = c ∧ c.forked? m = some (c.swap m) := by
    intro c hc
    obtain ⟨pick, hp, rfl⟩ := hchoices c hc
    exact hp.offer_of_seen h hseen
  have hleft : candidates.map (·.left m) = candidates.map id :=
    List.map_congr_left fun c hc => (hoffer c hc).1
  have hforks : forks m candidates = candidates.filterMap fun c => some (c.swap m) :=
    List.filterMap_congr fun c hc => (hoffer c hc).2
  obtain ⟨c, rest, rfl⟩ := List.exists_cons_of_ne_nil hne
  rw [grow, hleft, hforks, List.map_id, List.filterMap_eq_map']

/-- Every candidate of a seed is a choice among the points it took up. -/
theorem exists_choice_of_mem_spread (h : Takes seed taken) :
    ∀ c ∈ spread seed [] taken, ∃ pick, IsChoice taken pick ∧ c = chosen seed taken pick := by
  induction taken using List.reverseRecOn with
  | nil => simp [spread]
  | append_singleton taken m ih =>
      intro c hc
      rw [spread_append] at hc
      -- the first point makes a candidate of two, whatever its chamber
      by_cases hne : taken = []
      · subst hne
        have hfirst : c = [seed, m] := by simpa [spread, grow] using hc
        have hempty : IsChoice ([] : List (Member α)) fun _ => seed :=
          ⟨fun _ hmem => absurd hmem List.not_mem_nil, fun _ hmem => absurd hmem List.not_mem_nil⟩
        refine ⟨_, hempty.update m, ?_⟩
        rw [← IsChoice.extend_chosen seed _ List.not_mem_nil, hfirst]
        rfl
      · have hchoices := ih h.of_append
        by_cases hseen : m.point.chamber ∈ chamberOrder taken
        · rw [grow_of_seen h hchoices (spread_ne_nil seed hne) hseen] at hc
          rcases List.mem_append.mp hc with hc | hc
          · obtain ⟨pick, hp, rfl⟩ := hchoices c hc
            refine ⟨pick, hp.append_of_seen hseen, ?_⟩
            rw [chosen, chosen, chamberOrder_append_of_seen hseen]
          · obtain ⟨old, hold, rfl⟩ := List.mem_map.mp hc
            obtain ⟨pick, hp, rfl⟩ := hchoices old hold
            refine ⟨_, hp.update m, ?_⟩
            rw [hp.swap_chosen h, chosen, chosen, chamberOrder_append_of_seen hseen]
        · rw [grow_of_new h hchoices (spread_ne_nil seed hne) hseen] at hc
          obtain ⟨old, hold, rfl⟩ := List.mem_map.mp hc
          obtain ⟨pick, hp, rfl⟩ := hchoices old hold
          exact ⟨_, hp.update m, IsChoice.extend_chosen seed pick hseen⟩

/-- A point of a new chamber extends every candidate. -/
theorem spread_append_of_new (h : Takes seed (taken ++ [m])) (hne : taken ≠ [])
    (hnew : m.point.chamber ∉ chamberOrder taken) :
    spread seed [] (taken ++ [m]) = (spread seed [] taken).map (·.extend m) := by
  rw [spread_append]
  exact grow_of_new h (exists_choice_of_mem_spread h.of_append) (spread_ne_nil seed hne) hnew

/-- A point of a chamber that occurred adds every candidate with the point swapped in. -/
theorem spread_append_of_seen (h : Takes seed (taken ++ [m])) (hne : taken ≠ [])
    (hseen : m.point.chamber ∈ chamberOrder taken) :
    spread seed [] (taken ++ [m]) =
      spread seed [] taken ++ (spread seed [] taken).map (·.swap m) := by
  rw [spread_append]
  exact grow_of_seen h (exists_choice_of_mem_spread h.of_append) (spread_ne_nil seed hne) hseen

/-- The candidates of a seed are the choices of one point in each chamber that it took up. -/
theorem mem_spread_iff (h : Takes seed taken) (hne : taken ≠ []) {c : Candidate α} :
    c ∈ spread seed [] taken ↔ ∃ pick, IsChoice taken pick ∧ c = chosen seed taken pick := by
  refine ⟨exists_choice_of_mem_spread h c, ?_⟩
  rintro ⟨pick, hp, rfl⟩
  induction taken using List.reverseRecOn generalizing pick with
  | nil => exact absurd rfl hne
  | append_singleton taken m ih =>
      by_cases hempty : taken = []
      · subst hempty
        have hm : pick m.point.chamber = m := hp.eq_last_of_new List.not_mem_nil
        have hlist : chosen seed [m] pick = [seed, pick m.point.chamber] := rfl
        rw [List.nil_append, hlist, hm]
        exact List.mem_singleton_self _
      -- what is chosen for the chamber of the last point tells where the candidate comes from
      by_cases hseen : m.point.chamber ∈ chamberOrder taken
      · rw [spread_append_of_seen h hempty hseen, List.mem_append, chosen,
          chamberOrder_append_of_seen hseen, ← chosen]
        by_cases hm : pick m.point.chamber = m
        · right
          obtain ⟨x, hx, hxm⟩ := mem_chamberOrder.mp hseen
          have hbefore := hp.swap_out hx hxm
          have hback : Function.update pick m.point.chamber m = pick :=
            Function.update_eq_iff.mpr ⟨hm.symm, fun _ _ => rfl⟩
          refine List.mem_map.mpr ⟨_, ih h.of_append hempty _ hbefore, ?_⟩
          rw [hbefore.swap_chosen h, Function.update_idem, hback]
        · left
          exact ih h.of_append hempty pick (hp.of_append fun _ => hm)
      · rw [spread_append_of_new h hempty hseen]
        have hbefore := hp.of_append fun hmem => absurd hmem hseen
        have hback : Function.update pick m.point.chamber m = pick :=
          Function.update_eq_iff.mpr ⟨(hp.eq_last_of_new hseen).symm, fun _ _ => rfl⟩
        refine List.mem_map.mpr ⟨_, ih h.of_append hempty pick hbefore, ?_⟩
        rw [IsChoice.extend_chosen seed pick hseen, hback]

/-- Each point beyond the first of its chamber doubles the number of candidates. -/
theorem length_spread (h : Takes seed taken) (hne : taken ≠ []) :
    (spread seed [] taken).length = 2 ^ (taken.length - (chamberOrder taken).length) := by
  induction taken using List.reverseRecOn with
  | nil => exact absurd rfl hne
  | append_singleton taken m ih =>
      by_cases hempty : taken = []
      · subst hempty
        rfl
      have hle := length_chamberOrder_le taken
      by_cases hseen : m.point.chamber ∈ chamberOrder taken
      · rw [spread_append_of_seen h hempty hseen, List.length_append, List.length_map,
          ih h.of_append hempty, chamberOrder_append_of_seen hseen, List.length_append,
          List.length_singleton, Nat.sub_add_comm hle, pow_succ]
        omega
      · rw [spread_append_of_new h hempty hseen, List.length_map, ih h.of_append hempty,
          chamberOrder_append_of_new hseen, List.length_append, List.length_append,
          List.length_singleton, List.length_singleton, Nat.add_sub_add_right]

/-- Two choices make the same candidate if they agree on all chambers that occur. -/
theorem chosen_eq_iff {pick pick' : Nat → Member α} :
    chosen seed taken pick = chosen seed taken pick' ↔
      ∀ chamber ∈ chamberOrder taken, pick chamber = pick' chamber := by
  rw [chosen, chosen, List.cons_inj_right, List.map_inj_left]

/-- Swapping in a point tells candidates apart if and only if they have no choice in its chamber,
that is, if one point of it came before. -/
theorem nodup_map_swap_iff (h : Takes seed (taken ++ [m])) (hne : taken ≠ [])
    (hnodup : (spread seed [] taken).Nodup) :
    ((spread seed [] taken).map (·.swap m)).Nodup ↔ pointsIn taken m.point.chamber ≤ 1 := by
  constructor
  · intro hswap
    by_contra hmany
    have htaken : taken.Nodup := h.of_append.nodup.of_map
    have htwo : 2 ≤ pointsIn taken m.point.chamber := by omega
    obtain ⟨x, hx, y, hy, hxm, hym, hxy⟩ := exists_ne_of_two_le_pointsIn htaken htwo
    obtain ⟨c, hc⟩ := List.exists_mem_of_ne_nil _ (spread_ne_nil seed hne)
    obtain ⟨pick, hp, -⟩ := exists_choice_of_mem_spread h.of_append c hc
    have hother : ∀ chamber ∈ chamberOrder taken, ∀ z : Member α, chamber ≠ z.point.chamber →
        pick chamber ∈ taken ∧ (pick chamber).point.chamber = chamber :=
      fun chamber hchamber _ _ => ⟨hp.mem chamber hchamber, hp.chamber_eq chamber hchamber⟩
    have hpx := IsChoice.update_of_mem hx fun chamber hchamber => hother chamber hchamber x
    have hpy := IsChoice.update_of_mem hy fun chamber hchamber => hother chamber hchamber y
    have hmemx := (mem_spread_iff h.of_append hne).mpr ⟨_, hpx, rfl⟩
    have hmemy := (mem_spread_iff h.of_append hne).mpr ⟨_, hpy, rfl⟩
    -- two candidates that differ in the chamber of `m` only become one
    have hsame : (chosen seed taken (Function.update pick x.point.chamber x)).swap m =
        (chosen seed taken (Function.update pick y.point.chamber y)).swap m := by
      rw [hpx.swap_chosen h, hpy.swap_chosen h, hxm, hym, Function.update_idem,
        Function.update_idem]
    have heq := List.inj_on_of_nodup_map hswap hmemx hmemy hsame
    have hagree := chosen_eq_iff.mp heq m.point.chamber (mem_chamberOrder.mpr ⟨x, hx, hxm⟩)
    rw [hxm, hym, Function.update_self, Function.update_self] at hagree
    exact hxy hagree
  · intro hone
    refine hnodup.map_on ?_
    intro c hc c' hc' hsame
    obtain ⟨pick, hp, rfl⟩ := exists_choice_of_mem_spread h.of_append c hc
    obtain ⟨pick', hp', rfl⟩ := exists_choice_of_mem_spread h.of_append c' hc'
    rw [hp.swap_chosen h, hp'.swap_chosen h, chosen_eq_iff] at hsame
    rw [chosen_eq_iff]
    intro chamber hchamber
    -- in the chamber of `m` there is nothing to choose, and elsewhere nothing was swapped
    by_cases heq : chamber = m.point.chamber
    · have hown := hp.chamber_eq chamber hchamber
      refine eq_of_pointsIn_le_one ?_ (hp.mem chamber hchamber) (hp'.mem chamber hchamber) ?_
      · rwa [hown, heq]
      · rw [hown, hp'.chamber_eq chamber hchamber]
    · have hagree := hsame chamber hchamber
      rwa [Function.update_of_ne heq, Function.update_of_ne heq] at hagree

/-- A point that is swapped in tells the forks from the candidates that were there before. -/
theorem ne_swap (h : Takes seed (taken ++ [m])) (hseen : m.point.chamber ∈ chamberOrder taken)
    {c c' : Candidate α} (hc : c ∈ spread seed [] taken) (hc' : c' ∈ spread seed [] taken) :
    c ≠ c'.swap m := by
  obtain ⟨pick, hp, rfl⟩ := exists_choice_of_mem_spread h.of_append c hc
  obtain ⟨pick', hp', rfl⟩ := exists_choice_of_mem_spread h.of_append c' hc'
  intro heq
  have hmem : m ∈ (chosen seed taken pick').swap m := by
    rw [hp'.swap_chosen h, chosen]
    refine List.mem_cons_of_mem _ (List.mem_map.mpr ⟨m.point.chamber, hseen, ?_⟩)
    exact Function.update_self ..
  have hcontains := hp.contains_chosen h
  rw [heq, Candidate.contains, List.any_eq_false] at hcontains
  exact hcontains m hmem (beq_self_eq_true m.id)

/-- No candidate occurs twice if and only if no chamber has more than two points. -/
theorem nodup_spread_iff (h : Takes seed taken) :
    (spread seed [] taken).Nodup ↔ ∀ chamber, pointsIn taken chamber ≤ 2 := by
  induction taken using List.reverseRecOn with
  | nil => simp [spread, pointsIn]
  | append_singleton taken m ih =>
      simp only [pointsIn_append]
      by_cases hempty : taken = []
      · subst hempty
        refine iff_of_true (List.nodup_singleton _) fun chamber => ?_
        have hnone : pointsIn ([] : List (Member α)) chamber = 0 := rfl
        split <;> omega
      by_cases hseen : m.point.chamber ∈ chamberOrder taken
      · rw [spread_append_of_seen h hempty hseen, List.nodup_append]
        constructor
        · rintro ⟨hbefore, hswap, -⟩ chamber
          have hone := (nodup_map_swap_iff h hempty hbefore).mp hswap
          have htwo := (ih h.of_append).mp hbefore chamber
          split
          · next heq => rw [← heq]; omega
          · exact htwo
        · intro htwo
          have hbefore : (spread seed [] taken).Nodup :=
            (ih h.of_append).mpr fun chamber => le_trans (Nat.le_add_right _ _) (htwo chamber)
          have hone := htwo m.point.chamber
          rw [if_pos rfl] at hone
          refine ⟨hbefore, (nodup_map_swap_iff h hempty hbefore).mpr (by omega), ?_⟩
          intro c hc c' hc'
          obtain ⟨old, hold, rfl⟩ := List.mem_map.mp hc'
          exact ne_swap h hseen hc hold
      · rw [spread_append_of_new h hempty hseen,
          List.nodup_map_iff (f := fun c : Candidate α => c.extend m)
            (List.append_left_injective [m]), ih h.of_append]
        have hnone : pointsIn taken m.point.chamber = 0 := by
          have hpos := mt pointsIn_pos_iff.mp hseen
          omega
        constructor
        · intro htwo chamber
          have hchamber := htwo chamber
          split
          · next heq => rw [← heq]; omega
          · exact hchamber
        · exact fun htwo chamber => le_trans (Nat.le_add_right _ _) (htwo chamber)

/-- The members of a candidate are the seed and points that it took up. -/
theorem mem_cons_of_mem_spread (h : Takes seed taken) {c : Candidate α} {x : Member α}
    (hc : c ∈ spread seed [] taken) (hx : x ∈ c) : x = seed ∨ x ∈ taken := by
  obtain ⟨pick, hp, rfl⟩ := exists_choice_of_mem_spread h c hc
  rcases List.mem_cons.mp hx with hx | hx
  · exact Or.inl hx
  · obtain ⟨chamber, hchamber, rfl⟩ := List.mem_map.mp hx
    exact Or.inr (hp.mem chamber hchamber)

/-- Every point that was taken up is in a candidate. -/
theorem exists_mem_spread (h : Takes seed taken) (hm : m ∈ taken) :
    ∃ c ∈ spread seed [] taken, m ∈ c := by
  have hne : taken ≠ [] := List.ne_nil_of_mem hm
  obtain ⟨c, hc⟩ := List.exists_mem_of_ne_nil _ (spread_ne_nil seed hne)
  obtain ⟨pick, hp, -⟩ := exists_choice_of_mem_spread h c hc
  have hpick := IsChoice.update_of_mem hm fun chamber hchamber _ =>
    ⟨hp.mem chamber hchamber, hp.chamber_eq chamber hchamber⟩
  refine ⟨_, (mem_spread_iff h hne).mpr ⟨_, hpick, rfl⟩, List.mem_cons_of_mem _ ?_⟩
  exact List.mem_map.mpr
    ⟨m.point.chamber, mem_chamberOrder_of_mem hm, Function.update_self ..⟩

end Spread

end DriftChamber
