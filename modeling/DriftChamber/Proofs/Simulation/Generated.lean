/-
# Generated events

Facts about generated events that hold whatever is drawn.  `Draw.Always P d` says that everything
`d` may draw satisfies `P`, and passes through the steps of a draw (`Draw.always_bind`).

* The hits of a chamber lie on planes of the chamber, in increasing order
  (`Generator.always_digitize`).
* A point is kept only with a stub that solves its hits (`SpacePoint.FoundBy`).
* Adding rays and noise keeps the points of each chamber in the list of that chamber
  (`Generator.Stocked`), so stamping the points with their chambers changes none of them.

With this, an event has as many rays of the truth as were asked for, and all its points were found
in their chambers (`Generator.always_generate`).
-/
import DriftChamber.Proofs.Geometry.Table
import DriftChamber.Simulation.Generator

namespace DriftChamber

/-! ## What draws have in common -/

namespace Draw

/-- Whatever the stream, what is drawn satisfies `P`. -/
def Always {β : Type} (P : β → Prop) (d : Draw β) : Prop := ∀ s : Stream, P (d s).1

section Rules

variable {β γ : Type} {P : β → Prop} {Q : γ → Prop}

theorem always_pure {b : β} (h : P b) : Always P (pure b : Draw β) := fun _ => h

/-- What holds of all that follows a draw holds after it. -/
theorem always_bind {d : Draw β} {next : β → Draw γ} (hd : d.Always P)
    (hnext : ∀ b, P b → (next b).Always Q) : Always Q (d >>= next) :=
  fun s => hnext (d s).1 (hd s) (d s).2

/-- The same where nothing has to be known of the draw. -/
theorem always_bind' {d : Draw β} {next : β → Draw γ} (hnext : ∀ b, (next b).Always Q) :
    Always Q (d >>= next) :=
  fun s => hnext (d s).1 (d s).2

theorem Always.imp {d : Draw β} {P' : β → Prop} (hd : d.Always P) (h : ∀ b, P b → P' b) :
    d.Always P' :=
  fun s => h _ (hd s)

end Rules

/-- A word times the width of a range has its upper half in the range. -/
theorem mul_div_size_lt (w : UInt64) {width : Nat} (hwidth : 0 < width) :
    w.toNat * width / UInt64.size < width := by
  rw [Nat.div_lt_iff_lt_mul (by decide), Nat.mul_comm width]
  exact Nat.mul_lt_mul_of_pos_right w.toNat_lt hwidth

/-- Words are rejected until one is taken, and what is made of it lies in the range; so does the
lower bound, which is taken when all tries are used up. -/
theorem always_betweenWithin (low zone : Nat) {width : Nat} (hwidth : 0 < width) (tries : Nat) :
    (betweenWithin low width zone tries).Always fun v => low ≤ v ∧ v < low + width := by
  induction tries with
  | zero => exact always_pure ⟨Nat.le_refl _, by omega⟩
  | succ tries ih =>
      refine always_bind' fun w => ?_
      have hlt := mul_div_size_lt w hwidth
      show Always _ (if _ then _ else _)
      split
      · exact always_pure ⟨Nat.le_add_right _ _, by omega⟩
      · exact ih

/-- A number drawn between two bounds lies between them. -/
theorem always_between {low high : Nat} (h : low ≤ high) :
    (between low high).Always fun v => low ≤ v ∧ v ≤ high :=
  (always_betweenWithin low _ (Nat.succ_pos _) attempts).imp fun v hv => ⟨hv.1, by omega⟩

end Draw

/-! ## Points as chambers give them -/

section Found

variable {α : Type} [Scalar α]

/-- A point as a chamber gives it: its hits lie on planes of the chamber, in increasing order, and
its stub is the ray that describes them best. -/
structure SpacePoint.FoundBy (f : Fitter α) (p : SpacePoint α) : Prop where
  /-- The stub solves the hits. -/
  solve_eq : f.solve p.hits = .ok p.stub
  /-- The hits lie on planes of the chamber, each on a plane of its own. -/
  planes_sublist : (p.hits.map (·.plane)).Sublist (f.geometry.planesInChamber p.chamber)

namespace SpacePoint.FoundBy

variable {f : Fitter α} {p : SpacePoint α}

/-- A hit lies on a plane of the chamber of its point. -/
theorem chamberOf?_eq (h : p.FoundBy f) {hit : Hit α} (hhit : hit ∈ p.hits) :
    f.geometry.chamberOf? hit.plane = some p.chamber :=
  Geometry.mem_planesInChamber_iff.mp (h.planes_sublist.subset (List.mem_map_of_mem hhit))

/-- No two hits lie on the same plane. -/
theorem pairwise_planes (h : p.FoundBy f) : (p.hits.map (·.plane)).Pairwise (· < ·) :=
  List.Pairwise.sublist h.planes_sublist (f.geometry.pairwise_planesInChamber p.chamber)

/-- A stub takes four hits. -/
theorem four_le_length (h : p.FoundBy f) : 4 ≤ p.hits.length := by
  by_contra hfew
  have hsolve := h.solve_eq
  rw [Fitter.solve, if_pos (by omega)] at hsolve
  cases hsolve

end SpacePoint.FoundBy

end Found

/-! ## The steps of an event -/

namespace Generator

variable (g : Generator)

/-- A plane that does not answer leaves out its hit and changes nothing about the others. -/
theorem always_hitsOn (ray : Ray Float) (entries : List (Nat × Plane Float)) :
    (g.hitsOn ray entries).Always fun hits =>
      (hits.map (·.plane)).Sublist (entries.map (·.1)) := by
  induction entries with
  | nil => exact Draw.always_pure (List.Sublist.refl _)
  | cons entry rest ih =>
      refine Draw.always_bind' fun u => ?_
      show Draw.Always _ (if _ then _ else _)
      split
      · exact ih.imp fun hits hsub => hsub.trans (List.sublist_cons_self _ _)
      · refine Draw.always_bind' fun z => Draw.always_bind ih fun hits hsub => ?_
        exact Draw.always_pure (hsub.cons_cons entry.1)

/-- The hits of a chamber lie on planes of the chamber, in increasing order. -/
theorem always_digitize (ray : Ray Float) (chamber : Nat) :
    (g.digitize ray chamber).Always fun hits =>
      (hits.map (·.plane)).Sublist (g.fitter.geometry.planesInChamber chamber) :=
  g.always_hitsOn ray _

/-- Points of one list that were found in the chamber of the given number. -/
def FoundIn (chamber : Nat) (points : List (SpacePoint Float)) : Prop :=
  ∀ p ∈ points, p.chamber = chamber ∧ p.FoundBy g.fitter

/-- A point is kept with the ray that solves its hits, in the chamber they are from. -/
theorem foundIn_findPoint {chamber : Nat} {hits : List (Hit Float)}
    (hplanes : (hits.map (·.plane)).Sublist (g.fitter.geometry.planesInChamber chamber)) :
    g.FoundIn chamber (g.findPoint chamber hits).toList := by
  intro p hp
  rw [Option.mem_toList, findPoint] at hp
  split at hp
  · next stub hsolve =>
      cases hp
      exact ⟨rfl, hsolve, hplanes⟩
  · cases hp

/-- Lists of points chamber after chamber, from the chamber of the given number on. -/
def Stocked (first : Nat) (chambers : List (List (SpacePoint Float))) : Prop :=
  ∀ entry ∈ chambers.zipIdx first, g.FoundIn entry.2 entry.1

variable {g}

/-- The first list belongs to the first chamber, and the others to those behind it. -/
theorem stocked_cons {first : Nat} {points : List (SpacePoint Float)}
    {rest : List (List (SpacePoint Float))} :
    g.Stocked first (points :: rest) ↔ g.FoundIn first points ∧ g.Stocked (first + 1) rest := by
  rw [Stocked, List.zipIdx_cons, List.forall_mem_cons]
  rfl

theorem stocked_replicate (first count : Nat) : g.Stocked first (List.replicate count []) := by
  induction count generalizing first with
  | zero => exact fun _ h => absurd h List.not_mem_nil
  | succ count ih => exact stocked_cons.mpr ⟨fun _ h => absurd h List.not_mem_nil, ih _⟩

/-- Lists stay chamber after chamber if one of them is replaced by points of its chamber. -/
theorem Stocked.set {first i : Nat} {chambers : List (List (SpacePoint Float))}
    (h : g.Stocked first chambers) {points : List (SpacePoint Float)}
    (hpoints : g.FoundIn (first + i) points) : g.Stocked first (chambers.set i points) := by
  induction chambers generalizing first i with
  | nil => exact h
  | cons head rest ih =>
      obtain ⟨hhead, hrest⟩ := stocked_cons.mp h
      cases i with
      | zero => exact stocked_cons.mpr ⟨hpoints, hrest⟩
      | succ i => exact stocked_cons.mpr ⟨hhead, ih hrest (by rwa [Nat.add_right_comm])⟩

/-- The list at an index holds points of its own chamber; past the end there are no points. -/
theorem Stocked.getD {first i : Nat} {chambers : List (List (SpacePoint Float))}
    (h : g.Stocked first chambers) : g.FoundIn (first + i) (chambers[i]?.getD []) := by
  cases hi : chambers[i]? with
  | none => exact fun _ h => absurd h List.not_mem_nil
  | some points =>
      exact h (points, first + i)
        (List.mk_mem_zipIdx_iff_le_and_getElem?_sub.mpr ⟨by omega, by simpa using hi⟩)

/-- Points that stand with their chambers keep their numbers. -/
theorem forall_mem_flatten {chambers : List (List (SpacePoint Float))}
    (h : g.Stocked 1 chambers) : ∀ p ∈ SpacePoint.flatten chambers, p.FoundBy g.fitter := by
  intro p hp
  obtain ⟨entry, hentry, hp⟩ := List.mem_flatMap.mp hp
  obtain ⟨point, hpoint, rfl⟩ := List.mem_map.mp hp
  obtain ⟨hchamber, hfound⟩ := h entry hentry point hpoint
  rwa [← hchamber]

variable (g)

/-- A ray that crosses the chambers leaves a point at most in each. -/
theorem always_crossChambers (ray : Ray Float) {first : Nat}
    {chambers : List (List (SpacePoint Float))} (h : g.Stocked first chambers) :
    (g.crossChambers ray (chambers.zipIdx first)).Always fun crossed =>
      crossed.length = chambers.length ∧ g.Stocked first crossed := by
  induction chambers generalizing first with
  | nil => exact Draw.always_pure ⟨rfl, h⟩
  | cons points rest ih =>
      obtain ⟨hpoints, hrest⟩ := stocked_cons.mp h
      rw [List.zipIdx_cons, crossChambers]
      refine Draw.always_bind (g.always_digitize ray first) fun hits hhits =>
        Draw.always_bind (ih hrest) fun others hothers => Draw.always_pure ⟨?_, ?_⟩
      · rw [List.length_cons, List.length_cons, hothers.1]
      · refine stocked_cons.mpr ⟨fun p hp => ?_, hothers.2⟩
        rcases List.mem_append.mp hp with hp | hp
        · exact hpoints p hp
        · exact g.foundIn_findPoint hhits p hp

/-- Each ray is in the truth, and leaves the points of a chamber in the list of that chamber. -/
theorem always_addRays (count : Nat) {chambers : List (List (SpacePoint Float))}
    (h : g.Stocked 1 chambers) :
    (g.addRays count chambers).Always fun added =>
      added.1.length = count ∧ added.2.length = chambers.length ∧ g.Stocked 1 added.2 := by
  induction count generalizing chambers with
  | zero => exact Draw.always_pure ⟨rfl, rfl, h⟩
  | succ count ih =>
      rw [addRays]
      refine Draw.always_bind' fun ray =>
        Draw.always_bind (g.always_crossChambers ray h) fun crossed hcrossed =>
          Draw.always_bind (ih hcrossed.2) fun added hadded => Draw.always_pure ?_
      exact ⟨congrArg (· + 1) hadded.1, hadded.2.1.trans hcrossed.1, hadded.2.2⟩

/-- A noise point goes to the list of the chamber that sees its ray, at whatever place. -/
theorem always_addNoise (count : Nat) {chambers : List (List (SpacePoint Float))}
    (h : g.Stocked 1 chambers) :
    (g.addNoise count chambers).Always fun noisy =>
      noisy.length = chambers.length ∧ g.Stocked 1 noisy := by
  induction count generalizing chambers with
  | zero => exact Draw.always_pure ⟨rfl, h⟩
  | succ count ih =>
      rw [addNoise]
      refine Draw.always_bind' fun ray => Draw.always_bind (Draw.always_between ?_)
        fun chamber hchamber => Draw.always_bind (g.always_digitize ray chamber)
          fun hits hhits => ?_
      · exact g.fitter.geometry.numChambers_pos
      · have hpoint := g.foundIn_findPoint hhits
        cases hfound : g.findPoint chamber hits with
        | none => exact ih h
        | some point =>
            rw [hfound] at hpoint
            have hnumber : chamber = 1 + (chamber - 1) := by omega
            have hplaced : ∀ place, g.FoundIn (1 + (chamber - 1))
                ((chambers[chamber - 1]?.getD []).insertIdx place point) := by
              intro place p hp
              rcases List.eq_or_mem_of_mem_insertIdx hp with rfl | hp
              · exact hnumber ▸ hpoint p (by simp)
              · exact h.getD p hp
            refine Draw.always_bind' fun place => (ih (h.set (hplaced place))).imp ?_
            rintro noisy ⟨hlength, hstocked⟩
            exact ⟨hlength.trans List.length_set, hstocked⟩

/-- An event has as many rays as were asked for, and all its points were found in their
chambers. -/
theorem always_generate (rays : Nat) :
    (g.generate rays).Always fun e =>
      e.truth.length = rays ∧ ∀ p ∈ e.points, p.FoundBy g.fitter :=
  Draw.always_bind (g.always_addRays rays (stocked_replicate 1 _)) fun _ hadded =>
    Draw.always_bind (g.always_addNoise _ hadded.2.2) fun _ hnoisy =>
      Draw.always_pure ⟨hadded.1, forall_mem_flatten hnoisy.2⟩

end Generator

end DriftChamber
