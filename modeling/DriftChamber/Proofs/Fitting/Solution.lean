/-
# The ray of a list of hits

When hits give a ray.  Where all planes are known and there are four hits, what is left is whether
the normal equations have a solution (`Fitter.solve_eq_of_measurements`).  In exact arithmetic they
have one unless the ray may move in some direction without any hit noticing it, which depends on
the planes that were hit and on nothing else (`Fitter.solve_eq_singular_iff`).
-/
import DriftChamber.Proofs.Fitting.NormalEquations
import DriftChamber.Proofs.Fitting.Outcome

namespace DriftChamber

open Matrix

namespace Fitter

/-! ## What hits say -/

section Measurements

variable {α : Type} [Scalar α] {f : Fitter α} {hits : List (Hit α)} {ms : List (Measurement α)}

theorem measurement_eq_ok_iff {hit : Hit α} {m : Measurement α} :
    f.measurement hit = .ok m ↔ ∃ plane, f.geometry.plane? hit.plane = some plane ∧
      m = ⟨f.map.select plane.coefficients, plane.weight, hit.coord⟩ := by
  unfold measurement
  cases f.geometry.plane? hit.plane with
  | none => simp
  | some plane => simp [eq_comm]

/-- Measurements are taken hit by hit. -/
theorem measurements_eq_ok_iff :
    f.measurements hits = .ok ms ↔ hits.map f.measurement = ms.map .ok := by
  induction hits generalizing ms with
  | nil => cases ms <;> simp [measurements]
  | cons hit rest ih =>
      rw [measurements, List.map_cons]
      cases hhit : f.measurement hit with
      | error e => cases ms <;> simp
      | ok m =>
          cases hrest : f.measurements rest with
          | error e =>
              refine iff_of_false (by simp) fun h => ?_
              cases ms with
              | nil => cases h
              | cons m' ms =>
                  rw [List.map_cons, List.cons.injEq, ← ih, hrest] at h
                  cases h.2
          | ok ms' =>
              rw [ih.mp hrest, ← List.map_cons,
                (List.map_injective_iff.mpr fun _ _ => Except.ok.inj).eq_iff, Except.ok.injEq]

theorem exists_hit_of_mem (h : f.measurements hits = .ok ms) {m : Measurement α} (hm : m ∈ ms) :
    ∃ hit ∈ hits, f.measurement hit = .ok m := by
  have hmem : Except.ok m ∈ ms.map (Except.ok : _ → Except FitError (Measurement α)) :=
    List.mem_map_of_mem hm
  rwa [← measurements_eq_ok_iff.mp h, List.mem_map] at hmem

theorem exists_measurement_of_mem (h : f.measurements hits = .ok ms) {hit : Hit α}
    (hhit : hit ∈ hits) : ∃ m ∈ ms, f.measurement hit = .ok m := by
  have hmem : f.measurement hit ∈ hits.map f.measurement := List.mem_map_of_mem hhit
  rw [measurements_eq_ok_iff.mp h, List.mem_map] at hmem
  obtain ⟨m, hm, heq⟩ := hmem
  exact ⟨m, hm, heq.symm⟩

/-- Hits can be measured exactly if their planes exist. -/
theorem exists_measurements_iff :
    (∃ ms, f.measurements hits = .ok ms) ↔
      ∀ hit ∈ hits, (f.geometry.plane? hit.plane).isSome = true := by
  constructor
  · rintro ⟨ms, h⟩ hit hhit
    obtain ⟨m, -, hm⟩ := exists_measurement_of_mem h hhit
    obtain ⟨plane, hplane, -⟩ := measurement_eq_ok_iff.mp hm
    exact Option.isSome_iff_exists.mpr ⟨plane, hplane⟩
  · intro hknown
    have hall : ∀ hit ∈ hits, ∃ m, f.measurement hit = .ok m := by
      intro hit hhit
      obtain ⟨plane, hplane⟩ := Option.isSome_iff_exists.mp (hknown hit hhit)
      exact ⟨_, measurement_eq_ok_iff.mpr ⟨plane, hplane, rfl⟩⟩
    induction hits with
    | nil => exact ⟨[], rfl⟩
    | cons hit rest ih =>
        obtain ⟨m, hm⟩ := hall hit List.mem_cons_self
        obtain ⟨ms, hms⟩ := ih (fun x hx => hknown x (List.mem_cons_of_mem _ hx))
          fun x hx => hall x (List.mem_cons_of_mem _ hx)
        refine ⟨m :: ms, measurements_eq_ok_iff.mpr ?_⟩
        rw [List.map_cons, List.map_cons, hm, measurements_eq_ok_iff.mp hms]

/-- Four hits on planes that exist have the ray of their measurements, if there is one. -/
theorem solve_eq_of_measurements (hfour : 4 ≤ hits.length) (h : f.measurements hits = .ok ms) :
    f.solve hits = (Measurement.bestRay? ms).elim (.error .singular) .ok := by
  have hmany : ¬hits.length < 4 := by omega
  cases hbest : Measurement.bestRay? ms <;> simp [solve, hmany, h, hbest]

theorem solve_eq_ok_iff {r : Ray α} :
    f.solve hits = .ok r ↔ 4 ≤ hits.length ∧
      ∃ ms, f.measurements hits = .ok ms ∧ Measurement.bestRay? ms = some r := by
  constructor
  · intro hsolve
    have hfour : 4 ≤ hits.length := by
      by_contra hfew
      rw [solve, if_pos (by omega)] at hsolve
      cases hsolve
    cases hms : f.measurements hits with
    | error e =>
        rw [solve, if_neg (by omega), hms] at hsolve
        cases hsolve
    | ok ms =>
        rw [solve_eq_of_measurements hfour hms] at hsolve
        refine ⟨hfour, ms, rfl, ?_⟩
        cases hbest : Measurement.bestRay? ms with
        | none =>
            rw [hbest] at hsolve
            cases hsolve
        | some ray =>
            rw [hbest] at hsolve
            cases hsolve
            rfl
  · rintro ⟨hfour, ms, hms, hbest⟩
    rw [solve_eq_of_measurements hfour hms, hbest, Option.elim_some]

/-- The planes of hits that have a ray exist. -/
theorem isSome_plane?_of_solve {r : Ray α} (hsolve : f.solve hits = .ok r) :
    ∀ hit ∈ hits, (f.geometry.plane? hit.plane).isSome = true := by
  obtain ⟨-, ms, hms, -⟩ := solve_eq_ok_iff.mp hsolve
  exact exists_measurements_iff.mp ⟨ms, hms⟩

/-- Four hits on planes that exist have a ray, unless they are singular. -/
theorem solve_of_known (hfour : 4 ≤ hits.length)
    (hknown : ∀ hit ∈ hits, (f.geometry.plane? hit.plane).isSome = true) :
    f.solve hits = .error .singular ∨ ∃ ray, f.solve hits = .ok ray := by
  obtain ⟨ms, hms⟩ := exists_measurements_iff.mpr hknown
  rw [solve_eq_of_measurements hfour hms]
  cases Measurement.bestRay? ms with
  | none => exact Or.inl rfl
  | some ray => exact Or.inr ⟨ray, rfl⟩

/-! ## Hits on planes that do not exist -/

/-- The first of some hits on a plane that the detector does not have. -/
def firstUnknown? (f : Fitter α) (hits : List (Hit α)) : Option (Hit α) :=
  hits.find? fun hit => (f.geometry.plane? hit.plane).isNone

theorem firstUnknown?_eq_none_iff :
    f.firstUnknown? hits = none ↔ ∀ hit ∈ hits, (f.geometry.plane? hit.plane).isSome = true := by
  rw [firstUnknown?, List.find?_eq_none]
  simp only [Bool.not_eq_true, Option.isNone_eq_false_iff]

/-- Measuring hits stops at the first one on a plane that does not exist. -/
theorem measurements_of_firstUnknown? {hit : Hit α} (h : f.firstUnknown? hits = some hit) :
    f.measurements hits = .error (.unknownPlane hit.plane) := by
  induction hits with
  | nil => cases h
  | cons first rest ih =>
      rw [firstUnknown?, List.find?_cons] at h
      rw [measurements, measurement]
      cases hplane : f.geometry.plane? first.plane with
      | none =>
          rw [hplane] at h
          cases h
          rfl
      | some plane =>
          rw [hplane] at h
          simp only [ih h]

/-- With four hits, one on a plane that does not exist is the reason why there is no ray. -/
theorem solve_of_firstUnknown? (hfour : 4 ≤ hits.length) {hit : Hit α}
    (h : f.firstUnknown? hits = some hit) :
    f.solve hits = .error (.unknownPlane hit.plane) := by
  rw [solve, if_neg (by omega), measurements_of_firstUnknown? h]

end Measurements

/-! ## Exact arithmetic -/

section Exact

variable {f : Fitter Rat} {hits : List (Hit Rat)} {ms : List (Measurement Rat)}

/-- The uncertainty of a plane is positive. -/
theorem sigma_pos {plane : Plane Rat} {number : Nat}
    (h : f.geometry.plane? number = some plane) : 0 < plane.sigma := by
  have hmem : plane ∈ f.geometry.planes := by
    cases number with
    | zero => cases h
    | succ index => exact List.mem_of_getElem? h
  have hpos := (f.geometry.sound plane hmem).sigma_pos
  rw [Scalar.isPositive, Bool.and_eq_true, decide_eq_true_eq] at hpos
  exact hpos.2

/-- Every measurement counts. -/
theorem weight_pos_of_measurements (h : f.measurements hits = .ok ms) :
    ∀ m ∈ ms, 0 < m.weight := by
  intro m hm
  obtain ⟨hit, -, hhit⟩ := exists_hit_of_mem h hm
  obtain ⟨plane, hplane, rfl⟩ := measurement_eq_ok_iff.mp hhit
  have hsigma := sigma_pos hplane
  show (0 : ℚ) < 1 / (plane.sigma * plane.sigma)
  positivity

/-- Whether a direction of the four ray parameters goes unseen: on no plane that was hit does the
coordinate change along it. -/
def Unseen (f : Fitter Rat) (hits : List (Hit Rat)) (v : Fin 4 → ℚ) : Prop :=
  ∀ hit ∈ hits, ∀ plane, f.geometry.plane? hit.plane = some plane →
    column (f.map.select plane.coefficients) ⬝ᵥ v = 0

/-- The measurements see a direction exactly if the planes that were hit do. -/
theorem forall_measurements_iff (h : f.measurements hits = .ok ms) (v : Fin 4 → ℚ) :
    (∀ m ∈ ms, column m.coefficients ⬝ᵥ v = 0) ↔ f.Unseen hits v := by
  constructor
  · intro hall hit hhit plane hplane
    obtain ⟨m, hm, hmeasured⟩ := exists_measurement_of_mem h hhit
    obtain ⟨plane', hplane', rfl⟩ := measurement_eq_ok_iff.mp hmeasured
    rw [hplane] at hplane'
    cases hplane'
    exact hall _ hm
  · intro hall m hm
    obtain ⟨hit, hhit, hmeasured⟩ := exists_hit_of_mem h hm
    obtain ⟨plane, hplane, rfl⟩ := measurement_eq_ok_iff.mp hmeasured
    exact hall hit hhit plane hplane

/-- Four hits on planes that exist fail to give a ray exactly if a direction goes unseen. -/
theorem solve_cases (hfour : 4 ≤ hits.length)
    (hknown : ∀ hit ∈ hits, (f.geometry.plane? hit.plane).isSome = true) :
    ((∃ v, v ≠ 0 ∧ f.Unseen hits v) ∧ f.solve hits = .error .singular) ∨
      (¬(∃ v, v ≠ 0 ∧ f.Unseen hits v) ∧ ∃ r, f.solve hits = .ok r) := by
  obtain ⟨ms, hms⟩ := exists_measurements_iff.mpr hknown
  have hnone : Measurement.bestRay? ms = none ↔ ∃ v, v ≠ 0 ∧ f.Unseen hits v := by
    rw [Measurement.bestRay?_eq_none_iff (weight_pos_of_measurements hms)]
    exact exists_congr fun v => and_congr_right fun _ => forall_measurements_iff hms v
  rw [solve_eq_of_measurements hfour hms, ← hnone]
  cases Measurement.bestRay? ms with
  | none => exact Or.inl ⟨rfl, rfl⟩
  | some ray => exact Or.inr ⟨by simp, ray, rfl⟩

/-- Which directions go unseen hangs on the coefficients of the planes that were hit. -/
theorem unseen_congr {f' : Fitter Rat} {hits' : List (Hit Rat)} (hmap : f'.map = f.map)
    (hplanes : ∀ p, (f'.geometry.plane? p).map (·.coefficients) =
      (f.geometry.plane? p).map (·.coefficients))
    (hhits : ∀ p, p ∈ hits'.map (·.plane) ↔ p ∈ hits.map (·.plane)) (v : Fin 4 → ℚ) :
    f'.Unseen hits' v ↔ f.Unseen hits v := by
  have hone : ∀ (g : Fitter Rat) (hits : List (Hit Rat)), g.Unseen hits v ↔
      ∀ p ∈ hits.map (·.plane), ∀ k, (g.geometry.plane? p).map (·.coefficients) = some k →
        column (g.map.select k) ⬝ᵥ v = 0 := by
    intro g hits
    unfold Unseen
    simp only [List.forall_mem_map, Option.map_eq_some_iff, forall_exists_index, and_imp,
      forall_apply_eq_imp_iff₂]
  rw [hone, hone]
  simp only [hmap, hplanes, hhits]

/-- When hits do not determine a ray.  Four hits or more, all on planes that exist, are singular
exactly if there is a direction of the ray parameters, other than zero, along which the coordinate
changes on none of their planes; otherwise they have a ray.  So the answer hangs on the set of
planes and their coefficients only: not on the coordinates, the uncertainties, the order of the
hits or how often a plane was hit. -/
theorem solve_eq_singular_iff (f : Fitter Rat) (hits : List (Hit Rat)) (hfour : 4 ≤ hits.length)
    (hknown : ∀ hit ∈ hits, (f.geometry.plane? hit.plane).isSome = true) :
    (f.solve hits = .error .singular ↔ ∃ v, v ≠ 0 ∧ f.Unseen hits v) ∧
      (f.solve hits ≠ .error .singular → ∃ r, f.solve hits = .ok r) ∧
      ∀ (f' : Fitter Rat) (hits' : List (Hit Rat)), f'.map = f.map →
        (∀ p, (f'.geometry.plane? p).map (·.coefficients) =
          (f.geometry.plane? p).map (·.coefficients)) →
        4 ≤ hits'.length → (∀ p, p ∈ hits'.map (·.plane) ↔ p ∈ hits.map (·.plane)) →
        (f'.solve hits' = .error .singular ↔ f.solve hits = .error .singular) ∧
          ((∃ r, f'.solve hits' = .ok r) ↔ ∃ r, f.solve hits = .ok r) := by
  have hcases := solve_cases hfour hknown
  refine ⟨?_, ?_, ?_⟩
  · rcases hcases with ⟨hunseen, hsolve⟩ | ⟨hseen, r, hsolve⟩
    · exact iff_of_true hsolve hunseen
    · exact iff_of_false (by simp [hsolve]) hseen
  · intro hsingular
    rcases hcases with ⟨-, hsolve⟩ | ⟨-, hray⟩
    · exact absurd hsolve hsingular
    · exact hray
  · intro f' hits' hmap hplanes hfour' hhits
    have hknown' : ∀ hit ∈ hits', (f'.geometry.plane? hit.plane).isSome = true := by
      intro hit' hhit'
      have hplane : hit'.plane ∈ hits.map (·.plane) :=
        (hhits hit'.plane).mp (List.mem_map_of_mem hhit')
      obtain ⟨hit, hhit, hsame⟩ := List.mem_map.mp hplane
      have hsome := hknown hit hhit
      rw [← Option.isSome_map, ← hplanes, hsame, Option.isSome_map] at hsome
      exact hsome
    have hsame : (∃ v, v ≠ 0 ∧ f'.Unseen hits' v) ↔ ∃ v, v ≠ 0 ∧ f.Unseen hits v :=
      exists_congr fun v => and_congr_right fun _ => unseen_congr hmap hplanes hhits v
    rcases hcases with ⟨hunseen, hsolve⟩ | ⟨hseen, r, hsolve⟩ <;>
      rcases solve_cases hfour' hknown' with ⟨hunseen', hsolve'⟩ | ⟨hseen', r', hsolve'⟩
    · simp [hsolve, hsolve']
    · exact absurd (hsame.mpr hunseen) hseen'
    · exact absurd (hsame.mp hunseen') hseen
    · simp [hsolve, hsolve']

/-- The fitter of the small detector. -/
def small : Fitter Rat := ⟨twoChambers, #v[4, 5, 2, 3]⟩

/-- Hits on planes that all measure the same coordinate. -/
def parallelHits : List (Hit Rat) := [⟨1, 1, 3⟩, ⟨4, 1, 1⟩, ⟨6, 1, -2⟩, ⟨9, 1, 5⟩]

/-- Hits on planes that measure the same coordinate leave a direction unseen, so no other hits on
these planes have a ray either. -/
theorem solve_parallelHits :
    small.solve parallelHits = .error .singular ∧
      (∃ v, v ≠ 0 ∧ small.Unseen parallelHits v) ∧
      small.solve [⟨9, 3, 0⟩, ⟨9, 4, 7⟩, ⟨6, 2, 1⟩, ⟨4, 1, 1⟩, ⟨1, 1, 2⟩] = .error .singular := by
  obtain ⟨hsingular, -, hsame⟩ := solve_eq_singular_iff small parallelHits (by decide)
    (by decide +kernel)
  have hsolve : small.solve parallelHits = .error .singular := by decide +kernel
  refine ⟨hsolve, hsingular.mp hsolve, ?_⟩
  exact (hsame small _ rfl (fun _ => rfl) (by decide) (by simp [parallelHits]; tauto)).1.mpr hsolve

end Exact

end Fitter

end DriftChamber
