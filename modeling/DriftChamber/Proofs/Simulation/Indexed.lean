/-
# Events by checked addresses

Generating an event addresses the list of a chamber by the number of the chamber, draws a chamber
for each noise point, and puts the point at a drawn place.  Here the steps are taken with all of it
checked (`Generator.generateChecked`): where a chamber number is none of the detector's, where there
is nothing to draw from, or where a place lies past the end of its list, there is no event.

The checked steps never end this way.  Whatever is drawn, they give the event that the generator
gives, and leave the same stream (`Generator.runs_generateChecked`).  The rules of `Draw.Runs` go
along the steps of a draw, and what is known of a drawn value (`Draw.Always`) passes its check.
-/
import DriftChamber.Proofs.Simulation.Generated

namespace DriftChamber

/-! ## Draws with checks -/

namespace Draw

variable {β γ : Type}

/-- Something that is there, or the end of the draw. -/
def ofOption (value? : Option β) : OptionT Draw β := OptionT.mk (pure value?)

/-- Draws from a range that must not be empty. -/
def betweenChecked (low high : Nat) : OptionT Draw Nat :=
  if low ≤ high then OptionT.lift (between low high) else failure

/-- A draw with checks passes them all, and draws what the draw without checks does. -/
def Runs (checked : OptionT Draw β) (d : Draw β) : Prop :=
  ∀ s : Stream, checked.run s = (some (d s).1, (d s).2)

theorem runs_pure (b : β) : Runs (pure b) (pure b) := fun _ => rfl

theorem runs_lift (d : Draw β) : Runs (OptionT.lift d) d := fun _ => rfl

/-- Where there is something to draw from, the draw is the same. -/
theorem runs_betweenChecked {low high : Nat} (h : low ≤ high) :
    Runs (betweenChecked low high) (between low high) := by
  rw [betweenChecked, if_pos h]
  exact runs_lift _

/-- What follows a draw may rely on what is known of the value drawn. -/
theorem runs_bind {checked : OptionT Draw β} {d : Draw β} {next' : β → OptionT Draw γ}
    {next : β → Draw γ} {P : β → Prop} (h : Runs checked d) (hd : d.Always P)
    (hnext : ∀ b, P b → Runs (next' b) (next b)) : Runs (checked >>= next') (d >>= next) := by
  intro s
  have hrun : (checked >>= next').run s =
      ((checked.run s).1.elim (pure none) fun b => (next' b).run) (checked.run s).2 := by
    rw [OptionT.run_bind]
    rfl
  rw [hrun, h s]
  exact hnext (d s).1 (hd s) (d s).2

/-- The same where nothing has to be known of the value. -/
theorem runs_bind' {checked : OptionT Draw β} {d : Draw β} {next' : β → OptionT Draw γ}
    {next : β → Draw γ} (h : Runs checked d) (hnext : ∀ b, Runs (next' b) (next b)) :
    Runs (checked >>= next') (d >>= next) :=
  runs_bind (P := fun _ => True) h (fun _ => trivial) fun b _ => hnext b

/-- A check that is passed leaves no trace. -/
theorem runs_ofOption_bind {value? : Option β} {b : β} {next' : β → OptionT Draw γ} {d : Draw γ}
    (hvalue : value? = some b) (hnext : Runs (next' b) d) : Runs (ofOption value? >>= next') d := by
  subst hvalue
  exact hnext

end Draw

/-! ## The steps with checks -/

namespace Generator

/-- Puts a point at a place of a list, which must not lie past its end. -/
def insertAt? (points : List (SpacePoint Float)) (place : Nat) (point : SpacePoint Float) :
    Option (List (SpacePoint Float)) :=
  if place ≤ points.length then some (points.insertIdx place point) else none

variable (g : Generator)

/-- Lets a ray cross the chambers of the given numbers; each point found is put last in the list of
its chamber. -/
def crossChecked (ray : Ray Float) :
    List Nat → List (List (SpacePoint Float)) → OptionT Draw (List (List (SpacePoint Float)))
  | [], chambers => return chambers
  | chamber :: rest, chambers => do
      let hits ← g.digitize ray chamber
      match g.findPoint chamber hits with
      | none => crossChecked ray rest chambers
      | some point =>
          let points ← Draw.ofOption (valueOn? chambers chamber)
          crossChecked ray rest (setOn chambers chamber (points ++ [point]))

/-- Draws so many rays and lets them cross all chambers. -/
def addRaysChecked : Nat → List (List (SpacePoint Float)) →
    OptionT Draw (List (Ray Float) × List (List (SpacePoint Float)))
  | 0, chambers => return ([], chambers)
  | count + 1, chambers => do
      let ray ← g.spawn
      let chambers ← g.crossChecked ray (List.range' 1 g.fitter.geometry.numChambers) chambers
      let (rays, chambers) ← addRaysChecked count chambers
      return (ray :: rays, chambers)

/-- Draws so many noise rays, and puts the point of each into the list of its chamber. -/
def addNoiseChecked : Nat → List (List (SpacePoint Float)) →
    OptionT Draw (List (List (SpacePoint Float)))
  | 0, chambers => return chambers
  | count + 1, chambers => do
      let ray ← g.spawn
      let chamber ← Draw.betweenChecked 1 g.fitter.geometry.numChambers
      let hits ← g.digitize ray chamber
      match g.findPoint chamber hits with
      | none => addNoiseChecked count chambers
      | some point =>
          let points ← Draw.ofOption (valueOn? chambers chamber)
          let place ← Draw.between 0 points.length
          let points ← Draw.ofOption (insertAt? points place point)
          addNoiseChecked count (setOn chambers chamber points)

/-- Draws an event of so many rays, with every address checked. -/
def generateChecked (rays : Nat) : OptionT Draw GeneratedEvent := do
  let (truth, chambers) ←
    g.addRaysChecked rays (List.replicate g.fitter.geometry.numChambers [])
  let chambers ← g.addNoiseChecked g.conditions.noisePoints chambers
  return ⟨truth, SpacePoint.flatten chambers⟩

/-! ## All checks are passed -/

/-- The lists of the chambers that a ray has crossed stay as they are while it crosses the others.
-/
theorem runs_crossChecked (ray : Ray Float) {first : Nat} {crossed : List (List (SpacePoint Float))}
    (ahead : List (List (SpacePoint Float))) (hfirst : crossed.length + 1 = first) :
    Draw.Runs (g.crossChecked ray (List.range' first ahead.length) (crossed ++ ahead))
      ((crossed ++ ·) <$> g.crossChambers ray (ahead.zipIdx first)) := by
  induction ahead generalizing crossed first with
  | nil => exact Draw.runs_pure _
  | cons points rest ih =>
      rw [List.length_cons, List.range'_succ, List.zipIdx_cons, crossChecked, crossChambers,
        map_bind]
      refine Draw.runs_bind' (Draw.runs_lift _) fun hits => ?_
      -- the list of this chamber joins those that were crossed
      have hjoin : ∀ list : List (SpacePoint Float),
          ((crossed ++ ·) <$> do
            let others ← g.crossChambers ray (rest.zipIdx (first + 1))
            pure (list :: others)) =
          (crossed ++ [list] ++ ·) <$> g.crossChambers ray (rest.zipIdx (first + 1)) := by
        intro list
        simp only [bind_pure_comp, Functor.map_map, List.append_assoc, List.singleton_append]
      have hnumber : ∀ list : List (SpacePoint Float),
          (crossed ++ [list]).length + 1 = first + 1 := by
        intro list
        rw [List.length_append, List.length_singleton, hfirst]
      rw [hjoin]
      cases g.findPoint first hits with
      | none =>
          rw [Option.toList_none, List.append_nil, List.append_cons crossed points rest]
          exact ih (hnumber points)
      | some point =>
          have hlist : valueOn? (crossed ++ points :: rest) first = some points := by
            rw [← hfirst, valueOn?, List.getElem?_append_right (Nat.le_refl _), Nat.sub_self]
            rfl
          have hset : setOn (crossed ++ points :: rest) first (points ++ [point]) =
              crossed ++ [points ++ [point]] ++ rest := by
            rw [← hfirst, setOn, List.set_append_right _ _ (Nat.le_refl _), Nat.sub_self,
              List.set_cons_zero, List.append_cons]
          refine Draw.runs_ofOption_bind hlist ?_
          rw [hset]
          exact ih (hnumber _)

/-- Rays cross as many lists as there are chambers, and leave as many. -/
theorem runs_addRaysChecked (count : Nat) {chambers : List (List (SpacePoint Float))}
    (hlength : chambers.length = g.fitter.geometry.numChambers) (h : g.Stocked 1 chambers) :
    Draw.Runs (g.addRaysChecked count chambers) (g.addRays count chambers) := by
  induction count generalizing chambers with
  | zero => exact Draw.runs_pure _
  | succ count ih =>
      rw [addRaysChecked, addRays]
      refine Draw.runs_bind' (Draw.runs_lift _) fun ray => ?_
      have hnone : ([] : List (List (SpacePoint Float))).length + 1 = 1 := rfl
      have hcross := g.runs_crossChecked ray chambers hnone
      simp only [List.nil_append, id_map', hlength] at hcross
      refine Draw.runs_bind hcross (g.always_crossChambers ray h) fun crossed hcrossed => ?_
      refine Draw.runs_bind' (ih (hcrossed.1.trans hlength) hcrossed.2) fun added => ?_
      exact Draw.runs_pure _

/-- A noise point meets the three checks: its chamber is one of the detector, there is a list to it,
and the place drawn does not lie past the end of that list. -/
theorem runs_addNoiseChecked (count : Nat) {chambers : List (List (SpacePoint Float))}
    (hlength : chambers.length = g.fitter.geometry.numChambers) :
    Draw.Runs (g.addNoiseChecked count chambers) (g.addNoise count chambers) := by
  induction count generalizing chambers with
  | zero => exact Draw.runs_pure _
  | succ count ih =>
      rw [addNoiseChecked, addNoise]
      refine Draw.runs_bind' (Draw.runs_lift _) fun ray => ?_
      refine Draw.runs_bind (Draw.runs_betweenChecked g.fitter.geometry.numChambers_pos)
        (Draw.always_between g.fitter.geometry.numChambers_pos) fun chamber hchamber => ?_
      refine Draw.runs_bind' (Draw.runs_lift _) fun hits => ?_
      cases g.findPoint chamber hits with
      | none => exact ih hlength
      | some point =>
          obtain ⟨index, rfl⟩ := Nat.exists_eq_add_of_le' hchamber.1
          obtain ⟨points, hpoints⟩ : ∃ points, chambers[index]? = some points :=
            ⟨_, List.getElem?_eq_getElem (by omega)⟩
          refine Draw.runs_ofOption_bind (b := points) hpoints ?_
          simp only [Nat.add_sub_cancel, hpoints, Option.getD_some]
          refine Draw.runs_bind (Draw.runs_lift _) (Draw.always_between (Nat.zero_le _))
            fun place hplace => ?_
          refine Draw.runs_ofOption_bind (if_pos hplace.2) ?_
          exact ih (List.length_set.trans hlength)

/-- Every address is in range: with all of them checked, the event is the same. -/
theorem runs_generateChecked (rays : Nat) :
    Draw.Runs (g.generateChecked rays) (g.generate rays) := by
  have hlength : (List.replicate g.fitter.geometry.numChambers
      ([] : List (SpacePoint Float))).length = g.fitter.geometry.numChambers :=
    List.length_replicate
  rw [generateChecked, generate]
  refine Draw.runs_bind (g.runs_addRaysChecked rays hlength (stocked_replicate 1 _))
    (g.always_addRays rays (stocked_replicate 1 _)) fun added hadded => ?_
  refine Draw.runs_bind' (g.runs_addNoiseChecked _ (hadded.2.1.trans hlength)) fun noisy => ?_
  exact Draw.runs_pure _

end Generator

end DriftChamber
