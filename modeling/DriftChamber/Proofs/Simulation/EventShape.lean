/-
# The shape of a generated event

Whatever is drawn, an event lists its points chamber after chamber, and each point was found by its
chamber (`Generator.Shaped`).

Inside a chamber the rays keep their order.  Before there is noise, the list of a chamber holds what
the rays left there, ray after ray (`Generator.trails`), since each ray puts its point last.  Noise
points are put in between, and none is taken out (`Interspersed`).  So what the rays left is a
sublist of the points of the chamber, and all but the noise points belong to it.

With every chamber number and every place checked on the way, the event is the same
(`Generator.runs_generateChecked`).  All this is so where there is room for the event, and elsewhere
there is none (`Generator.generate?_outcome`).
-/
import DriftChamber.Proofs.Fitting.Coverage
import DriftChamber.Proofs.Linking.Order
import DriftChamber.Proofs.Simulation.Indexed

namespace DriftChamber

/-! ## Points of several chambers -/

/-- Points that are gathered from their chambers have the numbers of these. -/
theorem SpacePoint.chamber_of_mem_flatten {α : Type} {chambers : List (List (SpacePoint α))}
    {p : SpacePoint α} (h : p ∈ flatten chambers) :
    1 ≤ p.chamber ∧ p.chamber ≤ chambers.length := by
  obtain ⟨entry, hentry, hp⟩ := List.mem_flatMap.mp h
  obtain ⟨point, -, rfl⟩ := List.mem_map.mp hp
  obtain ⟨hlow, hhigh, -⟩ := List.mem_zipIdx hentry
  have hle : entry.2 ≤ chambers.length := by omega
  exact ⟨hlow, hle⟩

/-- Lists with so many more points at most, put in anywhere. -/
structure Interspersed (extra : Nat) (chambers noisy : List (List (SpacePoint Float))) : Prop where
  /-- The points that were there keep their order. -/
  sublist : chambers.flatten.Sublist noisy.flatten
  /-- There are not too many new ones. -/
  length_le : noisy.flatten.length ≤ chambers.flatten.length + extra

namespace Interspersed

variable {extra more : Nat} {chambers noisy noisier : List (List (SpacePoint Float))}

theorem refl (extra : Nat) (chambers : List (List (SpacePoint Float))) :
    Interspersed extra chambers chambers :=
  ⟨List.Sublist.refl _, Nat.le_add_right _ _⟩

theorem trans (h : Interspersed extra chambers noisy) (h' : Interspersed more noisy noisier) :
    Interspersed (more + extra) chambers noisier := by
  refine ⟨h.sublist.trans h'.sublist, ?_⟩
  have hfirst := h.length_le
  have hsecond := h'.length_le
  omega

/-- Lists that differ in the first one only, or not in the first one. -/
theorem cons {points points' : List (SpacePoint Float)}
    {rest rest' : List (List (SpacePoint Float))}
    (hpoints : points.Sublist points') (hrest : rest.flatten.Sublist rest'.flatten)
    (hlength : points'.length + rest'.flatten.length ≤
      points.length + rest.flatten.length + extra) :
    Interspersed extra (points :: rest) (points' :: rest') := by
  refine ⟨hpoints.append hrest, ?_⟩
  rw [List.flatten_cons, List.flatten_cons, List.length_append, List.length_append]
  exact hlength

/-- One point is put into one list. -/
theorem set_insertIdx (chambers : List (List (SpacePoint Float))) (i place : Nat)
    (point : SpacePoint Float) :
    Interspersed 1 chambers
      (chambers.set i ((chambers[i]?.getD []).insertIdx place point)) := by
  induction chambers generalizing i with
  | nil => exact refl 1 []
  | cons points rest ih =>
      cases i with
      | zero =>
          show Interspersed 1 (points :: rest) (points.insertIdx place point :: rest)
          have hone := List.length_insertIdx_le_succ (l := points) (x := point) (i := place)
          exact cons (List.sublist_insertIdx points place point) (List.Sublist.refl _) (by omega)
      | succ i =>
          show Interspersed 1 (points :: rest)
            (points :: rest.set i ((rest[i]?.getD []).insertIdx place point))
          have hrest := (ih i).length_le
          exact cons (List.Sublist.refl points) (ih i).sublist (by omega)

end Interspersed

namespace Generator

variable (g : Generator)

/-! ## What rays leave -/

/-- What a ray leaves in a chamber when its hits are drawn from a stream: one point at most. -/
def leaves (ray : Ray Float) (chamber : Nat) (s : Stream) : List (SpacePoint Float) :=
  (g.findPoint chamber (g.digitize ray chamber s).1).toList

/-- What rays leave in a chamber, ray after ray; to each ray belong the streams from which its hits
are drawn, chamber by chamber. -/
def trails (truth : List (Ray Float)) (streams : List (Nat → Stream)) (chamber : Nat) :
    List (SpacePoint Float) :=
  (truth.zip streams).flatMap fun (ray, stream) => g.leaves ray chamber (stream chamber)

theorem length_leaves_le (ray : Ray Float) (chamber : Nat) (s : Stream) :
    (g.leaves ray chamber s).length ≤ 1 := by
  rw [leaves]
  cases g.findPoint chamber (g.digitize ray chamber s).1 <;> simp

/-- Each ray leaves one point in a chamber at most. -/
theorem length_trails_le (truth : List (Ray Float)) (streams : List (Nat → Stream))
    (chamber : Nat) : (g.trails truth streams chamber).length ≤ truth.length := by
  induction truth generalizing streams with
  | nil => exact Nat.le_refl 0
  | cons ray rest ih =>
      cases streams with
      | nil => exact Nat.zero_le _
      | cons stream streams =>
          have hone := g.length_leaves_le ray chamber (stream chamber)
          have hrest := ih streams
          show (g.leaves ray chamber (stream chamber) ++ g.trails rest streams chamber).length ≤ _
          rw [List.length_append, List.length_cons]
          omega

theorem chamber_of_mem_trails {truth : List (Ray Float)} {streams : List (Nat → Stream)}
    {chamber : Nat} {p : SpacePoint Float} (h : p ∈ g.trails truth streams chamber) :
    p.chamber = chamber := by
  obtain ⟨⟨ray, stream⟩, -, hp⟩ := List.mem_flatMap.mp h
  simp only [leaves, Option.mem_toList, findPoint] at hp
  split at hp
  · cases hp
    rfl
  · cases hp

/-- A ray that crosses chambers puts what it leaves last. -/
theorem always_crossChambers_leaves (ray : Ray Float) (content : Nat → List (SpacePoint Float))
    (first count : Nat) :
    (g.crossChambers ray ((List.range' first count).map fun chamber =>
      (content chamber, chamber))).Always fun crossed => ∃ stream : Nat → Stream,
        crossed = (List.range' first count).map fun chamber =>
          content chamber ++ g.leaves ray chamber (stream chamber) := by
  induction count generalizing first with
  | zero => exact fun s => ⟨fun _ => s, rfl⟩
  | succ count ih =>
      rw [List.range'_succ, List.map_cons, crossChambers]
      refine Draw.always_bind (d := g.digitize ray first)
        (P := fun hits => ∃ s, hits = (g.digitize ray first s).1) (fun s => ⟨s, rfl⟩) ?_
      rintro _ ⟨s, rfl⟩
      refine Draw.always_bind (ih (first + 1)) ?_
      rintro _ ⟨stream, rfl⟩
      refine Draw.always_pure ⟨fun chamber => if chamber = first then s else stream chamber, ?_⟩
      have hothers : ∀ chamber ∈ List.range' (first + 1) count,
          (if chamber = first then s else stream chamber) = stream chamber := by
        intro chamber hchamber
        have hlater := (List.mem_range'_1.mp hchamber).1
        exact if_neg (by omega)
      simp only [List.map_cons, if_true]
      refine congrArg _ (List.map_congr_left fun chamber hchamber => ?_)
      rw [hothers chamber hchamber]

/-- Rays that cross all chambers, one after the other, put what they leave in their order. -/
theorem always_addRays_trails (count : Nat) (content : Nat → List (SpacePoint Float)) :
    (g.addRays count ((List.range' 1 g.fitter.geometry.numChambers).map content)).Always
      fun added => ∃ streams : List (Nat → Stream), streams.length = count ∧
        added.2 = (List.range' 1 g.fitter.geometry.numChambers).map fun chamber =>
          content chamber ++ g.trails added.1 streams chamber := by
  induction count generalizing content with
  | zero => exact Draw.always_pure ⟨[], rfl, by simp [trails]⟩
  | succ count ih =>
      have hnumbered : ((List.range' 1 g.fitter.geometry.numChambers).map content).zipIdx 1 =
          (List.range' 1 g.fitter.geometry.numChambers).map fun chamber =>
            (content chamber, chamber) := by
        rw [List.zipIdx_eq_zip_range', List.length_map, List.length_range',
          List.map_prod_right_eq_zip]
      rw [addRays]
      refine Draw.always_bind' fun ray => ?_
      rw [hnumbered]
      refine Draw.always_bind (g.always_crossChambers_leaves ray content 1 _) ?_
      rintro _ ⟨stream, rfl⟩
      refine Draw.always_bind (ih _) ?_
      rintro ⟨rest, chambers⟩ ⟨streams, hlength, hchambers⟩
      refine Draw.always_pure ⟨stream :: streams, congrArg (· + 1) hlength, hchambers.trans ?_⟩
      refine List.map_congr_left fun chamber _ => ?_
      rw [List.append_assoc]
      rfl

/-! ## What noise adds -/

/-- Noise takes no point out, and adds so many at most. -/
theorem always_addNoise_interspersed (count : Nat) (chambers : List (List (SpacePoint Float))) :
    (g.addNoise count chambers).Always (Interspersed count chambers) := by
  induction count generalizing chambers with
  | zero => exact Draw.always_pure (.refl 0 chambers)
  | succ count ih =>
      rw [addNoise]
      refine Draw.always_bind' fun ray => Draw.always_bind' fun chamber =>
        Draw.always_bind' fun hits => ?_
      cases g.findPoint chamber hits with
      | none => exact (ih chambers).imp fun noisy h => (Interspersed.refl 1 chambers).trans h
      | some point =>
          refine Draw.always_bind' fun place => (ih _).imp fun noisy h => ?_
          exact (Interspersed.set_insertIdx chambers (chamber - 1) place point).trans h

/-! ## Whole events -/

variable {g}

/-- Where points stand in the lists of their chambers, gathering them changes none. -/
theorem Stocked.flatten_eq {chambers : List (List (SpacePoint Float))} (h : g.Stocked 1 chambers) :
    SpacePoint.flatten chambers = chambers.flatten := by
  have hstamped : ∀ entry ∈ chambers.zipIdx 1,
      entry.1.map (fun point => ({ point with chamber := entry.2 } : SpacePoint Float)) =
        entry.1 := by
    intro entry hentry
    refine (List.map_congr_left fun point hpoint => ?_).trans (List.map_id _)
    rw [← (h entry hentry point hpoint).1]
    rfl
  calc SpacePoint.flatten chambers = (chambers.zipIdx 1).flatMap (·.1) :=
        List.flatMap_congr hstamped
    _ = chambers.flatten := by rw [List.flatMap_def, List.zipIdx_map_fst]

variable (g)

/-- The shape of an event of so many rays. -/
structure Shaped (rays : Nat) (e : GeneratedEvent) : Prop where
  /-- All rays are in the truth. -/
  length_truth : e.truth.length = rays
  /-- The points are in chambers of the detector. -/
  chamber_mem : ∀ p ∈ e.points, 1 ≤ p.chamber ∧ p.chamber ≤ g.fitter.geometry.numChambers
  /-- They come chamber after chamber. -/
  chamberMajor : ChamberMajor e.points
  /-- There is one of each ray in each chamber at most, besides noise. -/
  length_points_le : e.points.length ≤
    rays * g.fitter.geometry.numChambers + g.conditions.noisePoints
  /-- The hits of a point lie on planes of its chamber. -/
  chamberOf?_eq : ∀ p ∈ e.points, ∀ hit ∈ p.hits,
    g.fitter.geometry.chamberOf? hit.plane = some p.chamber
  /-- They come in increasing order of their planes. -/
  pairwise_planes : ∀ p ∈ e.points, (p.hits.map (·.plane)).Pairwise (· < ·)
  /-- There are four at least. -/
  four_le_length : ∀ p ∈ e.points, 4 ≤ p.hits.length
  /-- Their ray is the stub of the point. -/
  solve_eq : ∀ p ∈ e.points, g.fitter.solve p.hits = .ok p.stub

/-- How the points that rays left stand in an event: in each chamber they are a part of the points,
in the order of their rays, and all others are noise. -/
structure KeepsRays (streams : List (Nat → Stream)) (e : GeneratedEvent) : Prop where
  /-- What the rays left in a chamber is found there in its order. -/
  sublist : ∀ chamber ∈ List.range' 1 g.fitter.geometry.numChambers,
    (g.trails e.truth streams chamber).Sublist (e.points.filter (·.chamber == chamber))
  /-- The others are not more than the noise points. -/
  length_le : e.points.length ≤
    ((List.range' 1 g.fitter.geometry.numChambers).flatMap (g.trails e.truth streams)).length +
      g.conditions.noisePoints

variable {g}

/-- Rays leave no more points than there are pairs of a ray and a chamber. -/
theorem length_flatMap_trails_le (truth : List (Ray Float)) (streams : List (Nat → Stream)) :
    ((List.range' 1 g.fitter.geometry.numChambers).flatMap (g.trails truth streams)).length ≤
      truth.length * g.fitter.geometry.numChambers := by
  rw [List.length_flatMap]
  refine (List.sum_le_card_nsmul _ truth.length ?_).trans ?_
  · intro length hlength
    obtain ⟨chamber, -, rfl⟩ := List.mem_map.mp hlength
    exact g.length_trails_le truth streams chamber
  · rw [List.length_map, List.length_range', smul_eq_mul, Nat.mul_comm]

section Steps

variable {truth : List (Ray Float)} {streams : List (Nat → Stream)}
  {noisy : List (List (SpacePoint Float))}
  (hclean : Interspersed g.conditions.noisePoints
    ((List.range' 1 g.fitter.geometry.numChambers).map (g.trails truth streams)) noisy)
  (hstocked : g.Stocked 1 noisy)
include hclean hstocked

/-- Points of rays keep their order as noise is put in. -/
theorem keepsRays_of_interspersed :
    g.KeepsRays streams ⟨truth, SpacePoint.flatten noisy⟩ := by
  have hsublist := hclean.sublist
  have hlength := hclean.length_le
  rw [← List.flatMap_def] at hsublist hlength
  rw [← hstocked.flatten_eq] at hsublist hlength
  refine ⟨fun chamber hchamber => ?_, hlength⟩
  have hown : (g.trails truth streams chamber).filter (·.chamber == chamber) =
      g.trails truth streams chamber :=
    List.filter_eq_self.mpr fun p hp => beq_iff_eq.mpr (g.chamber_of_mem_trails hp)
  have hpart : (g.trails truth streams chamber).Sublist
      ((List.range' 1 g.fitter.geometry.numChambers).flatMap (g.trails truth streams)) := by
    rw [List.flatMap_def]
    exact List.sublist_flatten_of_mem (List.mem_map_of_mem hchamber)
  rw [← hown]
  exact (hpart.trans hsublist).filter _

theorem shaped_of_interspersed (hlength : noisy.length = g.fitter.geometry.numChambers) :
    g.Shaped truth.length ⟨truth, SpacePoint.flatten noisy⟩ := by
  have hfound := forall_mem_flatten hstocked
  refine ⟨rfl, ?_, chamberMajor_flatten noisy, ?_,
    fun p hp hit hhit => (hfound p hp).chamberOf?_eq hhit,
    fun p hp => (hfound p hp).pairwise_planes, fun p hp => (hfound p hp).four_le_length,
    fun p hp => (hfound p hp).solve_eq⟩
  · intro p hp
    rw [← hlength]
    exact SpacePoint.chamber_of_mem_flatten hp
  · have hrays := g.length_flatMap_trails_le truth streams
    have hall := (keepsRays_of_interspersed hclean hstocked).length_le
    exact hall.trans (Nat.add_le_add_right hrays _)

end Steps

variable (g)

/-- The rays of an event, with what they leave before noise is put in. -/
theorem exists_addRays_eq (rays : Nat) (s : Stream) :
    ∃ truth streams rest, truth.length = rays ∧ streams.length = rays ∧
      g.addRays rays (List.replicate g.fitter.geometry.numChambers []) s =
        ((truth, (List.range' 1 g.fitter.geometry.numChambers).map (g.trails truth streams)),
          rest) ∧
      g.Stocked 1 ((List.range' 1 g.fitter.geometry.numChambers).map (g.trails truth streams)) := by
  have hempty : List.replicate g.fitter.geometry.numChambers ([] : List (SpacePoint Float)) =
      (List.range' 1 g.fitter.geometry.numChambers).map fun _ => [] := by
    rw [List.map_const', List.length_range']
  obtain ⟨htruth, -, hstocked⟩ := g.always_addRays rays (stocked_replicate 1 _) s
  obtain ⟨streams, hstreams, hclean⟩ := g.always_addRays_trails rays (fun _ => []) s
  rw [← hempty] at hclean
  refine ⟨_, streams, _, htruth, hstreams, Prod.ext (Prod.ext rfl hclean) rfl, ?_⟩
  rwa [hclean] at hstocked

/-- An event is what its rays leave, with noise put in. -/
theorem generate_eq {rays : Nat} {s rest : Stream} {truth : List (Ray Float)}
    {clean : List (List (SpacePoint Float))}
    (h : g.addRays rays (List.replicate g.fitter.geometry.numChambers []) s =
      ((truth, clean), rest)) :
    (g.generate rays s).1 =
      ⟨truth, SpacePoint.flatten (g.addNoise g.conditions.noisePoints clean rest).1⟩ := by
  have hsteps : (g.generate rays s).1 =
      (fun added : (List (Ray Float) × List (List (SpacePoint Float))) × Stream =>
        (⟨added.1.1, SpacePoint.flatten (g.addNoise g.conditions.noisePoints added.1.2 added.2).1⟩ :
          GeneratedEvent))
        (g.addRays rays (List.replicate g.fitter.geometry.numChambers []) s) := rfl
  rw [hsteps, h]

/-- Whatever is drawn, an event has its shape.  Before noise is put in, the rays have left their
points in each chamber, ray after ray; with the noise these points keep their order. -/
theorem generate_shaped (rays : Nat) (s : Stream) :
    g.Shaped rays (g.generate rays s).1 ∧
      ∃ streams : List (Nat → Stream), streams.length = rays ∧
        (g.addRays rays (List.replicate g.fitter.geometry.numChambers []) s).1 =
          ((g.generate rays s).1.truth, (List.range' 1 g.fitter.geometry.numChambers).map
            (g.trails (g.generate rays s).1.truth streams)) ∧
        g.KeepsRays streams (g.generate rays s).1 := by
  obtain ⟨truth, streams, rest, rfl, hstreams, hadded, hclean⟩ := g.exists_addRays_eq rays s
  obtain ⟨hcount, hnoisy⟩ := g.always_addNoise g.conditions.noisePoints hclean rest
  have hinter := g.always_addNoise_interspersed g.conditions.noisePoints
    ((List.range' 1 g.fitter.geometry.numChambers).map (g.trails truth streams)) rest
  rw [List.length_map, List.length_range'] at hcount
  refine ⟨?_, streams, hstreams, ?_, ?_⟩
  · rw [g.generate_eq hadded]
    exact shaped_of_interspersed hinter hnoisy hcount
  · rw [hadded, g.generate_eq hadded]
  · rw [g.generate_eq hadded]
    exact keepsRays_of_interspersed hinter hnoisy

/-- An event that is asked for, whatever is drawn.  With room for its chambers and its rays it is
there and has its shape.  Before noise is put in, the rays have left their points in each chamber,
ray after ray; with the noise these points keep their order.  With all chamber numbers and places
checked, the event is the same, so none is ever out of range.  Without room there is no event. -/
theorem generate?_outcome (rays : Nat) (s : Stream) :
    (g.HasRoom rays → ∃ e rest, (g.generate? rays).run s = (some e, rest) ∧
        (g.generateChecked rays).run s = (some e, rest) ∧ g.Shaped rays e ∧
        ∃ streams : List (Nat → Stream), streams.length = rays ∧
          (g.addRays rays (List.replicate g.fitter.geometry.numChambers []) s).1 =
            (e.truth, (List.range' 1 g.fitter.geometry.numChambers).map
              (g.trails e.truth streams)) ∧
          g.KeepsRays streams e) ∧
      (¬g.HasRoom rays → (g.generate? rays).run s = (none, s)) := by
  constructor
  · intro hroom
    exact ⟨_, _, generate?_of_hasRoom hroom s, g.runs_generateChecked rays s,
      g.generate_shaped rays s⟩
  · intro hfull
    exact generate?_of_not_hasRoom hfull s

/-- Four planes in the first of so many chambers, with one noise point. -/
def fourPlanesOf (chambers : Nat) (h : 1 ≤ chambers) : Generator where
  fitter :=
    { Fitter.four with
      geometry :=
        { fourPlanes with
          numChambers := chambers
          sound := fun p hp =>
            { fourPlanes.sound p hp with
              chamber_le := (fourPlanes.sound p hp).chamber_le.trans h } } }
  conditions := { Conditions.standard with noisePoints := 1 }

/-- Two rays have room in three chambers, and the event has seven points at most.  In as many
chambers as 64 bits count there is none. -/
theorem generate?_outcome_fourPlanesOf :
    (∃ e rest, ((fourPlanesOf 3 (by decide)).generate? 2).run (Stream.ofSeed 42) = (some e, rest) ∧
        e.truth.length = 2 ∧ e.points.length ≤ 7) ∧
      ((fourPlanesOf (2 ^ 64 - 1) (by decide)).generate? 2).run (Stream.ofSeed 42) =
        (none, Stream.ofSeed 42) := by
  constructor
  · obtain ⟨e, rest, hevent, -, hshaped, -⟩ :=
      ((fourPlanesOf 3 (by decide)).generate?_outcome 2 (Stream.ofSeed 42)).1 (by decide)
    exact ⟨e, rest, hevent, hshaped.length_truth, hshaped.length_points_le⟩
  · exact ((fourPlanesOf (2 ^ 64 - 1) (by decide)).generate?_outcome 2 (Stream.ofSeed 42)).2
      (by decide)

/-- In as many chambers as 64 bits count, no event of one ray has one ray in its truth: there is no
event. -/
theorem not_exists_generate?_boundless :
    ¬∃ e rest, ((fourPlanesOf (2 ^ 64 - 1) (by decide)).generate? 1).run (Stream.ofSeed 42) =
      (some e, rest) ∧ e.truth.length = 1 := by
  rintro ⟨e, rest, hevent, -⟩
  have hfull : ¬(fourPlanesOf (2 ^ 64 - 1) (by decide)).HasRoom 1 := by decide
  rw [generate?_of_not_hasRoom hfull] at hevent
  cases hevent

end Generator

end DriftChamber
