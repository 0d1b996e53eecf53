/-
# Stored setups load back unchanged

A setup that passes its check is read back from its own text (`Setup.ofText?_toText`), whatever its
planes are called, in whatever order coefficients and ideal planes stand, and whatever its map and
its bound are.  Two things are asked of its numbers.  Its doubles are finite and are read back from
their own digits: `Numeral.toFloat?` rounds as it multiplies by powers of ten, so this is not so of
every double.  Its counts have 64 bits, as those of the machine do.

Each part is decoded from its own encoding, without regard to defaults: the encoding has every
field.
-/
import DriftChamber.Proofs.Json.Encoded
import DriftChamber.Proofs.Setup.Usable

namespace DriftChamber

open Json

/-! ## Sound values -/

namespace Json

/-- Doubles that are read back are sound and stand alone. -/
theorem Kept.isSound_and_depth {x : Float} (h : Kept x) :
    (float x).isSound = true ∧ (float x).depth = 0 := by
  rw [Kept] at h
  cases hx : float x with
  | number n =>
      rw [hx] at h
      exact ⟨by rw [isSound, show n.toFloat? = some x from h]; rfl, rfl⟩
  | _ =>
      rw [hx] at h
      cases h

/-- The same of a list of them. -/
theorem areSoundItems_and_depthOfItems (xs : List Float) (h : ∀ x ∈ xs, Kept x) :
    areSoundItems (xs.map float) = true ∧ depthOfItems (xs.map float) = 0 := by
  induction xs with
  | nil => exact ⟨rfl, rfl⟩
  | cons x xs ih =>
      obtain ⟨hx, hxs⟩ := List.forall_mem_cons.mp h
      obtain ⟨hsound, hdepth⟩ := hx.isSound_and_depth
      obtain ⟨hsounds, hdepths⟩ := ih hxs
      rw [List.map_cons, areSoundItems, depthOfItems, hsound, hdepth, hsounds, hdepths]
      exact ⟨rfl, rfl⟩

end Json

/-! ## The numbers of a setup -/

/-- The doubles that give the shape of a plane. -/
def PlaneShape.floats : PlaneShape → List Float
  | .coefficients values => values.toList
  | .ideal z alpha => [z, alpha]

/-- The doubles of a plane. -/
def PlaneDescription.floats (p : PlaneDescription) : List Float := p.sigma :: p.shape.floats

/-- The four tolerances. -/
def Criteria.floats (c : Criteria Float) : List Float := [c.xt, c.yt, c.xpt, c.ypt]

/-- All doubles of a setup. -/
def Setup.floats (s : Setup) : List Float :=
  s.tracking.criteria.floats ++ s.detector.planes.flatMap PlaneDescription.floats

/-! ## The parts of a setup -/

/-- What describes the shape of a plane is sound and nested no deeper than a list. -/
theorem PlaneShape.areSoundFields_and_depthOfFields {shape : PlaneShape}
    (h : ∀ x ∈ shape.floats, Kept x) :
    areSoundFields shape.fields = true ∧ depthOfFields shape.fields ≤ shapeDepth := by
  cases shape with
  | coefficients values =>
      obtain ⟨hsound, hdepth⟩ := areSoundItems_and_depthOfItems values.toList h
      rw [fields, areSoundFields, depthOfFields, list, isSound, depth, hsound, hdepth]
      exact ⟨rfl, by decide⟩
  | ideal z alpha =>
      obtain ⟨hz, hzdepth⟩ := (h z (by simp [floats])).isSound_and_depth
      obtain ⟨halpha, hadepth⟩ := (h alpha (by simp [floats])).isSound_and_depth
      simp only [fields, areSoundFields, depthOfFields, hz, hzdepth, halpha, hadepth]
      exact ⟨rfl, by decide⟩

/-- The form that a shape is written in is the one that it is read in. -/
theorem PlaneShape.ofFields?_fields {shape : PlaneShape} (h : ∀ x ∈ shape.floats, Kept x) :
    PlaneShape.ofFields? shape.fields = some shape := by
  obtain ⟨hsound, hdepth⟩ := areSoundFields_and_depthOfFields h
  rw [ofFields?, hsound, decide_eq_true hdepth]
  cases shape with
  | coefficients values =>
      have hvalues : vector? 9 float? (.list float values.toList) = some values := vector?_list h
      have hfield : fieldOnce (PlaneShape.coefficients values).fields "coefficients" =
          some (some (.list float values.toList)) := rfl
      simp [coefficients?, hfield, required, hvalues]
  | ideal z alpha =>
      -- Coefficients are looked for first, and there are none.
      have hz : float? (.float z) = some z := h z (by simp [floats])
      have halpha : float? (.float alpha) = some alpha := h alpha (by simp [floats])
      have hfield : fieldOnce (PlaneShape.ideal z alpha).fields "coefficients" = some none := rfl
      have hzfield : fieldOnce (PlaneShape.ideal z alpha).fields "z" =
          some (some (.float z)) := rfl
      have hafield : fieldOnce (PlaneShape.ideal z alpha).fields "alpha" =
          some (some (.float alpha)) := rfl
      simp [coefficients?, ideal?, hfield, hzfield, hafield, required, hz, halpha]

/-- What is left of a plane for its shape is what its shape was written as. -/
theorem PlaneDescription.fields_toJson (p : PlaneDescription) :
    ∃ fields, p.toJson = .object fields ∧
      fieldOnce fields "name" = some (some (.string p.name)) ∧
      fieldOnce fields "chamber" = some (some (.nat p.chamber)) ∧
      fieldOnce fields "sigma" = some (some (.float p.sigma)) ∧
      (fields.filter fun field => field.1 ∉ ["name", "chamber", "sigma"]) = p.shape.fields := by
  refine ⟨_, rfl, ?_⟩
  cases p.shape <;> exact ⟨rfl, rfl, rfl, rfl⟩

/-- A plane is read from its fields, and what these leave over gives its shape. -/
theorem PlaneDescription.ofJson?_toJson {p : PlaneDescription} (hchamber : p.chamber < UInt64.size)
    (h : ∀ x ∈ p.floats, Kept x) : PlaneDescription.ofJson? p.toJson = some p := by
  obtain ⟨hsigma, hshape⟩ := List.forall_mem_cons.mp h
  obtain ⟨fields, hfields, hname, hnumber, hspread, hothers⟩ := p.fields_toJson
  rw [hfields, ofJson?]
  simp only [hname, hnumber, hspread, hothers, required, Option.bind_eq_bind, Option.bind_some,
    string?, nat64?_nat hchamber, show float? (.float p.sigma) = some p.sigma from hsigma,
    PlaneShape.ofFields?_fields hshape, pure]

/-- The counts have 64 bits, and the planes are read one by one. -/
theorem Detector.ofJson?_toJson {d : Detector} (hnumber : d.numChambers < UInt64.size)
    (hchambers : ∀ p ∈ d.planes, p.chamber < UInt64.size)
    (h : ∀ p ∈ d.planes, ∀ x ∈ p.floats, Kept x) : Detector.ofJson? d.toJson = some d := by
  have hplanes : list? PlaneDescription.ofJson? (.list PlaneDescription.toJson d.planes) =
      some d.planes :=
    list?_list fun p hp => PlaneDescription.ofJson?_toJson (hchambers p hp) (h p hp)
  have hrecord : d.toJson.record ["num_chambers", "planes"] =
      some [some (.nat d.numChambers), some (.list PlaneDescription.toJson d.planes)] := rfl
  rw [ofJson?, hrecord]
  simp [required, nat64?_nat hnumber, hplanes]

theorem Criteria.ofJson?_toJson {c : Criteria Float} (h : ∀ x ∈ c.floats, Kept x) :
    Criteria.ofJson? c.toJson = some c := by
  simp only [floats, List.forall_mem_cons] at h
  obtain ⟨hxt, hyt, hxpt, hypt, -⟩ := h
  have hrecord : c.toJson.record ["xt", "yt", "xpt", "ypt"] =
      some [some (.float c.xt), some (.float c.yt), some (.float c.xpt), some (.float c.ypt)] := rfl
  rw [Kept] at hxt hyt hxpt hypt
  rw [ofJson?, hrecord]
  simp [required, hxt, hyt, hxpt, hypt]

/-- The bound and the indices have 64 bits; there are four indices, as there have to be. -/
theorem Tracking.ofJson?_toJson {t : Tracking Float} (hbound : t.maxTracks < UInt64.size)
    (hindices : ∀ i ∈ t.rayIndices.toList, i < UInt64.size)
    (h : ∀ x ∈ t.criteria.floats, Kept x) : Tracking.ofJson? t.toJson = some t := by
  have hmap : vector? 4 nat64? (.list Json.nat t.rayIndices.toList) = some t.rayIndices :=
    vector?_list fun i hi => nat64?_nat (hindices i hi)
  have hrecord : t.toJson.record ["criteria", "max_tracks", "single_stub", "ray_coeff_map"] =
      some [some t.criteria.toJson, some (.nat t.maxTracks), some (.bool t.singleStub),
        some (.list Json.nat t.rayIndices.toList)] := rfl
  rw [ofJson?, hrecord]
  simp [withDefault, Criteria.ofJson?_toJson h, nat64?_nat hbound, bool?, hmap]

/-! ## No part is broken -/

/-- No name is broken, since it was a string, and a double that is not finite is a null. -/
theorem PlaneDescription.whole_toJson (p : PlaneDescription) : Whole p.toJson := by
  refine .object ?_
  cases hshape : p.shape with
  | coefficients values =>
      simpa [PlaneShape.fields] using ⟨.string _, .number _, whole_float _,
        whole_list fun x _ => whole_float x⟩
  | ideal z alpha =>
      simpa [PlaneShape.fields] using ⟨.string _, .number _, whole_float _, whole_float _,
        whole_float _⟩

theorem Setup.whole_toJson (s : Setup) : Whole s.toJson := by
  have hdetector : Whole s.detector.toJson := .object (by
    simpa using ⟨.number _, whole_list fun p _ => p.whole_toJson⟩)
  have hcriteria : Whole s.tracking.criteria.toJson := .object (by
    simpa using ⟨whole_float _, whole_float _, whole_float _, whole_float _⟩)
  have htracking : Whole s.tracking.toJson := .object (by
    simpa using ⟨hcriteria, .number _, .bool _, whole_list fun i _ => .number _⟩)
  exact .object (by simpa using ⟨hdetector, htracking⟩)

/-! ## Whole setups -/

/-- Whatever its shape is given by, a plane stays in its chamber. -/
theorem PlaneDescription.chamber_toPlane (p : PlaneDescription) :
    p.toPlane.chamber = p.chamber := by
  rw [toPlane]
  cases p.shape <;> rfl

namespace Setup

variable {s : Setup}

/-- Both parts of a setup are read back, so no default takes their place. -/
theorem ofJson?_toJson (hnumber : s.detector.numChambers < UInt64.size)
    (hchambers : ∀ p ∈ s.detector.planes, p.chamber < UInt64.size)
    (hbound : s.tracking.maxTracks < UInt64.size)
    (hindices : ∀ i ∈ s.tracking.rayIndices.toList, i < UInt64.size)
    (h : ∀ x ∈ s.floats, Kept x) : Setup.ofJson? s.toJson = some s := by
  obtain ⟨hcriteria, hplanes⟩ := List.forall_mem_append.mp h
  have hdetector : Detector.ofJson? s.detector.toJson = some s.detector :=
    Detector.ofJson?_toJson hnumber hchambers fun p hp x hx =>
      hplanes x (List.mem_flatMap.mpr ⟨p, hp, hx⟩)
  have htracking : Tracking.ofJson? s.tracking.toJson = some s.tracking :=
    Tracking.ofJson?_toJson hbound hindices hcriteria
  have hrecord : s.toJson.record ["detector", "tracking"] =
      some [some s.detector.toJson, some s.tracking.toJson] := rfl
  rw [ofJson?, hrecord]
  simp [withDefault, hdetector, htracking]

/-- All planes of the usual setup are ideal. -/
example : Setup.ofJson? standard.toJson = some standard := by
  decide +kernel

/-- A count of chambers of 64 bits bounds the other counts of a usable setup: every plane is in one
of these chambers, and the ray parameters are sought among nine coefficients. -/
theorem Usable.counts_lt (h : s.Usable) (hnumber : s.detector.numChambers < UInt64.size) :
    (∀ p ∈ s.detector.planes, p.chamber < UInt64.size) ∧
      ∀ i ∈ s.tracking.rayIndices.toList, i < UInt64.size := by
  constructor
  · intro p hp
    have hchamber := (h.sound p hp).chamber_le
    rw [p.chamber_toPlane] at hchamber
    omega
  · intro i hi
    obtain ⟨k, hk, rfl⟩ := List.getElem_of_mem hi
    have hindex := h.rayIndices_lt ⟨k, by simpa using hk⟩
    exact lt_trans hindex (by decide)

/-- A setup that passes its check is read back from its own text: planes with any names, in any mix
of coefficients and ideal planes, any map and any bound.  Its doubles are finite and are read back
from their own digits; the two counts that the check does not bound have 64 bits. -/
theorem ofText?_toText (hcheck : s.check = .ok ())
    (hnumber : s.detector.numChambers < UInt64.size)
    (hbound : s.tracking.maxTracks < UInt64.size)
    (hfinite : ∀ x ∈ s.floats, x.isFinite = true)
    (hreads : ∀ x ∈ s.floats, (Numeral.ofFloat Layout.stored x).toFloat? = some x) :
    ofText? s.toText = .ok s := by
  obtain ⟨hchambers, hindices⟩ := (check_eq_ok_iff_usable.mp hcheck).counts_lt hnumber
  have hjson : Setup.ofJson? s.toJson = some s :=
    ofJson?_toJson hnumber hchambers hbound hindices fun x hx =>
      kept_of_toFloat? (hfinite x hx) (hreads x hx)
  have hparse : Json.parse s.toText = some s.toJson := parse_compactText s.whole_toJson
  simp only [ofText?, hparse, Option.bind_some, hjson, hcheck]

/-- A setup of three planes with odd names, doubles of every size, a map out of order and a bound
of 0. -/
def oddNames : Setup :=
  ⟨⟨7, [⟨"a \"quoted\" \\ name", 1, 0.5, .coefficients #v[0, 0, 3, 4, 0.5, 0.75, -0.0, 0.1, 1]⟩,
      ⟨"\n\t\u0001\u001f", 7, 1e-300, .coefficients #v[1e300, 5e-324, 3, 4, 0.02, 0, 0, 0, 1]⟩,
      ⟨"", 3, 2.5, .coefficients #v[0, 0, 0, 0, 0, 0, 0, 0, 0]⟩]⟩,
    ⟨⟨0.3, 1e16, 123456.789, 1⟩, 0, true, #v[8, 0, 0, 5]⟩⟩

/-- It is read back: it is usable, its counts are small, and its doubles are kept. -/
theorem ofText?_toText_oddNames : ofText? oddNames.toText = .ok oddNames := by
  refine ofText?_toText ?_ ?_ ?_ ?_ ?_
  · decide +kernel
  · decide +kernel
  · decide +kernel
  · decide +kernel
  · decide +kernel

end Setup

end DriftChamber
