/-
# Stored tracks load back or are refused

A track whose doubles are all finite is read back from its own text, whatever its members, its hits,
the lengths of its lists and its status are.  As with setups, its doubles have to be read back from
their own digits, and its counts have 64 bits as those of the machine do.

If some double is not finite, the text has null in its place, and no track is read from it
(`Track.isFinite_of_isSome_ofJson?`).  So a track never changes on its way through a text.
-/
import DriftChamber.Proofs.Json.Encoded
import DriftChamber.Track.Stored

namespace DriftChamber

open Json

/-! ## The numbers of a track -/

/-- The plane number that a status comes with. -/
def FitStatus.counts : FitStatus → List Nat
  | .unknownPlane plane => [plane]
  | _ => []

namespace Track

/-- The counts of a track that have the width of the machine: members and plane numbers. -/
def counts (t : Track Float) : List Nat :=
  t.spacePoints ++ t.hits.map (·.plane) ++ t.status.counts

/-- All doubles of a track. -/
def floats (t : Track Float) : List Float :=
  t.hits.map (·.coord) ++ t.vector.toList ++ t.coords ++ t.residuals ++ t.doubleResiduals ++
    [t.chiSquare]

end Track

/-! ## The parts of a track -/

/-- Every status is read back, in the form that it has. -/
theorem FitStatus.ofJson?_toJson {s : FitStatus} (h : ∀ n ∈ s.counts, n < UInt64.size) :
    FitStatus.ofJson? s.toJson = some s := by
  cases s with
  | unknownPlane plane =>
      have hplane : nat64? (.nat plane) = some plane := nat64?_nat (h plane (by simp [counts]))
      simp [toJson, ofJson?, name, hplane]
  | _ => rfl

/-- The fields of a hit, in the order in which they are read. -/
theorem Hit.record_toJson (hit : Hit Float) :
    hit.toJson.record ["plane", "wire", "coord"] =
      some [some (.nat hit.plane), some (.nat hit.wire.toNat), some (.float hit.coord)] := rfl

theorem Hit.ofJson?_toJson {hit : Hit Float} (hplane : hit.plane < UInt64.size)
    (h : Kept hit.coord) : Hit.ofJson? hit.toJson = some hit := by
  rw [Kept] at h
  rw [ofJson?, record_toJson]
  simp [required, nat64?_nat hplane, uint32?_nat, h]

theorem FitStatus.whole_toJson (s : FitStatus) : Whole s.toJson := by
  cases s with
  | unknownPlane plane => exact .object (by simpa using .number _)
  | _ => exact .string _

theorem Hit.whole_toJson (hit : Hit Float) : Whole hit.toJson :=
  .object (by simpa using ⟨.number _, .number _, whole_float _⟩)

/-- A hit that can be read has a finite coordinate. -/
theorem Hit.isFinite_of_isSome_ofJson? {hit : Hit Float}
    (h : (Hit.ofJson? hit.toJson).isSome = true) : hit.coord.isFinite = true := by
  obtain ⟨loaded, hloaded⟩ := Option.isSome_iff_exists.mp h
  rw [ofJson?, record_toJson] at hloaded
  simp only [required, Option.bind_eq_bind, Option.bind_eq_some_iff, Option.some_inj,
    exists_eq_left'] at hloaded
  obtain ⟨-, -, -, -, coord, hcoord, -⟩ := hloaded
  exact isFinite_of_isSome_float? (Option.isSome_of_eq_some hcoord)

/-! ## Whole tracks -/

namespace Track

variable {t : Track Float}

/-- The fields of a track, in the order in which they are read. -/
theorem record_toJson (t : Track Float) :
    t.toJson.record ["space_points", "hits", "vector", "coords", "residuals", "double_residuals",
      "nfree", "chi2", "status"] =
      some [some (.list Json.nat t.spacePoints), some (.list Hit.toJson t.hits),
        some (.list Json.float t.vector.toList), some (.list Json.float t.coords),
        some (.list Json.float t.residuals), some (.list Json.float t.doubleResiduals),
        some (.int t.nfree.toInt), some (.float t.chiSquare), some t.status.toJson] := rfl

theorem ofJson?_toJson (hcounts : ∀ n ∈ t.counts, n < UInt64.size)
    (h : ∀ x ∈ t.floats, Kept x) : Track.ofJson? t.toJson = some t := by
  simp only [counts, List.forall_mem_append, List.forall_mem_map] at hcounts
  simp only [floats, List.forall_mem_append, List.forall_mem_map, List.forall_mem_singleton] at h
  obtain ⟨⟨hmembers, hplanes⟩, hstatus⟩ := hcounts
  obtain ⟨⟨⟨⟨⟨hhits, hvector⟩, hcoords⟩, hresiduals⟩, hdouble⟩, hchi⟩ := h
  have hkept : ∀ {xs : List Float}, (∀ x ∈ xs, Kept x) →
      list? float? (.list Json.float xs) = some xs := list?_list
  rw [ofJson?, record_toJson]
  simp only [required, Option.bind_eq_bind, Option.bind_some, Option.pure_def,
    list?_list fun n hn => nat64?_nat (hmembers n hn),
    list?_list fun hit hhit => Hit.ofJson?_toJson (hplanes hit hhit) (hhits hit hhit),
    vector?_list hvector, hkept hcoords, hkept hresiduals, hkept hdouble, int32?_int,
    show float? (.float t.chiSquare) = some t.chiSquare from hchi, FitStatus.ofJson?_toJson hstatus]

theorem whole_toJson (t : Track Float) : Whole t.toJson := by
  have hfloats : ∀ xs : List Float, Whole (.list Json.float xs) :=
    fun xs => whole_list fun x _ => whole_float x
  refine .object ?_
  simpa using ⟨whole_list fun n _ => .number _, whole_list fun hit _ => hit.whole_toJson,
    hfloats _, hfloats _, hfloats _, hfloats _, .number _, whole_float _, t.status.whole_toJson⟩

/-- A track that can be read has finite doubles only. -/
theorem isFinite_of_isSome_ofJson? (h : (Track.ofJson? t.toJson).isSome = true) :
    ∀ x ∈ t.floats, x.isFinite = true := by
  obtain ⟨loaded, hloaded⟩ := Option.isSome_iff_exists.mp h
  rw [ofJson?, record_toJson] at hloaded
  simp only [required, Option.bind_eq_bind, Option.bind_eq_some_iff, Option.some_inj,
    exists_eq_left'] at hloaded
  -- every field was read
  obtain ⟨-, -, hits, hhits, vector, hvector, coords, hcoords, residuals, hresiduals, double,
    hdouble, -, -, chi, hchi, -⟩ := hloaded
  have hfloats : ∀ {xs ys : List Float}, list? float? (.list Json.float xs) = some ys →
      ∀ x ∈ xs, x.isFinite = true := fun hread x hx =>
    isFinite_of_isSome_float? (isSome_of_isSome_list? (Option.isSome_of_eq_some hread) x hx)
  simp only [floats, List.forall_mem_append, List.forall_mem_map, List.forall_mem_singleton]
  refine ⟨⟨⟨⟨⟨?_, ?_⟩, hfloats hcoords⟩, hfloats hresiduals⟩, hfloats hdouble⟩, ?_⟩
  · intro hit hhit
    exact Hit.isFinite_of_isSome_ofJson?
      (isSome_of_isSome_list? (Option.isSome_of_eq_some hhits) hit hhit)
  · intro x hx
    exact isFinite_of_isSome_float?
      (isSome_of_isSome_vector? (Option.isSome_of_eq_some hvector) x hx)
  · exact isFinite_of_isSome_float? (Option.isSome_of_eq_some hchi)

/-- A track of finite doubles is read back from its own text, provided that its counts have 64 bits
and that its doubles are read back from their own digits.  If some double is not finite, no track is
read from the text. -/
theorem ofText?_toText_eq_self_or_none (t : Track Float) :
    ((∀ n ∈ t.counts, n < UInt64.size) → (∀ x ∈ t.floats, x.isFinite = true) →
        (∀ x ∈ t.floats, (Numeral.ofFloat Layout.stored x).toFloat? = some x) →
        ofText? t.toText = some t) ∧
      ((∃ x ∈ t.floats, x.isFinite = false) → ofText? t.toText = none) := by
  have hparse : ofText? t.toText = Track.ofJson? t.toJson := by
    rw [ofText?, toText, parse_compactText t.whole_toJson, Option.bind_some]
  rw [hparse]
  constructor
  · intro hcounts hfinite hreads
    exact ofJson?_toJson hcounts fun x hx => kept_of_toFloat? (hfinite x hx) (hreads x hx)
  · rintro ⟨x, hx, hnot⟩
    by_contra hsome
    have hfinite := isFinite_of_isSome_ofJson? (Option.isSome_iff_ne_none.mpr hsome) x hx
    rw [hnot] at hfinite
    cases hfinite

/-- A track with lists of any lengths, doubles of every size and planes that no detector has. -/
def uneven : Track Float where
  spacePoints := [3, 0, 3, 18446744073709551615]
  hits := [⟨12, 4294967295, -0.25⟩, ⟨0, 0, 1e16⟩]
  vector := #v[0.5, -0.0, 0, 1e-300, -5e-324]
  coords := []
  residuals := [1000, 1e300, 0.1]
  doubleResiduals := [-123456.789]
  nfree := -2147483648
  chiSquare := 10000
  status := .unknownPlane 12

/-- The uneven track is read back, and is refused with a residual that is infinite or no number. -/
theorem ofText?_toText_eq_self_or_none_uneven :
    ofText? uneven.toText = some uneven ∧
      ofText? ({ uneven with residuals := [1000, 1.0 / 0.0] } : Track Float).toText = none ∧
      ofText? ({ uneven with chiSquare := 0.0 / 0.0 } : Track Float).toText = none := by
  refine ⟨(ofText?_toText_eq_self_or_none uneven).1 ?_ ?_ ?_,
    (ofText?_toText_eq_self_or_none _).2 ⟨1.0 / 0.0, ?_, ?_⟩,
    (ofText?_toText_eq_self_or_none _).2 ⟨0.0 / 0.0, ?_, ?_⟩⟩
  · decide +kernel
  · decide +kernel
  · decide +kernel
  · simp [floats]
  · decide +kernel
  · simp [floats]
  · decide +kernel

end Track

end DriftChamber
