/-
# Stored setups

Setups as JSON.  `Setup.toJson` writes one and `Setup.ofJson?` reads one; parts that are missing
take their usual values, and what is not known is ignored.

A plane is always an object.  Everything in it besides name, chamber and uncertainty is gathered
first, and has to be sound and not too deeply nested.  Nine coefficients decide if they are there;
otherwise position and angle do.
-/
import DriftChamber.Json.Decode
import DriftChamber.Json.Printer
import DriftChamber.Json.Reader
import DriftChamber.Setup.Message

namespace DriftChamber

open Json

/-! ## Writing -/

/-- The fields that give the coefficients of a plane. -/
def PlaneShape.fields : PlaneShape → List (String × Json)
  | .coefficients values => [("coefficients", Json.list Json.float values.toList)]
  | .ideal z alpha => [("z", Json.float z), ("alpha", Json.float alpha)]

/-- A plane as JSON. -/
def PlaneDescription.toJson (p : PlaneDescription) : Json :=
  .object ([("name", .string p.name), ("chamber", .nat p.chamber), ("sigma", .float p.sigma)] ++
    p.shape.fields)

/-- A detector as JSON. -/
def Detector.toJson (d : Detector) : Json :=
  .object [("num_chambers", .nat d.numChambers),
    ("planes", .list PlaneDescription.toJson d.planes)]

/-- Tolerances as JSON. -/
def Criteria.toJson (c : Criteria Float) : Json :=
  .object [("xt", .float c.xt), ("yt", .float c.yt), ("xpt", .float c.xpt), ("ypt", .float c.ypt)]

/-- Tracking parameters as JSON. -/
def Tracking.toJson (t : Tracking Float) : Json :=
  .object [("criteria", t.criteria.toJson), ("max_tracks", .nat t.maxTracks),
    ("single_stub", .bool t.singleStub),
    ("ray_coeff_map", .list Json.nat t.rayIndices.toList)]

/-- A setup as JSON. -/
def Setup.toJson (s : Setup) : Json :=
  .object [("detector", s.detector.toJson), ("tracking", s.tracking.toJson)]

/-! ## Reading -/

/-- How deep what describes the shape of a plane may be nested. -/
def shapeDepth : Nat := 123

/-- Reads tolerances; all four have to be there. -/
def Criteria.ofJson? (j : Json) : Option (Criteria Float) :=
  match j.record ["xt", "yt", "xpt", "ypt"] with
  | some [xt, yt, xpt, ypt] => do
      return ⟨← required float? xt, ← required float? yt, ← required float? xpt,
        ← required float? ypt⟩
  | _ => none

/-- Reads tracking parameters. -/
def Tracking.ofJson? (j : Json) : Option (Tracking Float) :=
  match j.record ["criteria", "max_tracks", "single_stub", "ray_coeff_map"] with
  | some [criteria, maxTracks, singleStub, rayIndices] => do
      return ⟨← withDefault Tracking.standard.criteria Criteria.ofJson? criteria,
        ← withDefault Tracking.standard.maxTracks nat64? maxTracks,
        ← withDefault Tracking.standard.singleStub bool? singleStub,
        ← withDefault Tracking.standard.rayIndices (vector? 4 nat64?) rayIndices⟩
  | _ => none

/-- Reads nine coefficients. -/
def PlaneShape.coefficients? (fields : List (String × Json)) : Option PlaneShape := do
  let field ← fieldOnce fields "coefficients"
  return .coefficients (← required (vector? 9 float?) field)

/-- Reads position and angle of an ideal plane. -/
def PlaneShape.ideal? (fields : List (String × Json)) : Option PlaneShape := do
  let z ← fieldOnce fields "z"
  let alpha ← fieldOnce fields "alpha"
  return .ideal (← required float? z) (← required float? alpha)

/-- Reads the shape of a plane from the fields that are left for it. -/
def PlaneShape.ofFields? (fields : List (String × Json)) : Option PlaneShape :=
  if areSoundFields fields && decide (depthOfFields fields ≤ shapeDepth) then
    (PlaneShape.coefficients? fields).or (PlaneShape.ideal? fields)
  else none

/-- Reads a plane. -/
def PlaneDescription.ofJson? : Json → Option PlaneDescription
  | .object fields => do
      let name ← fieldOnce fields "name"
      let chamber ← fieldOnce fields "chamber"
      let sigma ← fieldOnce fields "sigma"
      let others := fields.filter fun field => field.1 ∉ ["name", "chamber", "sigma"]
      return ⟨← required string? name, ← required nat64? chamber, ← required float? sigma,
        ← PlaneShape.ofFields? others⟩
  | _ => none

/-- Reads a detector. -/
def Detector.ofJson? (j : Json) : Option Detector :=
  match j.record ["num_chambers", "planes"] with
  | some [numChambers, planes] => do
      return ⟨← required nat64? numChambers, ← required (list? PlaneDescription.ofJson?) planes⟩
  | _ => none

/-- Reads a setup. -/
def Setup.ofJson? (j : Json) : Option Setup :=
  match j.record ["detector", "tracking"] with
  | some [detector, tracking] => do
      return ⟨← withDefault Detector.standard Detector.ofJson? detector,
        ← withDefault Tracking.standard Tracking.ofJson? tracking⟩
  | _ => none

namespace Setup

/-- The compact text of a setup. -/
def toText (s : Setup) : String := s.toJson.compactText

/-- Reads a setup from text and checks it. -/
def ofText? (text : String) : Except SetupError Setup :=
  match (Json.parse text).bind Setup.ofJson? with
  | none => .error .malformed
  | some s =>
    match s.check with
    | .error e => .error (.refused e)
    | .ok () => .ok s

/-- Reads a setup from the content of a file, or passes on why there is none. -/
def ofFile? (content : Except FileFailure ByteArray) : Except SetupError Setup :=
  match content with
  | .error why => .error (.unreadable why)
  | .ok bytes =>
    match String.fromUTF8? bytes with
    | none => .error (.unreadable .notText)
    | some text => ofText? text

end Setup

end DriftChamber
