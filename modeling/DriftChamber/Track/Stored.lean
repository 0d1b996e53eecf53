/-
# Stored tracks

Tracks as JSON.  `Track.toJson` writes a track with all its results and `Track.ofJson?` reads one;
every field is required.  A value that is not finite is written as null, which no field takes, so
a track that holds one cannot be read back.
-/
import DriftChamber.Json.Decode
import DriftChamber.Json.Printer
import DriftChamber.Json.Reader
import DriftChamber.Track

namespace DriftChamber

open Json

/-! ## Writing -/

/-- The name of a status that stands alone. -/
def FitStatus.name : FitStatus → String
  | .pending => "Pending"
  | .fitted => "Fitted"
  | .underconstrained => "Underconstrained"
  | .singular => "Singular"
  | .unknownPlane _ => "UnknownPlane"

/-- A fit status as JSON; an unknown plane comes with its number. -/
def FitStatus.toJson (s : FitStatus) : Json :=
  match s with
  | .unknownPlane plane => .object [(s.name, .nat plane)]
  | _ => .string s.name

/-- A hit as JSON. -/
def Hit.toJson (h : Hit Float) : Json :=
  .object [("plane", .nat h.plane), ("wire", .nat h.wire.toNat), ("coord", .float h.coord)]

/-- A track as JSON. -/
def Track.toJson (t : Track Float) : Json :=
  .object [("space_points", .list Json.nat t.spacePoints), ("hits", .list Hit.toJson t.hits),
    ("vector", .list Json.float t.vector.toList), ("coords", .list Json.float t.coords),
    ("residuals", .list Json.float t.residuals),
    ("double_residuals", .list Json.float t.doubleResiduals),
    ("nfree", .int t.nfree.toInt), ("chi2", .float t.chiSquare), ("status", t.status.toJson)]

/-! ## Reading -/

/-- The status that stands alone under a name. -/
def FitStatus.ofName? (name : String) : Option FitStatus :=
  [FitStatus.pending, .fitted, .underconstrained, .singular].find? fun s => s.name == name

/-- Reads a fit status.  A status that stands alone may also be written as an object with null
under its name. -/
def FitStatus.ofJson? : Json → Option FitStatus
  | .string name => FitStatus.ofName? name
  | .object [(name, value)] =>
      if name == (FitStatus.unknownPlane 0).name then (nat64? value).map .unknownPlane
      else
        match value with
        | .null => FitStatus.ofName? name
        | _ => none
  | _ => none

/-- Reads a hit. -/
def Hit.ofJson? (j : Json) : Option (Hit Float) :=
  match j.record ["plane", "wire", "coord"] with
  | some [plane, wire, coord] => do
      return ⟨← required nat64? plane, ← required uint32? wire, ← required float? coord⟩
  | _ => none

/-- Reads a track. -/
def Track.ofJson? (j : Json) : Option (Track Float) :=
  match j.record ["space_points", "hits", "vector", "coords", "residuals", "double_residuals",
      "nfree", "chi2", "status"] with
  | some [points, hits, vector, coords, residuals, doubleResiduals, nfree, chi2, status] => do
      return ⟨← required (list? nat64?) points, ← required (list? Hit.ofJson?) hits,
        ← required (vector? 5 float?) vector, ← required (list? float?) coords,
        ← required (list? float?) residuals, ← required (list? float?) doubleResiduals,
        ← required int32? nfree, ← required float? chi2, ← required FitStatus.ofJson? status⟩
  | _ => none

namespace Track

/-- The compact text of a track. -/
def toText (t : Track Float) : String := t.toJson.compactText

/-- Reads a track from text. -/
def ofText? (text : String) : Option (Track Float) := (Json.parse text).bind Track.ofJson?

end Track

end DriftChamber
