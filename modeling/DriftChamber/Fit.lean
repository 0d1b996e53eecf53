/-
# Fitting tracks

Each hit measures a coordinate that is linear in the ray through four coefficients of its plane.
`Fitter.solve` finds the ray that describes a list of hits best, and `Fitter.fit` does so for a
track: it needs a degree of freedom to spare, and it leaves a coordinate on every plane, a
residual on every plane that was hit, and the chi-square.

Where every space point makes a track of its own, `Fitter.doubleResiduals?` confronts the ray of
one chamber with the hits of the other.
-/
import DriftChamber.Geometry
import DriftChamber.LeastSquares
import DriftChamber.Track

namespace DriftChamber

/-- A detector with the coefficients through which rays are fitted. -/
structure Fitter (α : Type) [Scalar α] where
  /-- The planes. -/
  geometry : Geometry α
  /-- Which coefficients multiply the ray parameters. -/
  map : RayMap

namespace Fitter

variable {α : Type} [Scalar α]

/-! ## The ray of a list of hits -/

/-- What a hit says about the ray, if its plane exists. -/
def measurement (f : Fitter α) (hit : Hit α) : Except FitError (Measurement α) :=
  match f.geometry.plane? hit.plane with
  | none => .error (.unknownPlane hit.plane)
  | some plane => .ok ⟨f.map.select plane.coefficients, plane.weight, hit.coord⟩

/-- What hits say about the ray; the first hit on a plane that does not exist is an error. -/
def measurements (f : Fitter α) : List (Hit α) → Except FitError (List (Measurement α))
  | [] => .ok []
  | hit :: rest =>
      match f.measurement hit with
      | .error e => .error e
      | .ok m =>
        match f.measurements rest with
        | .error e => .error e
        | .ok ms => .ok (m :: ms)

/-- The ray that describes the hits best.  It takes four hits at least. -/
def solve (f : Fitter α) (hits : List (Hit α)) : Except FitError (Ray α) :=
  if hits.length < 4 then .error (.underconstrained hits.length)
  else
    match f.measurements hits with
    | .error e => .error e
    | .ok measured =>
      match Measurement.bestRay? measured with
      | none => .error .singular
      | some ray => .ok ray

/-! ## Fitting a track -/

/-- The coordinate that a fitted ray has on a plane. -/
def predict (f : Fitter α) (plane : Plane α) (ray : Ray α) : α :=
  Scalar.sum ((f.map.select plane.coefficients).toList.zipWith (· * ·) ray.toList)

/-- Degrees of freedom of a fit to so many hits, in 32 bits. -/
def degreesOfFreedom (hits : Nat) : Int32 := Int32.ofNat hits - 4

/-- The coordinates of a ray on the first `numPlanes` planes, 0 where there is no plane. -/
def predictions (f : Fitter α) (numPlanes : Nat) (ray : Ray α) : List α :=
  (List.range numPlanes).map fun index =>
    match f.geometry.planes[index]? with
    | some plane => f.predict plane ray
    | none => 0

/-- Plane, residual and uncertainty of each hit on a plane with a fitted coordinate. -/
def hitResiduals (f : Fitter α) (coords : List α) (hits : List (Hit α)) : List (Nat × α × α) :=
  hits.filterMap fun hit =>
    match valueOn? coords hit.plane, f.geometry.plane? hit.plane with
    | some coord, some plane => some (hit.plane, hit.coord - coord, plane.sigma)
    | _, _ => none

/-- The track with its fit results for a ray: all coordinates, the residual of the last hit on
each plane, and the sum over all hits of the squared residual in units of the uncertainty. -/
def attach (f : Fitter α) (t : Track α) (ray : Ray α) : Track α :=
  let coords := f.predictions t.numPlanes ray
  let found := f.hitResiduals coords t.hits
  { t with
    vector := #v[ray.x, ray.y, 0, ray.xp, ray.yp]
    coords := coords
    residuals := found.foldl (fun values r => setOn values r.1 r.2.1) t.residuals
    chiSquare := found.foldl (fun s r => s + Scalar.square (r.2.1 / r.2.2)) 0
    status := .fitted }

/-- Fits a track, forgetting any earlier fit.  A track that cannot be fitted keeps the marks of an
unfitted one and says why. -/
def fit (f : Fitter α) (t : Track α) : Track α :=
  let blank := { t.reset with nfree := degreesOfFreedom t.hits.length }
  if blank.nfree ≤ 0 then { blank with status := .underconstrained }
  else
    match f.solve t.hits with
    | .error e => { blank with status := e.status }
    | .ok ray => f.attach blank ray

/-! ## Double residuals -/

/-- The chamber of a track's first hit. -/
def firstChamber? (f : Fitter α) (t : Track α) : Option Nat :=
  t.hits.head?.bind fun hit => f.geometry.chamberOf? hit.plane

/-- The track with double residuals on the planes of the given hits: measured coordinate minus the
one that the ray foretells. -/
def confront (f : Fitter α) (t : Track α) (ray : Ray α) (hits : List (Hit α)) : Track α :=
  { t with
    doubleResiduals := hits.foldl
      (fun values hit =>
        match f.geometry.plane? hit.plane with
        | some plane => setOn values hit.plane (hit.coord - plane.project ray)
        | none => values)
      t.doubleResiduals }

/-- The double residuals of two tracks, the first starting in chamber 1 and the second in chamber
2, both fitted.  Of other lists of tracks there are none. -/
def doubleResiduals? (f : Fitter α) : List (Track α) → Option (List (Track α))
  | [first, second] =>
      if f.firstChamber? first = some 1 ∧ f.firstChamber? second = some 2 then
        match first.fittedRay?, second.fittedRay? with
        | some ray₁, some ray₂ =>
            some [f.confront first ray₁ second.hits, f.confront second ray₂ first.hits]
        | _, _ => none
      else none
  | _ => none

end Fitter

end DriftChamber
