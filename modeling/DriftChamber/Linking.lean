/-
# Linking stubs across chambers

Space points of different chambers whose stubs agree are linked into candidate tracks.  The points
are taken in order.  A point that is on no track yet is a seed: each later point of another
chamber is compared with it, and if all four differences are inside tolerance the point is taken
up by the seed's tracks.

* The first point taken up makes a track of two.
* A later one extends each track of the seed that has no point of its chamber.
* A track that has one is kept as it is, and a fork of it is added with that point replaced.

So the tracks of a seed run through all choices of one accepted point per chamber.  There is a
bound on the number of tracks.  It is looked at before each new track, and an event that would
exceed it yields none.
-/
import DriftChamber.Track
import DriftChamber.Tracking

namespace DriftChamber

variable {α : Type}

/-! ## Diagnostics -/

/-- How well stubs agreed, over all pairs compared. -/
structure Diagnostics (α : Type) where
  /-- For each component on its own, the signed difference of least magnitude. -/
  closest : Ray α
  /-- Number of pairs compared. -/
  pairsTested : Nat
  deriving DecidableEq, Repr

namespace Diagnostics

variable [Scalar α]

/-- What stands for the closest difference before any pair is compared. -/
def differenceUnset : α := ((999999 : Nat) : α)

/-- No pair compared yet. -/
def none : Diagnostics α where
  closest := ⟨differenceUnset, differenceUnset, differenceUnset, differenceUnset⟩
  pairsTested := 0

/-- The value of smaller magnitude; the current one on a tie. -/
def closer (current candidate : α) : α :=
  if Scalar.abs candidate < Scalar.abs current then candidate else current

/-- One more pair, with the given difference of stubs. -/
def record (d : Diagnostics α) (delta : Ray α) : Diagnostics α where
  closest :=
    ⟨closer d.closest.x delta.x, closer d.closest.y delta.y,
      closer d.closest.xp delta.xp, closer d.closest.yp delta.yp⟩
  pairsTested := d.pairsTested + 1

end Diagnostics

/-! ## Candidates -/

/-- A space point with its position in the event. -/
structure Member (α : Type) where
  /-- Position in the event's list of points. -/
  id : Nat
  /-- The point. -/
  point : SpacePoint α
  deriving DecidableEq, Repr

/-- The points of an event with their positions. -/
def members (points : List (SpacePoint α)) : List (Member α) :=
  points.zipIdx.map fun (point, id) => ⟨id, point⟩

/-- Points that may belong to one particle, the seed first. -/
abbrev Candidate (α : Type) : Type := List (Member α)

namespace Candidate

/-- Whether the point at a position is a member. -/
def contains (c : Candidate α) (id : Nat) : Bool := c.any fun m => m.id == id

/-- Place of the first member from the given chamber. -/
def place? (c : Candidate α) (chamber : Nat) : Option Nat :=
  c.findIdx? fun m => m.point.chamber == chamber

/-- The candidate with one more member. -/
def extend (c : Candidate α) (m : Member α) : Candidate α := c ++ [m]

/-- The candidate with the member at a place replaced. -/
def fork (c : Candidate α) (place : Nat) (m : Member α) : Candidate α := c.set place m

/-- The candidate as a track yet to be fitted, with the hits of its members in member order. -/
def toTrack [Scalar α] (numPlanes : Nat) (c : Candidate α) : Track α :=
  { Track.empty numPlanes with
    spacePoints := c.map (·.id)
    hits := c.flatMap (·.point.hits) }

end Candidate

/-- Offers a point to candidates of a seed, one after the other.  The seed has `size` candidates by
then, with the forks made on the way, and may have `room`.  The candidates come back as they are
left, and beside them the forks; nothing comes back if a fork finds no room. -/
def offer (room : Nat) (m : Member α) :
    Nat → List (Candidate α) → Option (List (Candidate α) × List (Candidate α))
  | _, [] => some ([], [])
  | size, c :: rest =>
      if c.contains m.id then
        (offer room m size rest).map fun (left, forks) => (c :: left, forks)
      else
        match c.place? m.point.chamber with
        | none => (offer room m size rest).map fun (left, forks) => (c.extend m :: left, forks)
        | some place =>
            if room ≤ size then none
            else
              (offer room m (size + 1) rest).map fun (left, forks) =>
                (c :: left, c.fork place m :: forks)

/-- The candidates of a seed after it takes up one more point, if there is room for them.  Forks
come after the candidates that were there before. -/
def takeUp (room : Nat) (seed m : Member α) : List (Candidate α) → Option (List (Candidate α))
  | [] => if room = 0 then none else some [[seed, m]]
  | candidates@(_ :: _) =>
      (offer room m candidates.length candidates).map fun (left, forks) => left ++ forks

/-! ## The linker -/

/-- Why the points of an event are not linked. -/
inductive LinkError where
  /-- More candidate tracks arise than the bound allows. -/
  | tooManyTracks (max : Nat)
  deriving DecidableEq, Repr

/-- What linking needs to know. -/
structure Linker (α : Type) where
  /-- When two stubs count as one particle. -/
  criteria : Criteria α
  /-- Bound on the number of candidate tracks. -/
  maxTracks : Nat
  /-- Whether every point makes a track of its own. -/
  singleStub : Bool
  /-- Number of planes that tracks hold values for. -/
  numPlanes : Nat

/-- What linking gives: tracks, or the reason why there are none, and in both cases the
diagnostics. -/
structure Linked (α : Type) where
  /-- The candidate tracks. -/
  tracks : Except LinkError (List (Track α))
  /-- How well stubs agreed. -/
  diagnostics : Diagnostics α

namespace Linker

variable [Scalar α]

/-- The linker for the given parameters. -/
def ofTracking (t : Tracking α) (numPlanes : Nat) : Linker α where
  criteria := t.criteria
  maxTracks := t.effectiveMaxTracks
  singleStub := t.singleStub
  numPlanes := numPlanes

/-- Compares a seed with the later points and collects its candidates, of which there may be
`room`.  Beyond that, only the diagnostics up to there are left. -/
def scan (criteria : Criteria α) (room : Nat) (seed : Member α) :
    List (Member α) → List (Candidate α) → Diagnostics α →
      Except (Diagnostics α) (List (Candidate α) × Diagnostics α)
  | [], candidates, d => .ok (candidates, d)
  | m :: later, candidates, d =>
      if seed.point.chamber = m.point.chamber then scan criteria room seed later candidates d
      else
        let delta := seed.point.stub.sub m.point.stub
        let seen := d.record delta
        if criteria.accepts delta then
          match takeUp room seed m candidates with
          | none => .error seen
          | some grown => scan criteria room seed later grown seen
        else scan criteria room seed later candidates seen

/-- Lets every point that is on no candidate yet be a seed, in order. -/
def seeds (criteria : Criteria α) (maxTracks : Nat) :
    List (Member α) → List (Candidate α) → Diagnostics α →
      Except (Diagnostics α) (List (Candidate α) × Diagnostics α)
  | [], found, d => .ok (found, d)
  | seed :: later, found, d =>
      if found.any (·.contains seed.id) then seeds criteria maxTracks later found d
      else
        match scan criteria (maxTracks - found.length) seed later [] d with
        | .error seen => .error seen
        | .ok (candidates, seen) => seeds criteria maxTracks later (found ++ candidates) seen

/-- The candidates of an event: one for each point in single-stub mode, else those linked across
chambers. -/
def candidates (l : Linker α) (points : List (SpacePoint α)) (d : Diagnostics α) :
    Except (Diagnostics α) (List (Candidate α) × Diagnostics α) :=
  if l.singleStub then
    if l.maxTracks < points.length then .error d
    else .ok ((members points).map fun m => [m], d)
  else seeds l.criteria l.maxTracks (members points) [] d

/-- Links the points of an event, going on with the given diagnostics. -/
def link (l : Linker α) (points : List (SpacePoint α)) (d : Diagnostics α) : Linked α :=
  match l.candidates points d with
  | .error seen => ⟨.error (.tooManyTracks l.maxTracks), seen⟩
  | .ok (found, seen) => ⟨.ok (found.map (Candidate.toTrack l.numPlanes)), seen⟩

end Linker

end DriftChamber
