/-
# Scenarios

The kinds of runs: how many rays an event has, under which conditions, and which tracking
parameters the scenario sets itself.
-/
import DriftChamber.Setup
import DriftChamber.Simulation.Generator

namespace DriftChamber

/-- A kind of run. -/
inductive Scenario where
  /-- One particle per event. -/
  | singleTrack
  /-- Several particles per event. -/
  | multiTrack
  /-- Planes that miss particles, and noise. -/
  | noisy
  /-- One track per space point. -/
  | singleStub
  /-- More particles than the bound on tracks allows. -/
  | overflow
  deriving DecidableEq, Repr

/-- What a scenario sets. -/
structure Profile where
  /-- Rays per event. -/
  raysPerEvent : Nat
  /-- How rays are drawn and how the detector answers. -/
  conditions : Conditions
  /-- Whether every point makes a track of its own. -/
  singleStub : Bool
  /-- A bound on tracks in place of the configured one. -/
  maxTracks : Option Nat

/-- Tracking parameters as a scenario uses them. -/
def Profile.apply (p : Profile) (t : Tracking Float) : Tracking Float :=
  { t with
    singleStub := p.singleStub
    maxTracks := p.maxTracks.getD t.maxTracks }

namespace Scenario

/-- All scenarios, in their order. -/
def all : List Scenario := [.singleTrack, .multiTrack, .noisy, .singleStub, .overflow]

/-- The name of a scenario. -/
def name : Scenario → String
  | .singleTrack => "single_track"
  | .multiTrack => "multi_track"
  | .noisy => "noisy"
  | .singleStub => "single_stub"
  | .overflow => "overflow"

/-- What a scenario is for. -/
def description : Scenario → String
  | .singleTrack => "One track per event, verify efficiency, resolution and chi2"
  | .multiTrack => "Three tracks per event, verify every truth ray is found"
  | .noisy => "95% plane efficiency and two noise space points per event"
  | .singleStub => "Per-chamber tracks, verify double residuals are filled"
  | .overflow => "max_tracks = 1 with two tracks, verify all-or-nothing abort"

/-- What a scenario sets. -/
def profile : Scenario → Profile
  | .singleTrack => ⟨1, Conditions.standard, false, none⟩
  | .multiTrack => ⟨3, Conditions.standard, false, none⟩
  | .noisy =>
      ⟨1, { Conditions.standard with planeEfficiency := 0.95, noisePoints := 2 }, false, none⟩
  | .singleStub => ⟨1, Conditions.standard, true, none⟩
  | .overflow => ⟨2, Conditions.standard, false, some 1⟩

/-- The names that a scenario answers to. -/
def aliases : Scenario → List String
  | .singleTrack => ["single_track", "singletrack", "sim-001"]
  | .multiTrack => ["multi_track", "multitrack", "sim-002"]
  | .noisy => ["noisy", "sim-003"]
  | .singleStub => ["single_stub", "singlestub", "sim-004"]
  | .overflow => ["overflow", "sim-005"]

/-- The lower case of a character, as far as it is an ASCII letter.  The sign of the kelvin is the
only other character whose lower case is one. -/
def lowerCase (c : Char) : Char := if c = '\u212a' then 'k' else c.toLower

/-- The scenario that answers to a name, in letters of any case. -/
def ofName? (name : String) : Option Scenario :=
  let lower := String.ofList (name.toList.map lowerCase)
  all.find? fun s => s.aliases.contains lower

/-- A scenario answers to its name. -/
theorem ofName?_name (s : Scenario) : ofName? s.name = some s := by
  cases s <;> decide +kernel

/-- What is said of a name that no scenario answers to. -/
def unknownMessage (name : String) : String := "Unknown scenario: " ++ name

end Scenario

end DriftChamber
