import DriftChamber.CommandLine.Options
import DriftChamber.CommandLine.Program
import DriftChamber.CommandLine.Report
import DriftChamber.Decimal.Digits
import DriftChamber.Decimal.Numeral
import DriftChamber.Decimal.Rounded
import DriftChamber.Decimal.Shortest
import DriftChamber.Event
import DriftChamber.FileFailure
import DriftChamber.Fit
import DriftChamber.Geometry
import DriftChamber.Json.Decode
import DriftChamber.Json.Printer
import DriftChamber.Json.Reader
import DriftChamber.Json.Value
import DriftChamber.LeastSquares
import DriftChamber.Linking
import DriftChamber.Log
import DriftChamber.Main
import DriftChamber.Plane
import DriftChamber.Random.ChaCha
import DriftChamber.Random.Layers
import DriftChamber.Random.Normal
import DriftChamber.Random.Stream
import DriftChamber.Ray
import DriftChamber.Scalar
import DriftChamber.Setup
import DriftChamber.Setup.Message
import DriftChamber.Setup.Stored
import DriftChamber.Simulation.Export
import DriftChamber.Simulation.Generator
import DriftChamber.Simulation.Metrics
import DriftChamber.Simulation.Run
import DriftChamber.Simulation.Scenario
import DriftChamber.SpacePoint
import DriftChamber.Track
import DriftChamber.Track.Stored
import DriftChamber.Tracking
import DriftChamber.Proofs.Linking.Choices
import DriftChamber.Proofs.Linking.Seeds
import DriftChamber.Proofs.Linking.Bound
import DriftChamber.Proofs.Linking.Tracks
import DriftChamber.Proofs.Linking.Order
import DriftChamber.Proofs.Float.Order
import DriftChamber.Proofs.Linking.Diagnostics
import DriftChamber.Proofs.Event.Outcome
import DriftChamber.Proofs.Linking.Groups
import DriftChamber.Proofs.Fitting.Coverage
import DriftChamber.Proofs.Event.Planewise
import DriftChamber.Proofs.Fitting.Inverse
import DriftChamber.Proofs.Fitting.NormalEquations
import DriftChamber.Proofs.Fitting.Optimum
import DriftChamber.Proofs.Fitting.Shift
import DriftChamber.Proofs.Fitting.Refit
import DriftChamber.Proofs.Fitting.DoubleResiduals
import DriftChamber.Proofs.Simulation.CrossChamber
import DriftChamber.Proofs.Simulation.Coherence
import DriftChamber.Proofs.Simulation.Recount
import DriftChamber.Proofs.Setup.Usable
import DriftChamber.Proofs.CommandLine.Outcome
import DriftChamber.Proofs.Decimal.ReadBack
import DriftChamber.Proofs.Json.ReadBack
import DriftChamber.Proofs.Setup.RoundTrip
import DriftChamber.Proofs.Event.Best
import DriftChamber.Proofs.Track.RoundTrip
import DriftChamber.Proofs.Simulation.DoubleStatistics
import DriftChamber.Proofs.Simulation.EventShape
import DriftChamber.Proofs.Geometry.Faults
import DriftChamber.Proofs.Simulation.Mode
