import RobotPuzzle.World.Render
import RobotPuzzle.Program.Record
import RobotPuzzle.Run.Record
import RobotPuzzle.Catalog.Record
import RobotPuzzle.Main
import RobotPuzzle.Proofs.Program.LoopTree
import RobotPuzzle.Proofs.Run.Fold
import RobotPuzzle.Proofs.Session.Deed
import RobotPuzzle.Proofs.Session.Coherence
import RobotPuzzle.Proofs.Json.Flat
import RobotPuzzle.Proofs.Progress.ReadBack
import RobotPuzzle.Proofs.Progress.Records
import RobotPuzzle.Proofs.Session.Recording
import RobotPuzzle.Proofs.Session.Refusal
import RobotPuzzle.Proofs.Session.Pause
import RobotPuzzle.Proofs.Session.Loop
import RobotPuzzle.Proofs.Run.Order
import RobotPuzzle.Proofs.Level.Reading
import RobotPuzzle.Proofs.Run.Treasure
import RobotPuzzle.Proofs.Run.Verdict
import RobotPuzzle.Proofs.Catalog.Order
import RobotPuzzle.Proofs.Progress.Opening
import RobotPuzzle.Proofs.Progress.Mirror
import RobotPuzzle.Proofs.Session.Lock
import RobotPuzzle.Proofs.Run.Symmetry
import RobotPuzzle.Proofs.Session.Itinerary
import RobotPuzzle.Proofs.Session.Editor
import RobotPuzzle.Proofs.Session.Returns
import RobotPuzzle.Proofs.Program.Editing
import RobotPuzzle.Proofs.Run.Ground
import RobotPuzzle.Proofs.Run.Replay
import RobotPuzzle.Proofs.Session.Replay
import RobotPuzzle.Proofs.Program.OpenLoops
import RobotPuzzle.Proofs.Program.Indentation
import RobotPuzzle.Proofs.Run.Frame
import RobotPuzzle.Proofs.Session.Playing
import RobotPuzzle.Proofs.Session.Decline
import RobotPuzzle.Proofs.Level.Acceptance
import RobotPuzzle.Proofs.Level.Annotations
import RobotPuzzle.Proofs.Level.Declarations
import RobotPuzzle.Proofs.Level.Listing
import RobotPuzzle.Proofs.Catalog.Loading
import RobotPuzzle.Proofs.Catalog.Answers
import RobotPuzzle.Proofs.Run.Arrangement
import RobotPuzzle.Proofs.Run.History
import RobotPuzzle.Proofs.Program.Composition
import RobotPuzzle.Proofs.Program.Undo
import RobotPuzzle.Proofs.Run.Scoring
import RobotPuzzle.Proofs.Program.Depth
