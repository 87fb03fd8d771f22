import GridPuzzle.Main
import GridPuzzle.Proofs.CommandLine.Game
import GridPuzzle.Proofs.Grid.Cells
import GridPuzzle.Proofs.Grid.Path
import GridPuzzle.Proofs.Level.Playable
import GridPuzzle.Proofs.Level.RoundTrip
import GridPuzzle.Proofs.Level.Validity
import GridPuzzle.Proofs.Level.Walk
import GridPuzzle.Proofs.Program.Fillers
import GridPuzzle.Proofs.Program.Heads
import GridPuzzle.Proofs.Program.Separators
import GridPuzzle.Proofs.Program.Spans
import GridPuzzle.Proofs.Robot.Overheard
import GridPuzzle.Proofs.Robot.Panics
import GridPuzzle.Proofs.Robot.Pipeline
import GridPuzzle.Proofs.Session.Announcement
import GridPuzzle.Proofs.Session.Arrival
import GridPuzzle.Proofs.Session.Asking
import GridPuzzle.Proofs.Session.Attendance
import GridPuzzle.Proofs.Session.Change
import GridPuzzle.Proofs.Session.Completion
import GridPuzzle.Proofs.Session.Footing
import GridPuzzle.Proofs.Session.History
import GridPuzzle.Proofs.Session.Later
import GridPuzzle.Proofs.Session.Life
import GridPuzzle.Proofs.Session.Notices
import GridPuzzle.Proofs.Session.Orphan
import GridPuzzle.Proofs.Session.Pacing
import GridPuzzle.Proofs.Session.Performance
import GridPuzzle.Proofs.Session.Playback
import GridPuzzle.Proofs.Session.Registration
import GridPuzzle.Proofs.Session.Retrace
import GridPuzzle.Proofs.Session.Script
import GridPuzzle.Proofs.Session.Spared
import GridPuzzle.Proofs.Session.Steady
import GridPuzzle.Proofs.Session.StepOrder
import GridPuzzle.Proofs.Session.Stretch
import GridPuzzle.Proofs.Session.Usage
import GridPuzzle.Proofs.Session.Walls
import GridPuzzle.Robot.Drill
import GridPuzzle.Session.Call
