import GridPuzzle.Grid.Position
import GridPuzzle.Program.Status

/-!
# Remarks

What the library says about its own work, as causes. Each remark has one severity and one wording.
A world that robots and programs act on keeps a journal: it can take a remark at any moment.
-/

namespace GridPuzzle

open Text

/-- How serious a remark is. -/
inductive Severity
  | debug
  | info
  | warn
  deriving DecidableEq, Repr

/-- The written name of a severity. -/
def Severity.name : Severity → String
  | debug => "DEBUG"
  | info => "INFO"
  | warn => "WARN"

/-- One thing worth noting. -/
inductive Remark
  /-- A head at this byte counts further than a word of 32 bits. -/
  | oversizedCount (offset : Nat)
  /-- A text with so many tokens has become so many commands. -/
  | compiled (tokens commands : Nat)
  /-- A step would leave the coordinate range. -/
  | outOfRange (d : Direction) (p : Position)
  /-- An acceptor has refused the move. -/
  | vetoed (m : Move)
  /-- The move has been made. -/
  | committed (m : Move)
  /-- A wall that nobody else answers for has refused a move. -/
  | blocked (wall : Position)
  /-- A wall of a scene has refused a move. -/
  | bumped (wall : Position)
  /-- The finish was reached after its level had gone. -/
  | finishAlone (finish : Position)
  /-- A program without actions is not started. -/
  | emptyProgram
  /-- A program that has left its first status is not started. -/
  | alreadyStarted (status : Status)
  /-- A program is not started where no task can be played. -/
  | outsideRuntime
  /-- The status of a program has changed. -/
  | statusChanged (old new : Status)
  /-- A task ends before an action because its program no longer runs. -/
  | skipped (step total : Nat)
  /-- A task ends after an action because its program no longer runs. -/
  | stoppedAfter (step total : Nat)
  /-- A scene has refused a second program. -/
  | rejected
  /-- A scene plays a program with so many actions. -/
  | playing (actions : Nat)
  /-- A scene has been set up. -/
  | sceneReady (width height : Nat) (robot finish : Position) (walls : Nat)
  /-- The robot has reached the finish of its scene. -/
  | levelComplete (finish : Position)
  /-- A level file is about to be read. -/
  | loading (path : String)
  /-- A level file has been read. -/
  | loaded (name path : String)
  deriving DecidableEq, Repr

namespace Remark

/-- How serious a remark is. -/
def severity : Remark → Severity
  | blocked _ | bumped _ | outsideRuntime | rejected => .warn
  | statusChanged _ _ | playing _ | sceneReady .. | levelComplete _ | loaded .. => .info
  | _ => .debug

/-- The wording of a remark. -/
def message : Remark → String
  | oversizedCount offset => "Ignoring oversized count at byte " ++ natural offset
  | compiled tokens commands =>
    "Compiled " ++ natural tokens ++ " tokens into " ++ natural commands ++ " commands"
  | outOfRange d p => "Step " ++ d.keyword ++ " from " ++ p.text ++ " leaves the coordinate range"
  | vetoed m => "Move " ++ m.text ++ " vetoed"
  | committed m => "Move " ++ m.text ++ " committed"
  | blocked wall => "The robot cannot pass through the wall at " ++ wall.text
  | bumped wall => "The robot bumped into the wall at " ++ wall.text
  | finishAlone finish => "Finish at " ++ finish.text ++ " reached after its level was dropped"
  | emptyProgram => "Not running an empty program"
  | alreadyStarted status => "Program already " ++ status.word ++ ", ignoring run"
  | outsideRuntime => "Cannot run a program outside a tokio runtime: there is no reactor running, "
      ++ "must be called from the context of a Tokio 1.x runtime"
  | statusChanged old new => "Program " ++ old.word ++ " -> " ++ new.word
  | skipped step total => "Skipping step " ++ natural step ++ " of " ++ natural total
  | stoppedAfter step total =>
    "Program stopped after step " ++ natural step ++ " of " ++ natural total
  | rejected => "Rejected new program while another one is running"
  | playing actions => "Running program with " ++ natural actions ++ " steps"
  | sceneReady width height robot finish walls =>
    "Scene ready: " ++ natural width ++ "x" ++ natural height ++ " grid, robot at " ++ robot.text
      ++ ", finish at " ++ finish.text ++ ", " ++ natural walls ++ " walls"
  | levelComplete finish => "Level complete: the robot reached the finish at " ++ finish.text
  | loading path => "Loading level from " ++ path
  | loaded name path => "Loaded level '" ++ name ++ "' from " ++ path

/-- A remark as one line: its severity and its wording. -/
def line (r : Remark) : String := r.severity.name ++ " " ++ r.message

end Remark

/-- A world that can take a remark. -/
class Journal (σ : Type) where
  note : Remark → σ → σ

export Journal (note)

end GridPuzzle
