import GridPuzzle.Session.Perform

/-!
# Robots that outlive their scene

The robot of a scene may be kept when the scene is let go of. It moves as before, through the same
acceptors, but nobody hears of wall hits and arrivals any more.
-/

namespace GridPuzzle.Session

/-- Let go of the scene. -/
def dropScene (s : Session) : Session := { s with scene.present := false }

/-- What one command did: its direction, whether it moved the robot, and the events meanwhile. -/
structure Stride where
  direction : Direction
  answer : Outcome Bool
  events : List Event

/-- Carry out single steps in order; the scene is let go of after `kept` of them. -/
def walk (perform : Perform) : Nat → List Direction → Session → List Stride × Session
  | _, [], s => ([], s)
  | kept, d :: ds, s =>
    let s := if kept = 0 then dropScene s else s
    let before := s.events.size
    let (answer, after) := step perform d s
    let (strides, last) := walk perform (kept - 1) ds after
    (⟨d, answer, after.events.toList.drop before⟩ :: strides, last)

/-- The session of a playable level with one recorder of moves, wall hits and arrivals each. -/
def watched (l : Level) : Except LevelProblem Session :=
  (ofLevel l [.recorder "moves"]).map fun s => { s with
    scene.wallObservers := [.recorder "walls"]
    scene.completionObservers := [.recorder "finish"] }

/-- Carry out the steps of a text on a level whose scene is let go of after `kept` of them. -/
def outlive (perform : Perform) (l : Level) (text : String) (kept : Nat) :
    Except LevelProblem (List Stride × Session) :=
  (watched l).map fun s => walk perform kept (compile text) (noteAll (compileRemarks text) s)

end GridPuzzle.Session
