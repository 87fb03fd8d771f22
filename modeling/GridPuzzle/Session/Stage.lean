import GridPuzzle.Robot.Shared
import GridPuzzle.Session.Status

/-!
# The scene at work

The robot of a scene passes its moves through the bounds, the walls in order and the policies of
clients, and tells the first observers, the finish and the later observers about them. A wall tells
the wall-hit observers; the finish stops the program and, once in each attempt, tells the
completion observers. A scene plays one program at a time.
-/

namespace GridPuzzle.Session

variable (perform : Perform)

/-- Tell callbacks of one kind about something, in order; `event` is what each writes down. -/
def tellCallbacks {ν : Type} (event : String → Event) (x : ν) :
    List (Callback ν) → Session → Outcome Unit × Session
  | [], s => (.value (), s)
  | c :: rest, s =>
    andThen (performAll perform (c.requests x) (s.record (event c.tag))) fun _ s =>
      tellCallbacks event x rest s

/-- A wall of the scene has refused a move. Nobody is told once the scene is gone. -/
def wallHit (m : Move) (s : Session) : Outcome Unit × Session :=
  if s.scene.present then
    tellCallbacks perform (.bumped · m) m s.scene.wallObservers (note (.bumped m.target) s)
  else
    (.value (), s)

/-- The finish has been reached: stop the program, and tell the completion observers the first
time. -/
def finishReached (p : Position) (s : Session) : Outcome Unit × Session :=
  andThen (stopCurrent perform s) fun _ s =>
    if s.scene.complete then
      (.value (), s)
    else
      tellCallbacks perform (.completed · p) p s.scene.completionObservers
        (note (.levelComplete p) { s with scene.complete := true })

/-- A guard as an acceptor of the robot. -/
def guardAcceptor : Guard → Acceptor Session
  | .bounds b => b.acceptor
  | .wall w => w.acceptor (wallHit perform)
  | .policy verdict => fun m view s => (.value (verdict m view), s)

/-- The scene as the host of its finish. -/
def host : Host Session := ⟨fun s => s.scene.present, finishReached perform⟩

/-- A watcher as an observer of the robot. -/
def watcherObserver : Watcher → Observer Session
  | .finish f => f.observer (host perform)
  | .client c => fun m view s =>
    performAll perform (c.requests m) (s.record (.moved c.tag m view.position))

/-- The robot of the scene. -/
def robot (s : Session) : Robot Session where
  position := s.scene.position
  start := s.scene.start
  sprite := s.scene.robotSprite
  acceptors := s.scene.guards.map (guardAcceptor perform)
  observers := s.scene.watchers.map (watcherObserver perform)

/-- Try a single step of the robot; the answer says whether the move was made. -/
def step (d : Direction) (s : Session) : Outcome Bool × Session :=
  let (answer, robot, after) := (s.robot perform).step d s
  -- the robot is away meanwhile: nothing that a callback asks for changes where it stands
  (answer, { after with scene.position := robot.position })

/-- Put the robot back on its start. -/
def reset (s : Session) : Session := { s with scene.position := s.scene.start }

/-- The robot of a scene is shared, and steps the same whether its lock is poisoned or not. -/
theorem step_shared (d : Direction) (s : Session) (poisoned : Bool) :
    step perform d s =
      let (answer, l, after) := SharedRobot.step ⟨s.robot perform, poisoned⟩ d s
      (answer, { after with scene.position := l.recover.position }) := by
  simp only [SharedRobot.step, Locked.recover_eq]
  rfl

/-- It is reset the same as well. -/
theorem reset_shared (s : Session) (poisoned : Bool) :
    reset s = { s with
      scene.position := (SharedRobot.reset ⟨s.robot perform, poisoned⟩).recover.position } := by
  simp only [SharedRobot.reset, Locked.recover_eq]
  rfl

/-- Let the scene play a text: refused while another program is running, and otherwise the new
program takes the slot, a new attempt begins and the robot goes back to its start. -/
def play (inRuntime : Bool) (source : String) (s : Session) : Outcome PlayAnswer × Session :=
  if !inRuntime then
    (.value (.refused .noRuntime), s)
  else if s.isPlaying then
    (.value (.refused .programRunning), note .rejected s)
  else
    let p := s.programs.size
    let program := Program.ofSource source s.scene.delay s.scene.statusObservers
    let s := noteAll (compileRemarks source) s
    let (claimed, s) := claim p { s with programs := s.programs.push program }
    let s := reset { s with scene.slot := some p, scene.complete := false }
    if claimed then
      andThen (startClaimed perform p (note (.playing program.length) s)) fun k s =>
        (.value (.started k), s)
    else
      (.value .idle, s)

end GridPuzzle.Session
