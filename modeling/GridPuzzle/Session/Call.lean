import GridPuzzle.Session.Clock
import GridPuzzle.Session.Orphan

/-!
# What clients do

A call is one thing that a client of a session does; a session is worked through call by call. What
a call did is its answer and the events written down meanwhile.
-/

namespace GridPuzzle

/-- One thing that a client does. -/
inductive Call
  /-- Let time pass, in milliseconds. -/
  | advance (ms : Nat)
  /-- Wait for the end of a task. -/
  | join (k : TaskId) (ms : Nat)
  /-- Start a program by its handle, inside or outside a runtime. -/
  | start (inRuntime : Bool) (p : ProgramId)
  /-- Stop a program by its handle. -/
  | stop (p : ProgramId)
  /-- Subscribe a status observer to a program. -/
  | subscribe (p : ProgramId) (c : Callback StatusNotice)
  /-- Wait for the final status of a program. -/
  | waitFinal (p : ProgramId) (ms : Nat)
  /-- Follow the status of a program. -/
  | watch (p : ProgramId)
  /-- Look at everything that is followed. -/
  | pollWatch
  /-- Let the scene play a text, inside or outside a runtime. -/
  | play (inRuntime : Bool) (source : String)
  /-- Stop the program that the scene plays. -/
  | stopCurrent
  /-- Wait for the final status of the scene's program. -/
  | waitCurrent (ms : Nat)
  /-- Step the robot of the scene, outside any program. -/
  | step (d : Direction)
  /-- Put the robot of the scene back on its start. -/
  | reset
  /-- Tell the scene that its finish has been reached. -/
  | finishReached (p : Position)
  /-- Subscribe an observer of moves, after the finish. -/
  | onMove (c : Callback Move)
  /-- Subscribe an observer to every program accepted from now on. -/
  | onStatus (c : Callback StatusNotice)
  | onComplete (c : Callback Position)
  | onWall (c : Callback Move)
  /-- Subscribe a policy to the robot, after bounds and walls. -/
  | guard (verdict : Move → Snapshot → Bool)
  /-- Let go of the scene; its robot lives on. -/
  | dropScene
  /-- Only look. -/
  | look

/-- What a call answers. -/
inductive CallAnswer
  | none
  /-- A callback panicked, and the panic came through. -/
  | panicked
  | joined (result : Session.Waited Ending)
  | started (task : Option TaskId)
  | waited (result : Session.Waited Status)
  /-- For everything followed: whether the status has changed since it was seen last, and the
  status. -/
  | polled (seen : List (Bool × Status))
  | played (answer : PlayAnswer)
  | stepped (committed : Bool)
  deriving DecidableEq, Repr

namespace Session

/-- Keep the answer of a call that ended with a value. -/
def answered {α : Type} (f : α → CallAnswer) (call : Outcome α × Session) : CallAnswer × Session :=
  match call with
  | (.value a, s) => (f a, s)
  | (.panicked, s) => (.panicked, s)

/-- Begin to follow a program; its present status counts as seen. -/
def watch (p : ProgramId) (s : Session) : Session :=
  { s with receivers := s.receivers.push ⟨p, ((s.programs[p]?).map Program.version).getD 0⟩ }

/-- Look at everything followed, and count it as seen. -/
def pollWatch (s : Session) : List (Bool × Status) × Session :=
  let looked := s.receivers.toList.map fun r =>
    match s.programs[r.program]? with
    | some q => (q.version != r.seen, q.status)
    | none => (false, .stopped)
  let receivers := s.receivers.map fun r =>
    { r with seen := ((s.programs[r.program]?).map Program.version).getD r.seen }
  (looked, { s with receivers })

/-- Carry out one call. -/
def call (perform : Perform) : Call → Session → CallAnswer × Session
  | .advance ms, s => (.none, advance perform ms s)
  | .join k ms, s =>
    let (result, s) := join perform k ms s
    (.joined result, s)
  | .start inRuntime p, s => answered .started (start perform inRuntime p s)
  | .stop p, s => answered (fun _ => .none) (stop perform p s)
  | .subscribe p c, s => (.none, s.subscribe p c)
  | .waitFinal p ms, s =>
    let (result, s) := waitFinal perform p ms s
    (.waited result, s)
  | .watch p, s => (.none, watch p s)
  | .pollWatch, s =>
    let (looked, s) := pollWatch s
    (.polled looked, s)
  | .play inRuntime source, s => answered .played (play perform inRuntime source s)
  | .stopCurrent, s => answered (fun _ => .none) (stopCurrent perform s)
  | .waitCurrent ms, s =>
    let (result, s) := waitCurrent perform ms s
    (.waited result, s)
  | .step d, s => answered .stepped (step perform d s)
  | .reset, s => (.none, reset s)
  | .finishReached p, s => answered (fun _ => .none) (finishReached perform p s)
  | .onMove c, s => (.none, { s with scene.watchers := s.scene.watchers ++ [.client c] })
  | .onStatus c, s =>
    (.none, { s with scene.statusObservers := s.scene.statusObservers ++ [c] })
  | .onComplete c, s =>
    (.none, { s with scene.completionObservers := s.scene.completionObservers ++ [c] })
  | .onWall c, s => (.none, { s with scene.wallObservers := s.scene.wallObservers ++ [c] })
  | .guard verdict, s => (.none, { s with scene.guards := s.scene.guards ++ [.policy verdict] })
  | .dropScene, s => (.none, dropScene s)
  | .look, s => (.none, s)

/-- What a call did: its answer, the events during it, and the session after it. -/
structure CallStep where
  answer : CallAnswer
  events : List Event
  after : Session

/-- Carry out calls in order, with what each of them did. -/
def run (perform : Perform) : List Call → Session → List CallStep × Session
  | [], s => ([], s)
  | c :: cs, s =>
    let before := s.events.size
    let (answer, after) := call perform c s
    let (steps, last) := run perform cs after
    (⟨answer, after.events.toList.drop before, after⟩ :: steps, last)

end Session

end GridPuzzle
