import GridPuzzle.Program.Token
import GridPuzzle.Robot.Finish
import GridPuzzle.Robot.Wall

/-!
# A robot on a bench

A bench is a robot without a scene, whose callbacks only write down what they see. Its log holds
events and remarks in the order in which they happened. One host, which only writes down, stands
for the level of every finish and may be taken away.
-/

namespace GridPuzzle.Bench

/-- What a callback on the bench wrote down. -/
inductive Event
  /-- An acceptor saw a move from a position and gave its verdict. -/
  | accepted (tag : String) (m : Move) (position : Position) (verdict : Bool)
  /-- An observer saw a move that had been made. -/
  | moved (tag : String) (m : Move) (position : Position)
  /-- A wall refused a move. -/
  | bumped (m : Move)
  /-- The host was told about an arrival. -/
  | finished (p : Position)
  deriving DecidableEq, Repr

/-- What the callbacks act on. -/
structure Log where
  events : Array Event := #[]
  remarks : Array Remark := #[]
  /-- Whether the host of the finishes is there. -/
  hosted : Bool := true
  deriving Repr

instance : Journal Log := ⟨fun r log => { log with remarks := log.remarks.push r }⟩

/-- Write an event down. -/
def Log.record (log : Log) (e : Event) : Log := { log with events := log.events.push e }

/-- The verdict rules of the bench's acceptors. -/
inductive Rule
  | allow
  | deny
  | xAtLeast (n : Int)
  | yAtLeast (n : Int)
  /-- The coordinates of the target have an odd sum. -/
  | odd
  deriving DecidableEq, Repr

/-- Whether a rule lets a move pass. -/
def Rule.verdict (rule : Rule) (m : Move) : Bool :=
  match rule with
  | allow => true
  | deny => false
  | xAtLeast n => n ≤ m.target.x.toInt
  | yAtLeast n => n ≤ m.target.y.toInt
  | odd => (m.target.x.toInt + m.target.y.toInt) % 2 == 1

/-- An acceptor that writes down its verdict. -/
def acceptor (tag : String) (rule : Rule) : Acceptor Log := fun m view log =>
  (.value (rule.verdict m), log.record (.accepted tag m view.position (rule.verdict m)))

/-- An observer that writes down the move. -/
def observer (tag : String) : Observer Log := fun m view log =>
  (.value (), log.record (.moved tag m view.position))

/-- A notifier that writes down the refused move. -/
def bump (m : Move) (log : Log) : Outcome Unit × Log := (.value (), log.record (.bumped m))

/-- The host of the bench, which writes down each arrival. -/
def host : Host Log := ⟨Log.hosted, fun p log => (.value (), log.record (.finished p))⟩

/-- A robot together with the log of its callbacks. -/
structure State where
  robot : Robot Log
  log : Log

/-- What a client does on the bench. -/
inductive Call
  | step (d : Direction)
  | steps (d : Direction) (n : Nat)
  | reset
  | state
  | bounds (b : Bounds)
  | wall (p : Position) (notified : Bool)
  | finish (p : Position)
  | dropHost
  | acceptor (tag : String) (rule : Rule)
  | observer (tag : String)
  deriving Repr

/-- What a call answers. -/
inductive Answer
  | none
  | stepped (answer : Outcome Bool)
  | walked (answers : List (Outcome Bool))
  | state (view : Snapshot)
  deriving Repr

/-- Carry out one call. -/
def State.call (s : State) : Call → Answer × State
  | .step d =>
    let (answer, robot, log) := s.robot.step d s.log
    (.stepped answer, ⟨robot, log⟩)
  | .steps d n =>
    let (answers, robot, log) := Robot.steps d n s.robot s.log
    (.walked answers, ⟨robot, log⟩)
  | .reset => (.none, { s with robot := s.robot.reset })
  | .state => (.state s.robot.snapshot, s)
  | .bounds b => (.none, { s with robot := s.robot.subscribeAcceptor b.acceptor })
  | .wall p notified =>
    let wall := Wall.ofPosition p
    let onHit : Move → Log → Outcome Unit × Log := if notified then bump else wall.warn
    (.none, { s with robot := s.robot.subscribeAcceptor (wall.acceptor onHit) })
  | .finish p =>
    (.none, { s with robot := s.robot.subscribeObserver ((Finish.ofPosition p).observer host) })
  | .dropHost => (.none, { s with log := { s.log with hosted := false } })
  | .acceptor tag rule =>
    (.none, { s with robot := s.robot.subscribeAcceptor (acceptor tag rule) })
  | .observer tag => (.none, { s with robot := s.robot.subscribeObserver (observer tag) })

/-- What one call did: its answer, the robot's position after it, and the events during it. -/
structure Step where
  answer : Answer
  position : Position
  events : List Event

/-- Carry out calls in order, with what each of them did. -/
def State.run (s : State) : List Call → List Step × State
  | [] => ([], s)
  | c :: cs =>
    let before := s.log.events.size
    let (answer, after) := s.call c
    let (steps, last) := after.run cs
    (⟨answer, after.robot.position, after.log.events.toList.drop before⟩ :: steps, last)

end GridPuzzle.Bench
