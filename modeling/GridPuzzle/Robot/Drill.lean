import GridPuzzle.Robot.Bench
import GridPuzzle.Robot.Shared

/-!
# Drills

A drill compiles a text for a robot on the bench, compiles it again for another robot, and carries
out the commands of the first compilation without any delay.
-/

namespace GridPuzzle.Drill

/-- The obstacles and the start of the drilled robot, and its text. -/
structure Plan where
  text : String
  start : Position
  bounds : Option Bounds
  walls : List Position

/-- The robot of a plan: the bounds come first, then the walls in order. -/
def Plan.robot (p : Plan) : Robot Bench.Log :=
  let bounded : Robot Bench.Log := match p.bounds with
    | some b => (Robot.ofPosition p.start).subscribeAcceptor b.acceptor
    | none => Robot.ofPosition p.start
  p.walls.foldl (fun r w =>
    let wall := Wall.ofPosition w
    r.subscribeAcceptor (wall.acceptor wall.warn)) bounded

/-- What a drill did. -/
structure Report where
  commands : List Command
  /-- The commands of the same text for the other robot. -/
  others : List Command
  /-- Where the robot stood after the compilation. -/
  compiledAt : Position
  /-- Which commands moved the robot. -/
  committed : List (Outcome Bool)
  position : Position
  remarks : List Remark

/-- Carry out commands in order on the robot that they share. -/
def carryOut : List Command → SharedRobot Bench.Log → Bench.Log →
    List (Outcome Bool) × SharedRobot Bench.Log × Bench.Log
  | [], l, log => ([], l, log)
  | c :: cs, l, log =>
    let (answer, l, log) := c.invoke l log
    let (answers, l, log) := carryOut cs l log
    (answer :: answers, l, log)

/-- Carry out a whole plan. -/
def Plan.run (p : Plan) : Report :=
  let commands := Command.ofText 0 p.text
  let others := Command.ofText 1 p.text
  let log : Bench.Log := noteAll (compileRemarks p.text ++ compileRemarks p.text) {}
  let (committed, shared, log) := carryOut commands ⟨p.robot, false⟩ log
  ⟨commands, others, p.robot.position, committed, shared.recover.position, log.remarks.toList⟩

end GridPuzzle.Drill
