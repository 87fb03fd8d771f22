import GridPuzzle.Program.Delay
import GridPuzzle.Robot.Finish
import GridPuzzle.Robot.Wall

/-!
# Levels

A level is all that a scene is set up from. It is playable when its bounds are not empty, its
robot, its finish and its walls lie inside them, neither robot nor finish shares a cell with a
wall, and the robot does not start on the finish. The check reports the first problem in this
order.
-/

namespace GridPuzzle

/-- The kinds of things on the grid. -/
inductive Entity
  | robot
  | finish
  | wall
  deriving DecidableEq, Repr

namespace Entity

/-- The word for an entity inside a sentence. -/
def word : Entity → String
  | robot => "robot"
  | finish => "finish"
  | wall => "wall"

/-- The word for an entity with a capital letter. -/
def name : Entity → String
  | robot => "Robot"
  | finish => "Finish"
  | wall => "Wall"

end Entity

/-- The images of a level. -/
structure SpriteSet where
  robot : String := defaultRobotSprite
  finish : String := defaultFinishSprite
  wall : String := defaultWallSprite
  deriving DecidableEq, Repr

/-- The pause after each step unless the level chooses another one, in milliseconds. -/
def defaultStepDelay : UInt64 := 500

/-- Everything that a scene is set up from. -/
structure Level where
  name : String := ""
  robot : Position
  bounds : Bounds
  walls : List Position := []
  finish : Position
  /-- The pause after each step, in milliseconds. -/
  stepDelay : UInt64 := defaultStepDelay
  sprites : SpriteSet := {}
  deriving DecidableEq, Repr

/-- Why a level cannot be played. -/
inductive LevelProblem
  | emptyBounds (b : Bounds)
  | outsideBounds (e : Entity) (p : Position)
  | wallOverlap (e : Entity) (p : Position)
  | startsOnFinish (p : Position)
  deriving DecidableEq, Repr

namespace LevelProblem

/-- The wording of a problem. -/
def message : LevelProblem → String
  | emptyBounds b =>
    "Grid bounds are empty: x " ++ Text.integer b.x.min.toInt ++ "..=" ++ Text.integer b.x.max.toInt
      ++ ", y " ++ Text.integer b.y.min.toInt ++ "..=" ++ Text.integer b.y.max.toInt
  | outsideBounds e p => "The " ++ e.word ++ " at " ++ p.text ++ " lies outside the grid"
  | wallOverlap e p => "The " ++ e.word ++ " at " ++ p.text ++ " shares its cell with a wall"
  | startsOnFinish p => "The robot already starts on the finish at " ++ p.text

/-- The written form of a problem, with the names of the fields. -/
def labelled : LevelProblem → String
  | emptyBounds b =>
    "EmptyBounds \x7b x_min: " ++ Text.integer b.x.min.toInt ++ ", x_max: "
      ++ Text.integer b.x.max.toInt ++ ", y_min: " ++ Text.integer b.y.min.toInt ++ ", y_max: "
      ++ Text.integer b.y.max.toInt ++ " \x7d"
  | outsideBounds e p =>
    "OutsideBounds \x7b entity: " ++ Text.quoted e.word ++ ", pos: " ++ p.labelled ++ " \x7d"
  | wallOverlap e p =>
    "WallOverlap \x7b entity: " ++ Text.quoted e.word ++ ", pos: " ++ p.labelled ++ " \x7d"
  | startsOnFinish p => "StartsOnFinish(" ++ p.labelled ++ ")"

end LevelProblem

namespace Level

/-- A field of five by five cells, the robot in the bottom right corner and the finish in the
middle. -/
def standard : Level where
  name := "default"
  robot := ⟨4, 4⟩
  bounds := .ofCorners 0 0 4 4
  finish := ⟨2, 2⟩

/-- Everything that has a position, in the order in which it is checked. -/
def placed (l : Level) : List (Entity × Position) :=
  (.robot, l.robot) :: (.finish, l.finish) :: l.walls.map (Entity.wall, ·)

/-- The first problem that keeps a level from being played. -/
def problem? (l : Level) : Option LevelProblem :=
  if l.bounds.x.isEmpty || l.bounds.y.isEmpty then
    some (.emptyBounds l.bounds)
  else
    match l.placed.find? fun e => !l.bounds.contains e.2 with
    | some (e, p) => some (.outsideBounds e p)
    | none =>
      if l.walls.contains l.robot then
        some (.wallOverlap .robot l.robot)
      else if l.walls.contains l.finish then
        some (.wallOverlap .finish l.finish)
      else if l.robot = l.finish then
        some (.startsOnFinish l.finish)
      else
        none

/-- The pause after each step. -/
def delay (l : Level) : Delay := .ofMillis l.stepDelay.toNat

/-- The walls of a level, with their image. -/
def wallEntities (l : Level) : List Wall := l.walls.map (⟨·, l.sprites.wall⟩)

/-- The finish of a level, with its image. -/
def finishEntity (l : Level) : Finish := ⟨l.finish, l.sprites.finish⟩

end Level

end GridPuzzle
