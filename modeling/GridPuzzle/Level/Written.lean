import GridPuzzle.Json.Read
import GridPuzzle.Json.Value
import GridPuzzle.Level.Basic

/-!
# Levels as JSON

A level is an object of seven members. Robot, bounds and finish are required; the others have their
usual values when they are missing, except that a level without a name has an empty one. A member
with another key is a fault in the level itself and is skimmed in the objects inside it.
-/

namespace GridPuzzle

open Json

/-- The record of a position. -/
def positionRecord : Record (Option Int32 × Option Int32) Position :=
  pairRecord "struct Position" "x" "y" Tree.readInt32 Tree.readInt32 Position.mk

/-- The record of a range. -/
def rangeRecord : Record (Option Int32 × Option Int32) AxisRange :=
  pairRecord "struct AxisRange" "min" "max" Tree.readInt32 Tree.readInt32 AxisRange.mk

/-- The record of bounds. -/
def boundsRecord : Record (Option AxisRange × Option AxisRange) Bounds :=
  pairRecord "struct GridBoundary" "x" "y" rangeRecord.read rangeRecord.read Bounds.mk

/-- The images of a level while they are read. -/
structure SpriteDraft where
  robot : Option String := none
  finish : Option String := none
  wall : Option String := none

/-- The record of the images; all of them may be missing. -/
def spriteRecord : Record SpriteDraft SpriteSet where
  title := "struct SpriteSet"
  fields := [
    .usual "robot" SpriteDraft.robot (fun s d => { d with robot := some s }) Tree.readText,
    .usual "finish" SpriteDraft.finish (fun s d => { d with finish := some s }) Tree.readText,
    .usual "wall" SpriteDraft.wall (fun s d => { d with wall := some s }) Tree.readText]
  strict := false
  empty := {}
  complete := fun d => .ok {
    robot := d.robot.getD defaultRobotSprite
    finish := d.finish.getD defaultFinishSprite
    wall := d.wall.getD defaultWallSprite }

/-- A level while it is read. -/
structure LevelDraft where
  name : Option String := none
  robot : Option Position := none
  bounds : Option Bounds := none
  walls : Option (List Position) := none
  finish : Option Position := none
  stepDelay : Option UInt64 := none
  sprites : Option SpriteSet := none

/-- Complete the draft of a level. -/
def LevelDraft.complete (d : LevelDraft) : Except Fault Level :=
  (need "robot" d.robot).bind fun robot =>
  (need "bounds" d.bounds).bind fun bounds =>
  (need "finish" d.finish).bind fun finish =>
  .ok {
    name := d.name.getD ""
    robot
    bounds
    walls := d.walls.getD []
    finish
    stepDelay := d.stepDelay.getD defaultStepDelay
    sprites := d.sprites.getD {} }

/-- The record of a level. -/
def levelRecord : Record LevelDraft Level where
  title := "struct LevelDefinition"
  fields := [
    .usual "name" LevelDraft.name (fun a d => { d with name := some a }) Tree.readText,
    .required "robot" LevelDraft.robot (fun a d => { d with robot := some a }) positionRecord.read,
    .required "bounds" LevelDraft.bounds (fun a d => { d with bounds := some a })
      boundsRecord.read,
    .usual "walls" LevelDraft.walls (fun a d => { d with walls := some a })
      (Tree.readList positionRecord.read),
    .required "finish" LevelDraft.finish (fun a d => { d with finish := some a })
      positionRecord.read,
    .usual "step_delay_ms" LevelDraft.stepDelay (fun a d => { d with stepDelay := some a })
      Tree.readUInt64,
    .usual "sprites" LevelDraft.sprites (fun a d => { d with sprites := some a })
      spriteRecord.read]
  strict := true
  empty := {}
  complete := LevelDraft.complete

/-- Why a text gives no level. -/
inductive LevelFault
  | malformed (f : Fault)
  | unplayable (p : LevelProblem)
  deriving DecidableEq, Repr

namespace Level

/-- Read a level from a text, playable or not. -/
def read (text : String) : Except Fault Level := readDocument levelRecord.read text

/-- Read a playable level from a text. -/
def ofText (text : String) : Except LevelFault Level :=
  match read text with
  | .error f => .error (.malformed f)
  | .ok l =>
    match l.problem? with
    | some p => .error (.unplayable p)
    | none => .ok l

end Level

/-- A coordinate as a value. -/
def coordinateValue (c : Int32) : Value := .integer c.toInt

/-- A position as a value. -/
def Position.value (p : Position) : Value :=
  .object [("x", coordinateValue p.x), ("y", coordinateValue p.y)]

/-- A range as a value. -/
def AxisRange.value (r : AxisRange) : Value :=
  .object [("min", coordinateValue r.min), ("max", coordinateValue r.max)]

/-- Bounds as a value. -/
def Bounds.value (b : Bounds) : Value := .object [("x", b.x.value), ("y", b.y.value)]

/-- Images as a value. -/
def SpriteSet.value (s : SpriteSet) : Value :=
  .object [("robot", .text s.robot), ("finish", .text s.finish), ("wall", .text s.wall)]

/-- A level as a value, with all of its members. -/
def Level.value (l : Level) : Value :=
  .object [
    ("name", .text l.name),
    ("robot", l.robot.value),
    ("bounds", l.bounds.value),
    ("walls", .list (l.walls.map Position.value)),
    ("finish", l.finish.value),
    ("step_delay_ms", .integer l.stepDelay.toNat),
    ("sprites", l.sprites.value)]

/-- The pretty text of a level. -/
def Level.prettyText (l : Level) : String := l.value.prettyText

end GridPuzzle
