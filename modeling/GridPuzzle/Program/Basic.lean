import GridPuzzle.Program.Delay
import GridPuzzle.Program.Token
import GridPuzzle.Program.Status
import GridPuzzle.Text.Quoted

/-!
# Programs and their callbacks

A program is one playback of some actions. Its status moves forward only, and every status it has
left is kept. Callbacks are data: what a callback writes down is its tag, and what it does is a
list of requests that depends on what it is told.
-/

namespace GridPuzzle

/-- Programs are numbered in the order in which they are made. -/
abbrev ProgramId := Nat

/-- What a callback asks for, beyond writing down that it was called. -/
inductive Request
  /-- Stop a program by its handle. -/
  | stop (p : ProgramId)
  /-- Start a program by its handle. -/
  | start (p : ProgramId)
  /-- Subscribe an observer to a program that only writes down. -/
  | subscribe (p : ProgramId) (tag : String)
  /-- Stop the program that the scene plays. -/
  | stopCurrent
  /-- Let the scene play a text. -/
  | play (source : String)
  /-- Panic. -/
  | panic
  deriving DecidableEq, Repr

/-- A callback: it writes its tag down, and then asks for something. -/
structure Callback (ν : Type) where
  tag : String
  requests : ν → List Request

/-- A callback that only writes down. -/
def Callback.recorder {ν : Type} (tag : String) : Callback ν := ⟨tag, fun _ => []⟩

/-- What a status observer is told, and what it finds when it looks around. -/
structure StatusNotice where
  program : ProgramId
  source : String
  /-- How many actions the program has. -/
  length : Nat
  new : Status
  old : Status
  /-- The status at the moment of the call, which may be a later one than `new`. -/
  current : Status
  /-- Whether the level is complete at the moment of the call. -/
  complete : Bool
  /-- Where the robot stands at the moment of the call; a move that is still being announced does
  not count yet. -/
  position : Position
  deriving DecidableEq, Repr

/-- One step of a program. -/
inductive Action
  /-- Move the robot of the scene. -/
  | command (d : Direction)
  /-- Write a name down, and then ask for something. -/
  | script (name : String) (requests : List Request)
  deriving DecidableEq, Repr

/-- One playback of some actions; it runs at most once. -/
structure Program where
  source : String
  actions : Array Action
  delay : Delay
  status : Status := .stopped
  /-- Every status that the program has left, the latest first. -/
  past : List Status := []
  /-- The status observers, in the order of their subscription. -/
  observers : List (Callback StatusNotice) := []

namespace Program

/-- How many actions a program has. -/
def length (p : Program) : Nat := p.actions.size

/-- A program without actions is never started. -/
def isEmpty (p : Program) : Bool := p.length == 0

/-- How often the status has changed. -/
def version (p : Program) : Nat := p.past.length

/-- Every status so far, from the first to the present one. -/
def history (p : Program) : List Status := (p.status :: p.past).reverse

/-- Move on to another status. -/
def become (p : Program) (status : Status) : Program :=
  { p with status := status, past := p.status :: p.past }

/-- A program can be claimed when it has actions and has never been started or stopped. -/
def isClaimable (p : Program) : Bool := !p.isEmpty && p.status == .stopped

/-- The program of a text, its commands bound to the scene's robot. -/
def ofSource (source : String) (delay : Delay) (observers : List (Callback StatusNotice)) :
    Program :=
  { source, actions := ((compile source).map Action.command).toArray, delay, observers }

/-- The written form of a program, with the names of the fields. -/
def labelled (p : Program) : String :=
  "Program \x7b source: " ++ Text.quoted p.source ++ ", actions: " ++ Text.natural p.length
    ++ ", step_delay: " ++ p.delay.text ++ ", status: " ++ p.status.name ++ " \x7d"

end Program

end GridPuzzle
