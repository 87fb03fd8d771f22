import GridPuzzle.Journal
import GridPuzzle.Level.Basic
import GridPuzzle.Program.Basic

/-!
# Sessions

A session is everything that exists while somebody plays: one scene with its robot, every program
made so far, the tasks that play them, and the clock with the runtime's timer, which may be any. It
also keeps what callbacks wrote down and what the library remarked, each in order.
-/

namespace GridPuzzle

/-- Tasks are numbered in the order in which they are started. -/
abbrev TaskId := Nat

/-- How a task ended. -/
inductive Ending
  /-- It returned the status of its program. -/
  | returned (status : Status)
  /-- A callback panicked inside it. -/
  | panicked
  deriving DecidableEq, Repr

/-- Where a task is in its playback. -/
inductive TaskState
  /-- It has not begun; it was started at this time. -/
  | ready (since : Nat)
  /-- It sleeps until a time, with so many actions left to play. -/
  | asleep (left wake : Nat)
  | ended (how : Ending)
  deriving DecidableEq, Repr

/-- One playback of a program. -/
structure Task where
  program : ProgramId
  state : TaskState
  /-- Whether somebody has taken the task's result. -/
  joined : Bool := false
  deriving DecidableEq, Repr

/-- The acceptors of a scene's robot. -/
inductive Guard
  | bounds (b : Bounds)
  | wall (w : Wall)
  /-- A policy of a client. -/
  | policy (verdict : Move → Snapshot → Bool)

/-- The observers of a scene's robot. -/
inductive Watcher
  | finish (f : Finish)
  | client (c : Callback Move)

/-- A level being played. -/
structure Scene where
  /-- Where the robot stands. -/
  position : Position
  /-- The cell on which the robot starts. -/
  start : Position
  robotSprite : String
  guards : List Guard
  watchers : List Watcher
  bounds : Bounds
  walls : List Wall
  finish : Finish
  delay : Delay
  /-- The program accepted last. -/
  slot : Option ProgramId := none
  /-- Whether the finish has been reached since a program was accepted. -/
  complete : Bool := false
  /-- Whether somebody still holds the scene; its robot lives on without it. -/
  present : Bool := true
  /-- The observers given to every program accepted from now on. -/
  statusObservers : List (Callback StatusNotice) := []
  completionObservers : List (Callback Position) := []
  wallObservers : List (Callback Move) := []

/-- The scene of a level, with observers that are told about a move before the finish is. -/
def Scene.ofLevel (l : Level) (observers : List (Callback Move)) : Scene where
  position := l.robot
  start := l.robot
  robotSprite := l.sprites.robot
  guards := .bounds l.bounds :: l.wallEntities.map .wall
  watchers := observers.map .client ++ [.finish l.finishEntity]
  bounds := l.bounds
  walls := l.wallEntities
  finish := l.finishEntity
  delay := l.delay

/-- Why a scene does not play a text. -/
inductive PlayError
  /-- Another program is still running. -/
  | programRunning
  /-- There is nothing to play tasks on. -/
  | noRuntime
  deriving DecidableEq, Repr

/-- The wording of an error. -/
def PlayError.message : PlayError → String
  | programRunning => "Please wait, the program is still running"
  | noRuntime => "Programs can only be played inside a tokio runtime"

/-- The form of an error in reports. -/
def PlayError.labelled : PlayError → String
  | programRunning => "ProgramRunning"
  | noRuntime => "NoRuntime"

/-- What a scene answers when it is asked to play a text. -/
inductive PlayAnswer
  | refused (why : PlayError)
  /-- The text holds no step, so there is nothing to play. -/
  | idle
  | started (task : TaskId)
  deriving DecidableEq, Repr

/-- What a callback wrote down. -/
inductive Event
  /-- A status observer was told about a change. -/
  | status (tag : String) (notice : StatusNotice)
  /-- An action of a client was played. -/
  | action (program : ProgramId) (index : Nat) (name : String)
  /-- A callback started a program, and this is whether that worked. -/
  | started (program : ProgramId) (accepted : Bool)
  /-- A callback let the scene play a text, and this was the answer. -/
  | played (answer : PlayAnswer)
  /-- A move observer saw a move and where the robot stood then. -/
  | moved (tag : String) (m : Move) (position : Position)
  /-- A wall-hit observer was told about a refused move. -/
  | bumped (tag : String) (m : Move)
  /-- A completion observer was told about the arrival. -/
  | completed (tag : String) (finish : Position)
  deriving DecidableEq, Repr

/-- A follower of a program's status: which program, and how many changes it has seen. -/
structure Receiver where
  program : ProgramId
  seen : Nat
  deriving DecidableEq, Repr

/-- Everything that exists while somebody plays. -/
structure Session where
  scene : Scene
  /-- The clock, in milliseconds. -/
  now : Nat := 0
  /-- The timer of the runtime on which tasks sleep. -/
  timer : Timer := .usual
  /-- Every program made so far. -/
  programs : Array Program := #[]
  /-- Every task started so far. -/
  tasks : Array Task := #[]
  receivers : Array Receiver := #[]
  events : Array Event := #[]
  remarks : Array Remark := #[]

instance : Journal Session := ⟨fun r s => { s with remarks := s.remarks.push r }⟩

namespace Session

/-- The session of a level that is playable, or the level's problem. -/
def ofLevel (l : Level) (observers : List (Callback Move)) : Except LevelProblem Session :=
  match l.problem? with
  | some problem => .error problem
  | none => .ok <|
    note (.sceneReady l.bounds.width l.bounds.height l.robot l.finish l.walls.length)
      { scene := .ofLevel l observers }

/-- A session in which a client has made one program of its own, beside the scene of the standard
level. -/
def ofProgram (p : Program) : Session := { scene := .ofLevel .standard [], programs := #[p] }

/-- Write an event down. -/
def record (s : Session) (e : Event) : Session := { s with events := s.events.push e }

/-- The status of a program, if it exists. -/
def status? (s : Session) (p : ProgramId) : Option Status := s.programs[p]?.map Program.status

/-- Whether a program is running. -/
def isRunning (s : Session) (p : ProgramId) : Bool := s.status? p == some .running

/-- Whether the program accepted last is running. -/
def isPlaying (s : Session) : Bool :=
  match s.scene.slot with
  | some p => s.isRunning p
  | none => false

/-- Move a program on to another status. -/
def setStatus (s : Session) (p : ProgramId) (status : Status) : Session :=
  { s with programs := s.programs.modify p (·.become status) }

/-- Append a status observer to a program. -/
def subscribe (s : Session) (p : ProgramId) (c : Callback StatusNotice) : Session :=
  { s with programs := s.programs.modify p fun q => { q with observers := q.observers ++ [c] } }

/-- Set the state of a task. -/
def setTask (s : Session) (k : TaskId) (state : TaskState) : Session :=
  { s with tasks := s.tasks.modify k fun t => { t with state } }

section Fields

variable (s : Session)

@[simp] theorem scene_note (r : Remark) : (note r s).scene = s.scene := rfl

@[simp] theorem now_note (r : Remark) : (note r s).now = s.now := rfl

@[simp] theorem programs_note (r : Remark) : (note r s).programs = s.programs := rfl

@[simp] theorem tasks_note (r : Remark) : (note r s).tasks = s.tasks := rfl

@[simp] theorem events_note (r : Remark) : (note r s).events = s.events := rfl

@[simp] theorem scene_record (e : Event) : (s.record e).scene = s.scene := rfl

@[simp] theorem now_record (e : Event) : (s.record e).now = s.now := rfl

@[simp] theorem programs_record (e : Event) : (s.record e).programs = s.programs := rfl

@[simp] theorem tasks_record (e : Event) : (s.record e).tasks = s.tasks := rfl

@[simp] theorem scene_setStatus (p : ProgramId) (status : Status) :
    (s.setStatus p status).scene = s.scene := rfl

@[simp] theorem now_setStatus (p : ProgramId) (status : Status) :
    (s.setStatus p status).now = s.now := rfl

@[simp] theorem tasks_setStatus (p : ProgramId) (status : Status) :
    (s.setStatus p status).tasks = s.tasks := rfl

@[simp] theorem events_setStatus (p : ProgramId) (status : Status) :
    (s.setStatus p status).events = s.events := rfl

@[simp] theorem scene_setTask (k : TaskId) (state : TaskState) :
    (s.setTask k state).scene = s.scene := rfl

@[simp] theorem programs_setTask (k : TaskId) (state : TaskState) :
    (s.setTask k state).programs = s.programs := rfl

@[simp] theorem events_setTask (k : TaskId) (state : TaskState) :
    (s.setTask k state).events = s.events := rfl

end Fields

/-- The status of a program depends on the programs only. -/
theorem status?_congr {s t : Session} (h : t.programs = s.programs) (p : ProgramId) :
    t.status? p = s.status? p := by
  unfold status?
  rw [h]

/-- Whether a program runs depends on the programs only. -/
theorem isRunning_congr {s t : Session} (h : t.programs = s.programs) (p : ProgramId) :
    t.isRunning p = s.isRunning p := by
  unfold isRunning
  rw [status?_congr h]

/-- Whether the scene plays depends on the programs and the slot only. -/
theorem isPlaying_congr {s t : Session} (h : t.programs = s.programs)
    (hslot : t.scene.slot = s.scene.slot) : t.isPlaying = s.isPlaying := by
  unfold isPlaying
  rw [hslot]
  cases s.scene.slot with
  | none => rfl
  | some p => exact isRunning_congr h p

/-- A program runs when it exists and its status says so. -/
theorem isRunning_iff {s : Session} {p : ProgramId} :
    s.isRunning p = true ↔ s.status? p = some .running := by
  unfold isRunning
  exact beq_iff_eq

/-- The scene plays when the program in its slot runs. -/
theorem isPlaying_iff {s : Session} :
    s.isPlaying = true ↔ ∃ p, s.scene.slot = some p ∧ s.isRunning p = true := by
  unfold isPlaying
  cases s.scene.slot with
  | none => simp
  | some p => simp

/-- A change of status reaches one program. -/
theorem status?_setStatus (s : Session) (p p' : ProgramId) (status : Status) :
    (s.setStatus p status).status? p' =
      if p = p' then (s.status? p').map fun _ => status else s.status? p' := by
  simp only [status?, setStatus, Array.getElem?_modify]
  split
  · cases s.programs[p']? <;> rfl
  · rfl

/-- A subscription leaves every status as it is. -/
@[simp] theorem status?_subscribe (s : Session) (p p' : ProgramId) (c : Callback StatusNotice) :
    (s.subscribe p c).status? p' = s.status? p' := by
  simp only [status?, subscribe, Array.getElem?_modify]
  split
  · cases s.programs[p']? <;> rfl
  · rfl

end Session

end GridPuzzle
