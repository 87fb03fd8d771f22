import GridPuzzle.Journal
import GridPuzzle.Text.Quoted

/-!
# The robot and its move pipeline

A robot stands on a position and knows where it started. Callbacks act on a world `σ` of the
client's choice, but never on the robot itself, which they see as a snapshot. A step first asks the
acceptors, in the order of their subscription, until one refuses; a move that nobody refuses is
made, and then the observers are told in order. A callback may panic: the call then ends at once
and leaves the robot as it is at that moment.
-/

namespace GridPuzzle

/-- How a call ended: with a value, or cut short by a callback that panicked. -/
inductive Outcome (α : Type)
  | value (a : α)
  | panicked
  deriving DecidableEq, Repr

/-- Go on with the value of a call, or stay cut short; the world is kept either way. -/
def andThen {α β σ : Type} (call : Outcome α × σ) (next : α → σ → Outcome β × σ) :
    Outcome β × σ :=
  match call with
  | (.value a, w) => next a w
  | (.panicked, w) => (.panicked, w)

@[simp] theorem andThen_value {α β σ : Type} (a : α) (w : σ) (next : α → σ → Outcome β × σ) :
    andThen (.value a, w) next = next a w := rfl

@[simp] theorem andThen_panicked {α β σ : Type} (w : σ) (next : α → σ → Outcome β × σ) :
    andThen (.panicked, w) next = (.panicked, w) := rfl

/-- What a callback sees of a robot. -/
structure Snapshot where
  position : Position
  start : Position
  sprite : String
  /-- How many acceptors are subscribed. -/
  acceptors : Nat
  /-- How many observers are subscribed. -/
  observers : Nat
  deriving DecidableEq, Repr

/-- A veto policy: it answers whether the move may be made. -/
abbrev Acceptor (σ : Type) := Move → Snapshot → σ → Outcome Bool × σ

/-- Somebody who is told about each move that has been made. -/
abbrev Observer (σ : Type) := Move → Snapshot → σ → Outcome Unit × σ

/-- The image shown for a robot unless the level chooses another one. -/
def defaultRobotSprite : String := "img/Robot_37500.png"

/-- A robot whose callbacks act on a world `σ`. -/
structure Robot (σ : Type) where
  position : Position
  /-- Where the robot was made, and where a reset puts it. -/
  start : Position
  sprite : String
  /-- The acceptors, in the order of their subscription. -/
  acceptors : List (Acceptor σ)
  /-- The observers, in the order of their subscription. -/
  observers : List (Observer σ)

/-- Ask acceptors in order until one refuses. -/
def consult {σ : Type} (m : Move) (view : Snapshot) :
    List (Acceptor σ) → σ → Outcome Bool × σ
  | [], w => (.value true, w)
  | accept :: rest, w =>
    andThen (accept m view w) fun approved w =>
      if approved then consult m view rest w else (.value false, w)

/-- Tell observers in order until one panics. -/
def tell {σ : Type} (m : Move) (view : Snapshot) : List (Observer σ) → σ → Outcome Unit × σ
  | [], w => (.value (), w)
  | observe :: rest, w => andThen (observe m view w) fun _ w => tell m view rest w

namespace Robot

variable {σ : Type}

/-- A robot without callbacks, with the usual image. -/
def ofPosition (p : Position) : Robot σ := ⟨p, p, defaultRobotSprite, [], []⟩

/-- The same robot with another image. -/
def withSprite (r : Robot σ) (sprite : String) : Robot σ := { r with sprite }

/-- What callbacks see of a robot. -/
def snapshot (r : Robot σ) : Snapshot :=
  ⟨r.position, r.start, r.sprite, r.acceptors.length, r.observers.length⟩

/-- Append an acceptor. -/
def subscribeAcceptor (r : Robot σ) (accept : Acceptor σ) : Robot σ :=
  { r with acceptors := r.acceptors ++ [accept] }

/-- Append an observer. -/
def subscribeObserver (r : Robot σ) (observe : Observer σ) : Robot σ :=
  { r with observers := r.observers ++ [observe] }

/-- Put the robot back on its start, past acceptors and observers. -/
def reset (r : Robot σ) : Robot σ := { r with position := r.start }

/-- Pass a move through the pipeline; the answer says whether it was made. -/
def attempt [Journal σ] (r : Robot σ) (m : Move) (w : σ) : Outcome Bool × Robot σ × σ :=
  match consult m r.snapshot r.acceptors w with
  | (.panicked, w) => (.panicked, r, w)
  | (.value false, w) => (.value false, r, note (.vetoed m) w)
  | (.value true, w) =>
    let r := { r with position := m.target }
    match tell m r.snapshot r.observers (note (.committed m) w) with
    | (.panicked, w) => (.panicked, r, w)
    | (.value _, w) => (.value true, r, w)

/-- Try a single step; the answer says whether the move was made. -/
def step [Journal σ] (r : Robot σ) (d : Direction) (w : σ) : Outcome Bool × Robot σ × σ :=
  match Move.towards? r.position d with
  | none => (.value false, r, note (.outOfRange d r.position) w)
  | some m => r.attempt m w

/-- Try several steps in one direction; the answers come in order, and a panic is an answer too. -/
def steps [Journal σ] (d : Direction) : Nat → Robot σ → σ → List (Outcome Bool) × Robot σ × σ
  | 0, r, w => ([], r, w)
  | n + 1, r, w =>
    let (answer, r, w) := r.step d w
    let (answers, r, w) := steps d n r w
    (answer :: answers, r, w)

end Robot

/-- The written form of a robot, with the names of the fields. -/
def Snapshot.labelled (v : Snapshot) : String :=
  "Robot \x7b pos: " ++ v.position.labelled ++ ", initial_pos: " ++ v.start.labelled
    ++ ", sprite: " ++ Text.quoted v.sprite ++ ", move_acceptors: " ++ Text.natural v.acceptors
    ++ ", move_observers: " ++ Text.natural v.observers ++ " \x7d"

end GridPuzzle
