import GridPuzzle.Program.Command
import GridPuzzle.Robot.Basic

/-!
# Shared robots

A shared robot is kept behind a lock. Whoever panics while they hold the lock poisons it for good:
from then on the content is handed out as an error. The library takes it all the same, so that a
panic of a callback keeps nobody from using the robot later.
-/

namespace GridPuzzle

/-- Something kept behind a lock. -/
structure Locked (α : Type) where
  content : α
  /-- Whether somebody has panicked while they held the lock. -/
  poisoned : Bool := false

namespace Locked

variable {α : Type}

/-- What the lock hands out: the content, as an error once it is poisoned. -/
def lock (l : Locked α) : Except α α := if l.poisoned then .error l.content else .ok l.content

/-- The content, even of a poisoned lock. -/
def recover (l : Locked α) : α :=
  match l.lock with
  | .ok content => content
  | .error content => content

/-- Put the content back; the lock is poisoned if it is done by a panic. -/
def release (l : Locked α) (panicking : Bool) (content : α) : Locked α :=
  ⟨content, l.poisoned || panicking⟩

/-- Poison keeps nobody from the content. -/
@[simp] theorem recover_eq (l : Locked α) : l.recover = l.content := by
  unfold recover lock
  cases l.poisoned <;> rfl

end Locked

/-- Whether a call was cut short. -/
def Outcome.isPanicked {α : Type} : Outcome α → Bool
  | .value _ => false
  | .panicked => true

/-- A robot behind a lock. -/
abbrev SharedRobot (σ : Type) := Locked (Robot σ)

namespace SharedRobot

variable {σ : Type}

/-- Try a single step of a shared robot. -/
def step [Journal σ] (l : SharedRobot σ) (d : Direction) (w : σ) :
    Outcome Bool × SharedRobot σ × σ :=
  let (answer, r, w) := l.recover.step d w
  (answer, l.release answer.isPanicked r, w)

/-- Put a shared robot back on its start. -/
def reset (l : SharedRobot σ) : SharedRobot σ := l.release false l.recover.reset

end SharedRobot

/-- Carry out a command on the robot that it is bound to. -/
def Command.invoke {σ : Type} [Journal σ] (c : Command) (l : SharedRobot σ) (w : σ) :
    Outcome Bool × SharedRobot σ × σ := l.step c.direction w

end GridPuzzle
