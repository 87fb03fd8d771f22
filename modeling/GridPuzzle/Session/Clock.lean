import GridPuzzle.Session.Playback

/-!
# The clock

The clock moves only while somebody lets time pass or waits. Tasks get their turns in the order of
their times, the one started first before others of the same time, and the clock stands at that
time meanwhile. Whoever waits with a limit gives up when the limit is over, before the turns of
that very moment; those turns are taken all the same.
-/

namespace GridPuzzle

/-- When a task is due, unless it has ended. -/
def TaskState.due? : TaskState → Option Nat
  | .ready since => some since
  | .asleep _ wake => some wake
  | .ended _ => none

/-- How many turns a task can still take. -/
def TaskState.turns (length : Nat) : TaskState → Nat
  | .ready _ => length + 1
  | .asleep left _ => left + 1
  | .ended _ => 0

namespace Session

variable (perform : Perform)

/-- The task that is due first, among those from number `k` on. -/
def firstDue (k : TaskId) : List Task → Option (TaskId × Nat)
  | [] => none
  | t :: rest =>
    match t.state.due?, firstDue (k + 1) rest with
    | none, found => found
    | some due, none => some (k, due)
    | some due, some (k', due') => if due ≤ due' then some (k, due) else some (k', due')

/-- The task that gets the next turn, and when. -/
def nextDue? (s : Session) : Option (TaskId × Nat) := firstDue 0 s.tasks.toList

/-- Give a task the turn that is due at a time. -/
def turn (k : TaskId) (due : Nat) (s : Session) : Session :=
  resume perform k { s with now := max s.now due }

/-- How many turns programs started by callbacks may take within one call. -/
def spareTurns : Nat := 1 <<< 32

/-- The spare turns, and the turns that the present tasks can still take. -/
def turnBudget (s : Session) : Nat :=
  s.tasks.toList.foldr (fun t turns =>
    t.state.turns (((s.programs[t.program]?).map Program.length).getD 0) + turns) spareTurns

/-- Give all turns that are due up to and including a time. -/
def settle (limit : Nat) : Nat → Session → Session
  | 0, s => s
  | turns + 1, s =>
    match s.nextDue? with
    | some (k, due) => if due ≤ limit then settle limit turns (turn perform k due s) else s
    | none => s

/-- Let the clock reach a time, with everything that is due until then. -/
def passUntil (time : Nat) (s : Session) : Session :=
  let after := settle perform time s.turnBudget s
  { after with now := max after.now time }

/-- Let some time pass. -/
def advance (ms : Nat) (s : Session) : Session := passUntil perform (s.now + ms) s

/-- Give turns that are due before a limit, until `done?` has an answer. -/
def waitFor {α : Type} (done? : Session → Option α) (limit : Nat) :
    Nat → Session → Option α × Session
  | 0, s => (done? s, s)
  | turns + 1, s =>
    match done? s with
    | some a => (some a, s)
    | none =>
      match s.nextDue? with
      | some (k, due) =>
        if due < limit then waitFor done? limit turns (turn perform k due s) else (none, s)
      | none => (none, s)

/-- Wait until `done?` has an answer, for some time at most. -/
def await {α : Type} (done? : Session → Option α) (ms : Nat) (s : Session) : Option α × Session :=
  match waitFor perform done? (s.now + ms) s.turnBudget s with
  | (some a, after) => (some a, passUntil perform after.now after)
  | (none, after) => (none, passUntil perform (s.now + ms) after)

/-- The final status of a program, once it has one. -/
def final? (p : ProgramId) (s : Session) : Option Status :=
  (s.status? p).bind fun status => if status.isTerminal then some status else none

/-- How a task ended, once it has. -/
def ending? (k : TaskId) (s : Session) : Option Ending :=
  match s.tasks[k]? with
  | some ⟨_, .ended how, _⟩ => some how
  | _ => none

/-- What waiting for something answers. -/
inductive Waited (α : Type)
  | value (a : α)
  /-- The time was over first. -/
  | timeout
  /-- There is nothing to wait for. -/
  | nothing
  deriving DecidableEq, Repr

/-- Wait for the final status of a program. -/
def waitFinal (p : ProgramId) (ms : Nat) (s : Session) : Waited Status × Session :=
  match await perform (final? p) ms s with
  | (some status, s) => (.value status, s)
  | (none, s) => (.timeout, s)

/-- Wait for the final status of the program that the scene accepted last. -/
def waitCurrent (ms : Nat) (s : Session) : Waited Status × Session :=
  match s.scene.slot with
  | some p => waitFinal perform p ms s
  | none => (.nothing, s)

/-- Wait for the end of a task and take its result, which can be taken once. -/
def join (k : TaskId) (ms : Nat) (s : Session) : Waited Ending × Session :=
  match s.tasks[k]? with
  | some ⟨_, _, false⟩ =>
    match await perform (ending? k) ms s with
    | (some how, s) =>
      (.value how, { s with tasks := s.tasks.modify k fun t => { t with joined := true } })
    | (none, s) => (.timeout, s)
  | _ => (.nothing, s)

end Session

end GridPuzzle
