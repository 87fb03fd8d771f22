import GridPuzzle.Session.Perform

/-!
# Playback

A task plays the actions of its program one after the other, and sleeps after each of them for the
program's delay, whatever that is: even a sleep that takes no time ends the turn, and other turns
and calls may come before the task goes on. It looks at the status before an action and after a
sleep, and ends where the program no longer runs. After the last sleep it finishes the program. How
an action is played is a parameter of the playback.
-/

namespace GridPuzzle.Session

variable (perform : Perform)

/-- A way to play the action with a given number of a program. -/
abbrev Invoke := ProgramId → Nat → Action → Session → Outcome Unit × Session

/-- Play the action with a given number of a program. -/
def act (p : ProgramId) (index : Nat) (a : Action) (s : Session) : Outcome Unit × Session :=
  match a with
  | .command d => andThen (step perform d s) fun _ s => (.value (), s)
  | .script name requests => performAll perform requests (s.record (.action p index name))

/-- End a task, with the present status of its program or because of a panic. -/
def endTask (k : TaskId) (p : ProgramId) (call : Outcome Unit × Session) : Session :=
  match call with
  | (.value _, s) => s.setTask k (.ended (.returned ((s.status? p).getD .stopped)))
  | (.panicked, s) => s.setTask k (.ended .panicked)

/-- Finish a program that still runs. -/
def finishProgram (p : ProgramId) (s : Session) : Outcome Unit × Session :=
  if s.isRunning p then
    announce perform p .finished .running (s.setStatus p .finished)
  else
    (.value (), s)

/-- Go on with a program of which `left` actions are left: play the first of them and fall asleep,
or end the task. -/
def playOn (invoke : Invoke) (k : TaskId) (p : ProgramId) (q : Program) : Nat → Session → Session
  | 0, s => endTask k p (finishProgram perform p s)
  | left + 1, s =>
    let index := q.length - (left + 1)
    if s.isRunning p then
      match q.actions[index]? with
      | none => endTask k p (.value (), s)
      | some a =>
        match invoke p index a s with
        | (.panicked, s) => endTask k p (.panicked, s)
        | (.value _, s) => s.setTask k (.asleep left (s.now + s.timer q.delay))
    else
      endTask k p (.value (), note (.skipped (index + 1) q.length) s)

/-- Give a task its turn: it begins, or it wakes up, and plays an action in a given way. -/
def resumeBy (invoke : Invoke) (k : TaskId) (s : Session) : Session :=
  match s.tasks[k]? with
  | none => s
  | some task =>
    match s.programs[task.program]? with
    | none => s
    | some q =>
      match task.state with
      | .ready _ => playOn perform invoke k task.program q q.length s
      | .asleep left _ =>
        if s.isRunning task.program then
          playOn perform invoke k task.program q left s
        else
          endTask k task.program (.value (), note (.stoppedAfter (q.length - left) q.length) s)
      | .ended _ => s

/-- Give a task its turn. -/
def resume (k : TaskId) (s : Session) : Session := resumeBy perform (act perform) k s

end GridPuzzle.Session
