import GridPuzzle.Session.Basic

/-!
# Changes of status

A program's status changes in one place, and then its observers, as they are at that moment, are
told in order. What a callback asks for is carried out at once, before the next one is told. How a
request is carried out is a parameter here.
-/

namespace GridPuzzle.Session

/-- A way to carry out requests. -/
abbrev Perform := Request → Session → Outcome Unit × Session

variable (perform : Perform)

/-- Carry out requests in order, until one panics. -/
def performAll : List Request → Session → Outcome Unit × Session
  | [], s => (.value (), s)
  | r :: rest, s => andThen (perform r s) fun _ s => performAll rest s

/-- What observers of a program are told about a change at this moment. -/
def notice (s : Session) (p : ProgramId) (new old : Status) : StatusNotice :=
  match s.programs[p]? with
  | some q => ⟨p, q.source, q.length, new, old, q.status, s.scene.complete, s.scene.position⟩
  | none => ⟨p, "", 0, new, old, new, s.scene.complete, s.scene.position⟩

/-- Tell status observers about a change, in order. -/
def tellStatus (p : ProgramId) (new old : Status) :
    List (Callback StatusNotice) → Session → Outcome Unit × Session
  | [], s => (.value (), s)
  | c :: rest, s =>
    let n := s.notice p new old
    andThen (performAll perform (c.requests n) (s.record (.status c.tag n))) fun _ s =>
      tellStatus p new old rest s

/-- Announce a change that has been made to the present observers of a program. -/
def announce (p : ProgramId) (new old : Status) (s : Session) : Outcome Unit × Session :=
  match s.programs[p]? with
  | some q => tellStatus perform p new old q.observers (note (.statusChanged old new) s)
  | none => (.value (), s)

/-- Abort a program, unless its status is final. -/
def stop (p : ProgramId) (s : Session) : Outcome Unit × Session :=
  match s.status? p with
  | none => (.value (), s)
  | some old =>
    if old.isTerminal then
      (.value (), s)
    else
      announce perform p .aborted old (s.setStatus p .aborted)

/-- Abort the program accepted last. -/
def stopCurrent (s : Session) : Outcome Unit × Session :=
  match s.scene.slot with
  | some p => stop perform p s
  | none => (.value (), s)

/-- Move a program that can be started to running, without telling anybody. The answer says
whether it was moved. -/
def claim (p : ProgramId) (s : Session) : Bool × Session :=
  match s.programs[p]? with
  | none => (false, s)
  | some q =>
    if q.isEmpty then
      (false, note .emptyProgram s)
    else if q.status = .stopped then
      (true, s.setStatus p .running)
    else
      (false, note (.alreadyStarted q.status) s)

/-- Announce a claimed program, unless it has been stopped meanwhile, and start its task. -/
def startClaimed (p : ProgramId) (s : Session) : Outcome TaskId × Session :=
  andThen (if s.isRunning p then announce perform p .running .stopped s else (.value (), s))
    fun _ s => (.value s.tasks.size, { s with tasks := s.tasks.push ⟨p, .ready s.now, false⟩ })

/-- Start a program by its handle; the answer is its task. -/
def start (inRuntime : Bool) (p : ProgramId) (s : Session) : Outcome (Option TaskId) × Session :=
  if inRuntime then
    match claim p s with
    | (false, s) => (.value none, s)
    | (true, s) => andThen (startClaimed perform p s) fun k s => (.value (some k), s)
  else
    (.value none, note .outsideRuntime s)

end GridPuzzle.Session
