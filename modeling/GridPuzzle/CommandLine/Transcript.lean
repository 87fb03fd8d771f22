import GridPuzzle.Session.Clock

/-!
# The transcript of a game

A transcript shows one program being played on one level: the level with everything on it, what
happens during the playback, one line for each event, and where the robot ends up. A game that
breaks off, because the scene does not play the text or a callback panics, shows what has happened
until then.
-/

namespace GridPuzzle

/-- Why a game breaks off. -/
inductive GameFault
  /-- The scene does not play the text. -/
  | refused (why : PlayError)
  /-- A callback has panicked outside the task of the playback. -/
  | panicked
  /-- The task of the playback has given no status. -/
  | lost
  deriving DecidableEq, Repr

namespace GameFault

/-- The exit code of a game that breaks off. -/
def code : GameFault → Nat
  | refused _ => 1
  | panicked => 101
  | lost => 1

/-- The form of a fault in reports, shortened for a lost task; a panic is not reported again. -/
def labelled? : GameFault → Option String
  | refused why => some why.labelled
  | panicked => none
  | lost => some "JoinError"

end GameFault

/-- What a game prints, and why it breaks off, if it does. -/
structure Transcript where
  lines : List String
  fault : Option GameFault := none
  deriving DecidableEq, Repr

namespace Transcript

/-- The line of one thing on the grid. -/
def entityLine (e : Entity) (p : Position) (sprite : String) : String :=
  "  " ++ e.name ++ " at " ++ p.text ++ " (" ++ sprite ++ ")"

/-- The lines before the playback. -/
def opening (l : Level) (source : String) (scene : Scene) : List String :=
  ("Level '" ++ l.name ++ "': " ++ Text.natural scene.bounds.width ++ "x"
      ++ Text.natural scene.bounds.height ++ " grid")
    :: entityLine .robot scene.position scene.robotSprite
    :: entityLine .finish scene.finish.position scene.finish.sprite
    :: scene.walls.map (fun w => entityLine .wall w.position w.sprite)
    ++ ["Found " ++ Text.natural (Token.tokenize source).length ++ " instructions in the program"]

/-- The line of an event. Scripts and requests are never part of a game. -/
def eventLine? : Event → Option String
  | .moved _ m _ => some ("  " ++ m.text)
  | .bumped _ m => some ("Bump! There is a wall at " ++ m.target.text)
  | .status _ n => some ("Program " ++ n.old.word ++ " -> " ++ n.new.word)
  | .completed _ finish =>
    some ("Well done! The robot reached the finish at " ++ finish.text)
  | .action .. | .started .. | .played .. => none

/-- The line for a text without steps. -/
def idleLine : String := "Nothing to do: write commands like left(2) or up(1)"

/-- The line for the end of a playback. -/
def endedLine (status : Status) : String := "Program ended: " ++ status.word

/-- The lines after the playback. -/
def closing (scene : Scene) : List String :=
  ("The robot is at " ++ scene.position.text)
    :: if scene.complete then []
      else ["The finish at " ++ scene.finish.position.text ++ " has not been reached yet"]

/-- The session of a level that is about to be played, with one observer of each kind. -/
def seated (l : Level) : Except LevelProblem Session :=
  (Session.ofLevel l [.recorder "move"]).map fun s => { s with
    scene.statusObservers := [.recorder "status"]
    scene.wallObservers := [.recorder "wall"]
    scene.completionObservers := [.recorder "finish"] }

/-- A time by which every playback of a program has ended. -/
def patience (s : Session) (k : TaskId) : Nat :=
  match (s.tasks[k]?).bind fun t => s.programs[t.program]? with
  | some q => q.length * s.timer q.delay + 1
  | none => 0

/-- The lines of everything that has been written down. -/
def eventLines (s : Session) : List String := s.events.toList.filterMap eventLine?

/-- Play a text to its end, or to where the game breaks off. -/
def ofGame (l : Level) (source : String) (s : Session) : Transcript :=
  let before := opening l source s.scene
  match Session.play Session.perform true source s with
  | (.value (.started k), s) =>
    match Session.join Session.perform k (patience s k) s with
    | (.value (.returned status), s) =>
      { lines := before ++ eventLines s ++ endedLine status :: closing s.scene }
    | (.value .panicked, s) | (.timeout, s) | (.nothing, s) =>
      { lines := before ++ eventLines s, fault := some .lost }
  | (.value .idle, s) => { lines := before ++ idleLine :: closing s.scene }
  | (.value (.refused why), s) =>
    { lines := before ++ eventLines s, fault := some (.refused why) }
  | (.panicked, s) => { lines := before ++ eventLines s, fault := some .panicked }

end Transcript

end GridPuzzle
