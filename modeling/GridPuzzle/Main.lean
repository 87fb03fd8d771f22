import GridPuzzle.CommandLine.Report

/-!
# The program

The outer layer: it reads the chosen files, prints the lines of the game while the clock runs, and
chooses the exit code. Everything else is decided by the library.
-/

namespace GridPuzzle.Console

/-- Read a file of the system as a text. -/
def readStored (path : String) : IO (Except ReadFault String) := do
  try
    return textOfBytes (← IO.FS.readBinFile path)
  catch
    | .noFileOrDirectory .. => return .error .notFound
    | .inappropriateType (some _) .. => return .error .notDirectory
    | .inappropriateType none .. => return .error .isDirectory
    | fault => throw fault

/-- Read everything from standard input. -/
def readInput : IO (Except ReadFault String) := do
  return textOfBytes (← (← IO.getStdin).readBinToEnd)

/-- Read the chosen level. -/
def readLevel (a : Arguments) : IO (Except LoadFault Level) := do
  match a.level with
  | some path => return Level.ofStored (← readStored path)
  | none => return .ok .standard

/-- Read the chosen program, if there is a level for it. -/
def readProgram (level : Except LoadFault Level) (a : Arguments) :
    IO (Except ReadFault String) := do
  match level, a.program with
  | .error _, _ => return .ok ""
  | .ok _, some path => readStored path
  | .ok _, none => readInput

/-- Print lines at once. -/
def printLines (lines : List String) : IO Unit := do
  IO.print (Report.text lines)
  (← IO.getStdout).flush

/-- Give every turn at its time, and print the lines of the events after the printed ones. -/
partial def playOut (printed : Nat) (s : Session) : IO Session := do
  printLines ((s.events.toList.drop printed).filterMap Transcript.eventLine?)
  match s.nextDue? with
  | none => return s
  | some (k, due) =>
    IO.sleep (UInt32.ofNat (min (due - s.now) (UInt32.size - 1)))
    playOut s.events.size (Session.turn Session.perform k due s)

/-- Print a report with its error line, and answer the exit code. -/
def printReport (r : Report) : IO UInt32 := do
  IO.print r.output
  (← IO.getStdout).flush
  match r with
  | .misused => IO.eprintln Report.usageLine
  | .help | .failed _ | .played _ => r.error?.forM IO.eprintln
  return UInt32.ofNat r.code

/-- Play a game while the clock runs, and answer the exit code. -/
def playGame (g : Report.Game) : IO UInt32 := do
  printLines (Transcript.opening g.level g.source g.session.scene)
  match Session.play Session.perform true g.source g.session with
  | (.value (.started k), s) =>
    let s ← playOut 0 s
    match Session.ending? k s with
    | some (.returned status) =>
      printReport (.played { lines := Transcript.endedLine status :: Transcript.closing s.scene })
    | some .panicked | none => printReport (.played { lines := [], fault := some .lost })
  | (.value .idle, s) =>
    printReport (.played { lines := Transcript.idleLine :: Transcript.closing s.scene })
  | (.value (.refused why), s) =>
    printReport (.played { lines := Transcript.eventLines s, fault := some (.refused why) })
  | (.panicked, s) =>
    printReport (.played { lines := Transcript.eventLines s, fault := some .panicked })

end GridPuzzle.Console

open GridPuzzle in
/-- Play a program text on a level, as the arguments choose. -/
def main (arguments : List String) : IO UInt32 := do
  match Arguments.ofList arguments with
  | some (.play a) =>
    let level ← Console.readLevel a
    match Report.prepare level (← Console.readProgram level a) with
    | .ok g => Console.playGame g
    | .error fault => Console.printReport (.failed fault)
  | some .help => Console.printReport .help
  | none => Console.printReport .misused
