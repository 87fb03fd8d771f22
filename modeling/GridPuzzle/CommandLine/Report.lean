import GridPuzzle.CommandLine.Arguments
import GridPuzzle.CommandLine.Transcript
import GridPuzzle.Level.Stored

/-!
# What the command line reports

The level is loaded first, then the program text is read, and only when both are there the game is
played. Nothing is printed before that, so a report is either a transcript or one fault.
-/

namespace GridPuzzle

/-- How a call of the program ends. -/
inductive Report
  | help
  /-- The arguments do not fit. -/
  | misused
  /-- A fault before the game, in its written form. -/
  | failed (fault : String)
  | played (t : Transcript)
  deriving DecidableEq, Repr

namespace Report

/-- The line that shows the form of the arguments. -/
def usageLine : String := "Usage: robogrid [OPTIONS] [PROGRAM]"

/-- The text that explains the arguments. -/
def helpLines : List String := [
  "Play a robot program on a grid level",
  "",
  usageLine,
  "",
  "Arguments:",
  "  [PROGRAM]  Program file; the program is read from stdin when omitted",
  "",
  "Options:",
  "  -l, --level <LEVEL>  Level file (JSON); the built-in 5x5 level is used when omitted",
  "  -h, --help           Print help"]

/-- The exit code of a report. -/
def code : Report → Nat
  | help => 0
  | misused => 2
  | failed _ => 1
  | played t => (t.fault.map GameFault.code).getD 0

/-- Lines with their ends. -/
def text (lines : List String) : String := String.join (lines.map (· ++ "\n"))

/-- The standard output of a report. -/
def output : Report → String
  | help => text helpLines
  | misused => ""
  | failed _ => ""
  | played t => text t.lines

/-- The error line of a report that has failed. -/
def error? : Report → Option String
  | failed fault => some ("Error: " ++ fault)
  | played t => (t.fault.bind GameFault.labelled?).map ("Error: " ++ ·)
  | help | misused => none

/-- A game that can begin: the level, the program text, and the session of the level. -/
structure Game where
  level : Level
  source : String
  session : Session

/-- The game of what has been read, or the written form of the first fault. -/
def prepare (level : Except LoadFault Level) (program : Except ReadFault String) :
    Except String Game :=
  match level with
  | .error f => .error f.labelled
  | .ok l =>
    match program with
    | .error f => .error f.labelled
    | .ok source =>
      match Transcript.seated l with
      | .error p => .error ("LevelError(" ++ p.labelled ++ ")")
      | .ok s => .ok ⟨l, source, s⟩

/-- The report of a game, from what has been read. -/
def ofGame (level : Except LoadFault Level) (program : Except ReadFault String) : Report :=
  match prepare level program with
  | .error fault => failed fault
  | .ok g => played (Transcript.ofGame g.level g.source g.session)

/-- The level that is chosen. -/
def chosenLevel (t : FileTree) (a : Arguments) : Except LoadFault Level :=
  match a.level with
  | some path => Level.load t path
  | none => .ok .standard

/-- The program text that is chosen. -/
def chosenProgram (t : FileTree) (stdin : ByteArray) (a : Arguments) : Except ReadFault String :=
  match a.program with
  | some path => t.text path
  | none => textOfBytes stdin

/-- The report of a call with some files, standard input and arguments. -/
def ofCall (t : FileTree) (stdin : ByteArray) (arguments : List String) : Report :=
  match Arguments.ofList arguments with
  | none => misused
  | some .help => help
  | some (.play a) => ofGame (chosenLevel t a) (chosenProgram t stdin a)

end Report

end GridPuzzle
