import GridPuzzle.Files
import GridPuzzle.Journal
import GridPuzzle.Level.Written

/-!
# Levels in files

A level is loaded from the text of its file. What keeps it from being loaded is reported in the
order of the work: the file is read, its text is taken apart, and the level is checked.
-/

namespace GridPuzzle

/-- Why a level is not loaded. -/
inductive LoadFault
  | unreadable (f : ReadFault)
  | faulty (f : LevelFault)
  deriving DecidableEq, Repr

/-- The wording of a fault. -/
def LevelFault.message : LevelFault → String
  | malformed f => "Failed to parse level: " ++ f.message
  | unplayable p => p.message

/-- The written form of a fault; a malformed text is not described any closer. -/
def LevelFault.labelled : LevelFault → String
  | malformed _ => "ParseError"
  | unplayable p => p.labelled

namespace LoadFault

/-- The wording of a fault. -/
def message : LoadFault → String
  | unreadable f => "Failed to read level file: " ++ f.message
  | faulty f => f.message

/-- The written form of a fault. -/
def labelled : LoadFault → String
  | unreadable f => "IoError(" ++ f.labelled ++ ")"
  | faulty f => f.labelled

end LoadFault

namespace Level

/-- The level of a file's text, or why there is none. -/
def ofStored (stored : Except ReadFault String) : Except LoadFault Level :=
  match stored with
  | .error f => .error (.unreadable f)
  | .ok text =>
    match ofText text with
    | .error f => .error (.faulty f)
    | .ok l => .ok l

/-- Load a playable level from a file. -/
def load (t : FileTree) (path : String) : Except LoadFault Level := ofStored (t.text path)

/-- What is remarked about the loading of a level. -/
def loadRemarks (path : String) : Except LoadFault Level → List Remark
  | .ok l => [.loading path, .loaded l.name path]
  | .error _ => [.loading path]

end Level

end GridPuzzle
