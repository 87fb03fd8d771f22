import GridPuzzle.Journal
import GridPuzzle.Program.Token

/-!
# Commands

A command is a single step bound to the robot that it moves. Compiling a text makes the commands
of its steps for one robot, in order, and moves nothing.
-/

namespace GridPuzzle

/-- A single step bound to a robot. -/
structure Command where
  direction : Direction
  /-- Which robot the command moves. -/
  robot : Nat
  deriving DecidableEq, Repr

namespace Command

/-- The commands of a text for one robot. -/
def ofText (robot : Nat) (text : String) : List Command := (compile text).map (⟨·, robot⟩)

/-- The written form of a command. -/
def labelled (c : Command) : String := "Command(" ++ c.direction.keyword ++ ")"

end Command

/-- What the scan of a text remarks: every count that does not fit. -/
def scanRemarks (text : String) : List Remark :=
  (Token.oversized text).map Remark.oversizedCount

/-- What the compilation of a text remarks: the scan's remarks, then how much was made of it. -/
def compileRemarks (text : String) : List Remark :=
  scanRemarks text ++ [.compiled (Token.tokenize text).length (compile text).length]

/-- Take remarks in order. -/
def noteAll {σ : Type} [Journal σ] (remarks : List Remark) (w : σ) : σ :=
  remarks.foldl (fun w r => note r w) w

end GridPuzzle
