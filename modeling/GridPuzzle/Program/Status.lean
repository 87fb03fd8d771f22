/-!
# The status of a program

A program is stopped until it is started, then it runs until its last action has been played or it
is stopped by force. Finished and aborted are final.
-/

namespace GridPuzzle

/-- Where a program is in its life. -/
inductive Status
  | stopped
  | running
  | finished
  | aborted
  deriving DecidableEq, Repr, Inhabited

namespace Status

/-- A final status is never left. -/
def isTerminal : Status → Bool
  | finished => true
  | aborted => true
  | _ => false

/-- The word for a status in messages. -/
def word : Status → String
  | stopped => "stopped"
  | running => "running"
  | finished => "finished"
  | aborted => "abort"

/-- The name of a status with a capital letter. -/
def name : Status → String
  | stopped => "Stopped"
  | running => "Running"
  | finished => "Finished"
  | aborted => "Abort"

end Status

end GridPuzzle
