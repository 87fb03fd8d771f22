import GridPuzzle.Text.Decimal

/-!
# JSON values and their pretty text

A value is written with one item or member to a line, indented by two spaces for each open value.
In strings the quote, the backslash and the control characters are escaped, and nothing else is.
-/

namespace GridPuzzle.Json

/-- The values that are written. -/
inductive Value
  | integer (n : Int)
  | text (s : String)
  | list (items : List Value)
  | object (members : List (String × Value))
  deriving Repr

/-- A hexadecimal digit in lower case. -/
def hexDigit (n : Nat) : Char := Nat.digitChar n

/-- One character of a written string. -/
def escapedChar (c : Char) : List Char :=
  match c with
  | '"' => ['\\', '"']
  | '\\' => ['\\', '\\']
  | '\x08' => ['\\', 'b']
  | '\x0c' => ['\\', 'f']
  | '\n' => ['\\', 'n']
  | '\r' => ['\\', 'r']
  | '\t' => ['\\', 't']
  | _ =>
    if c.toNat < 0x20 then
      ['\\', 'u', '0', '0', hexDigit (c.toNat / 16), hexDigit (c.toNat % 16)]
    else
      [c]

/-- A written string between its quotes. -/
def writtenText (s : String) : List Char := '"' :: s.toList.flatMap escapedChar ++ ['"']

/-- The start of a line inside so many open values. -/
def newLine (depth : Nat) : List Char := '\n' :: List.replicate (2 * depth) ' '

mutual

/-- The pretty text of a value inside so many open ones. -/
def Value.pretty (depth : Nat) : Value → List Char
  | .integer n => (Text.integer n).toList
  | .text s => writtenText s
  | .list [] => ['[', ']']
  | .list (v :: vs) =>
    '[' :: newLine (depth + 1) ++ v.pretty (depth + 1) ++ prettyItems (depth + 1) vs
      ++ newLine depth ++ [']']
  | .object [] => ['\x7b', '\x7d']
  | .object ((k, v) :: ms) =>
    '\x7b' :: newLine (depth + 1) ++ writtenText k ++ [':', ' '] ++ v.pretty (depth + 1)
      ++ prettyMembers (depth + 1) ms ++ newLine depth ++ ['\x7d']

/-- The pretty text of the further items of a list. -/
def prettyItems (depth : Nat) : List Value → List Char
  | [] => []
  | v :: vs => ',' :: newLine depth ++ v.pretty depth ++ prettyItems depth vs

/-- The pretty text of the further members of an object. -/
def prettyMembers (depth : Nat) : List (String × Value) → List Char
  | [] => []
  | (k, v) :: ms =>
    ',' :: newLine depth ++ writtenText k ++ [':', ' '] ++ v.pretty depth
      ++ prettyMembers depth ms

end

/-- The pretty text of a value. -/
def Value.prettyText (v : Value) : String := String.ofList (v.pretty 0)

end GridPuzzle.Json
