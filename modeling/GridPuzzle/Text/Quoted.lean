import GridPuzzle.Text.Invisible

/-!
# Quoted text

The form in which a message shows a piece of text: between double quotes, with a short escape for
the quote, the backslash, the tabulator, the two line ends and the null character, and the code in
braces for any other invisible character.
-/

namespace GridPuzzle.Text

/-- The hexadecimal digits of a natural number, in lower case. -/
def hexDigits (n : Nat) : List Char := Nat.toDigits 16 n

/-- One character of a quoted text. -/
def quotedChar (c : Char) : List Char :=
  match c with
  | '"' => ['\\', '"']
  | '\\' => ['\\', '\\']
  | '\t' => ['\\', 't']
  | '\n' => ['\\', 'n']
  | '\r' => ['\\', 'r']
  | '\x00' => ['\\', '0']
  | _ => if isInvisible c then ['\\', 'u', '\x7b'] ++ hexDigits c.toNat ++ ['\x7d'] else [c]

/-- A text between double quotes, with its escapes. -/
def quoted (s : String) : String := String.ofList ('"' :: s.toList.flatMap quotedChar ++ ['"'])

end GridPuzzle.Text
