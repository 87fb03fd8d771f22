import GridPuzzle.Decimal.Shortest
import GridPuzzle.Text.Quoted

/-!
# What can be wrong with a JSON text

A fault is either a break of the syntax or a value that does not have the form that is wanted. The
first one in the order of the text is reported, with its wording here.
-/

namespace GridPuzzle.Json

/-- Floating-point numbers in messages are positional from five places after the point up to
sixteen digits before it. -/
def floatStyle : Decimal.Style := ⟨-5, 15⟩

/-- What a message says was found in place of the wanted value. -/
inductive Found
  | null
  | truth (b : Bool)
  | integer (n : Int)
  | float (negative : Bool) (magnitude : Decimal.Binary64)
  | text (s : String)
  | list
  | object
  deriving DecidableEq, Repr

/-- The words for what was found. -/
def Found.words : Found → String
  | null => "null"
  | truth b => "boolean \x60" ++ (if b then "true" else "false") ++ "\x60"
  | integer n => "integer \x60" ++ Text.integer n ++ "\x60"
  | float negative magnitude =>
    "floating point \x60" ++ (if negative then "-" else "")
      ++ (Decimal.shortest magnitude).text floatStyle ++ "\x60"
  | text s => "string " ++ Text.quoted s
  | list => "sequence"
  | object => "map"

/-- What is wrong with a text. -/
inductive Fault
  | cutValue
  | cutObject
  | cutList
  | cutText
  | expectedValue
  | expectedWord
  | expectedColon
  | expectedObjectSeparator
  | expectedListSeparator
  | keyNotText
  | trailingComma
  | trailingCharacters
  | invalidNumber
  | numberOutOfRange
  | invalidEscape
  | loneSurrogate
  | endOfSurrogate
  | controlCharacter
  | wrongType (found : Found) (wanted : String)
  | wrongInteger (n : Int) (wanted : String)
  | wrongLength (length : Nat) (wanted : String)
  | missingField (name : String)
  | duplicateField (name : String)
  | unknownField (name : String) (known : List String)
  deriving DecidableEq, Repr

/-- A name between grave accents. -/
def ticked (name : String) : String := "\x60" ++ name ++ "\x60"

/-- The wording of a fault. -/
def Fault.message : Fault → String
  | cutValue => "EOF while parsing a value"
  | cutObject => "EOF while parsing an object"
  | cutList => "EOF while parsing a list"
  | cutText => "EOF while parsing a string"
  | expectedValue => "expected value"
  | expectedWord => "expected ident"
  | expectedColon => "expected \x60:\x60"
  | expectedObjectSeparator => "expected \x60,\x60 or \x60\x7d\x60"
  | expectedListSeparator => "expected \x60,\x60 or \x60]\x60"
  | keyNotText => "key must be a string"
  | trailingComma => "trailing comma"
  | trailingCharacters => "trailing characters"
  | invalidNumber => "invalid number"
  | numberOutOfRange => "number out of range"
  | invalidEscape => "invalid escape"
  | loneSurrogate => "lone leading surrogate in hex escape"
  | endOfSurrogate => "unexpected end of hex escape"
  | controlCharacter => "control character (\\u0000-\\u001F) found while parsing a string"
  | wrongType found wanted => "invalid type: " ++ found.words ++ ", expected " ++ wanted
  | wrongInteger n wanted =>
    "invalid value: integer " ++ ticked (Text.integer n) ++ ", expected " ++ wanted
  | wrongLength length wanted =>
    "invalid length " ++ Text.natural length ++ ", expected " ++ wanted
  | missingField name => "missing field " ++ ticked name
  | duplicateField name => "duplicate field " ++ ticked name
  | unknownField name known =>
    "unknown field " ++ ticked name ++ ", expected one of " ++ ", ".intercalate (known.map ticked)

end GridPuzzle.Json
