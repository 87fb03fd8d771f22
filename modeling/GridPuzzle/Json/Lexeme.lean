import GridPuzzle.Json.Number

/-!
# JSON lexemes

A text is cut into lexemes without regard to their order. The white space between them is the
space, the tabulator and the two line ends. A lexeme may be broken, and then it is the last one.
The escapes of a string are kept as written, because whoever skims over a string does not mind a
surrogate without its partner.
-/

namespace GridPuzzle.Json

/-- A part of a string as it is written. -/
inductive Piece
  | char (c : Char)
  /-- A unit of 16 bits, written as an escape. -/
  | word (n : Nat)
  deriving DecidableEq, Repr

/-- How a string ends. -/
inductive TextEnd
  | closed
  /-- By the end of the text. -/
  | cut
  /-- By a backslash before a character that does not make an escape. -/
  | badEscape
  /-- By an escape without four hexadecimal digits. -/
  | badWord
  /-- By a control character. -/
  | control
  deriving DecidableEq, Repr

/-- A string as it is written. -/
structure RawText where
  pieces : List Piece
  ending : TextEnd
  deriving DecidableEq, Repr

/-- The smallest parts of a JSON text. -/
inductive Lexeme
  | openObject
  | closeObject
  | openList
  | closeList
  | colon
  | comma
  | null
  | truth (b : Bool)
  | text (t : RawText)
  | number (n : Number)
  /-- A word that is none of the three; cut by the end of the text or otherwise wrong. -/
  | brokenWord (cut : Bool)
  /-- A number that is not one; cut by the end of the text or otherwise wrong. -/
  | brokenNumber (cut : Bool)
  /-- A character that starts no lexeme. -/
  | stray
  deriving DecidableEq, Repr

/-- Whether nothing is read after a lexeme. -/
def Lexeme.isBroken : Lexeme → Bool
  | .text t => t.ending != .closed
  | .brokenWord _ => true
  | .brokenNumber _ => true
  | .stray => true
  | _ => false

namespace Lexeme

/-- The white space of JSON. -/
def isBlank (c : Char) : Bool := c == ' ' || c == '\t' || c == '\n' || c == '\r'

/-- The value of a hexadecimal digit. -/
def hexValue? (c : Char) : Option Nat :=
  if '0' ≤ c ∧ c ≤ '9' then some (c.toNat - 48)
  else if 'a' ≤ c ∧ c ≤ 'f' then some (c.toNat - 87)
  else if 'A' ≤ c ∧ c ≤ 'F' then some (c.toNat - 55)
  else none

/-- The unit of 16 bits that four characters denote. -/
def wordOf? (a b c d : Char) : Option Nat :=
  match hexValue? a, hexValue? b, hexValue? c, hexValue? d with
  | some a, some b, some c, some d => some (((a * 16 + b) * 16 + c) * 16 + d)
  | _, _, _, _ => none

/-- The character of an escape of two characters. -/
def shortEscape? (c : Char) : Option Char :=
  match c with
  | '"' => some '"'
  | '\\' => some '\\'
  | '/' => some '/'
  | 'b' => some '\x08'
  | 'f' => some '\x0c'
  | 'n' => some '\n'
  | 'r' => some '\r'
  | 't' => some '\t'
  | _ => none

/-- How a string ends whose escape lacks its four digits: by the end of the text, unless four bytes
are left. -/
def shortOfDigits (rest : List Char) : TextEnd :=
  if (rest.take 4).foldl (fun n c => n + c.utf8Size) 0 < 4 then .cut else .badWord

/-- Read a string after its opening quote; the pieces so far are given in reverse. -/
def readText (pieces : List Piece) : List Char → RawText × List Char
  | [] => (⟨pieces.reverse, .cut⟩, [])
  | '"' :: rest => (⟨pieces.reverse, .closed⟩, rest)
  | '\\' :: 'u' :: a :: b :: c :: d :: rest =>
    match wordOf? a b c d with
    | some n => readText (.word n :: pieces) rest
    | none => (⟨pieces.reverse, .badWord⟩, [])
  | '\\' :: 'u' :: rest => (⟨pieces.reverse, shortOfDigits rest⟩, [])
  | '\\' :: c :: rest =>
    match shortEscape? c with
    | some e => readText (.char e :: pieces) rest
    | none => (⟨pieces.reverse, .badEscape⟩, [])
  | ['\\'] => (⟨pieces.reverse, .cut⟩, [])
  | c :: rest =>
    if c.toNat < 0x20 then
      (⟨pieces.reverse, .control⟩, [])
    else
      readText (.char c :: pieces) rest

/-- Read the rest of a word. -/
def readWord (whole : Lexeme) : List Char → List Char → Lexeme × List Char
  | [], rest => (whole, rest)
  | _ :: _, [] => (.brokenWord true, [])
  | w :: ws, c :: rest => if w = c then readWord whole ws rest else (.brokenWord false, [])

/-- The sign of an exponent, true when it is a minus, and what comes after it. -/
def readSign : List Char → Bool × List Char
  | '+' :: rest => (false, rest)
  | '-' :: rest => (true, rest)
  | rest => (false, rest)

/-- Read the exponent of a number, if there is one. -/
def readExponent (negative : Bool) (whole : List Char) (fraction : Option (List Char)) :
    List Char → Lexeme × List Char
  | [] => (.number ⟨negative, whole, fraction, none⟩, [])
  | c :: rest =>
    if c = 'e' ∨ c = 'E' then
      let ds := (readSign rest).2.takeWhile Char.isDigit
      let rest' := (readSign rest).2.dropWhile Char.isDigit
      if ds.isEmpty then
        (.brokenNumber rest'.isEmpty, [])
      else
        (.number ⟨negative, whole, fraction, some ((readSign rest).1, ds)⟩, rest')
    else
      (.number ⟨negative, whole, fraction, none⟩, c :: rest)

/-- Read the fraction of a number, if there is one, and its exponent. -/
def readFraction (negative : Bool) (whole : List Char) : List Char → Lexeme × List Char
  | [] => (.number ⟨negative, whole, none, none⟩, [])
  | c :: rest =>
    if c = '.' then
      let ds := rest.takeWhile Char.isDigit
      let rest' := rest.dropWhile Char.isDigit
      if ds.isEmpty then
        (.brokenNumber rest'.isEmpty, [])
      else
        readExponent negative whole (some ds) rest'
    else
      readExponent negative whole none (c :: rest)

/-- Whether digits start with a zero that others follow. -/
def hasLeadingZero : List Char → Bool
  | '0' :: _ :: _ => true
  | _ => false

/-- Read a number after its sign; no digit follows a leading zero. -/
def readNumber (negative : Bool) (cs : List Char) : Lexeme × List Char :=
  let ds := cs.takeWhile Char.isDigit
  let rest := cs.dropWhile Char.isDigit
  if ds.isEmpty then
    (.brokenNumber rest.isEmpty, [])
  else if hasLeadingZero ds then
    (.brokenNumber false, [])
  else
    readFraction negative ds rest

/-- Read the lexeme that starts with a character. -/
def read (c : Char) (rest : List Char) : Lexeme × List Char :=
  match c with
  | '\x7b' => (.openObject, rest)
  | '\x7d' => (.closeObject, rest)
  | '[' => (.openList, rest)
  | ']' => (.closeList, rest)
  | ':' => (.colon, rest)
  | ',' => (.comma, rest)
  | '"' =>
    let (t, rest) := readText [] rest
    (.text t, rest)
  | '-' => readNumber true rest
  | 'n' => readWord .null ['u', 'l', 'l'] rest
  | 't' => readWord (.truth true) ['r', 'u', 'e'] rest
  | 'f' => readWord (.truth false) ['a', 'l', 's', 'e'] rest
  | _ => if c.isDigit then readNumber false (c :: rest) else (.stray, [])

theorem length_readText (pieces : List Piece) (cs : List Char) :
    (readText pieces cs).2.length ≤ cs.length := by
  fun_induction readText pieces cs <;> simp_all <;> omega

theorem length_readWord (whole : Lexeme) (ws cs : List Char) :
    (readWord whole ws cs).2.length ≤ cs.length := by
  fun_induction readWord whole ws cs with
  | case1 => exact Nat.le_refl _
  | case2 => simp
  | case3 w ws rest ih =>
    simp only [List.length_cons]
    omega
  | case4 => simp

private theorem length_dropDigits (cs : List Char) :
    (cs.dropWhile Char.isDigit).length ≤ cs.length := by
  have h := congrArg List.length (List.takeWhile_append_dropWhile (p := Char.isDigit) (l := cs))
  simp only [List.length_append] at h
  omega

theorem length_readSign (cs : List Char) : (readSign cs).2.length ≤ cs.length := by
  unfold readSign
  split <;> simp

theorem length_readExponent (negative : Bool) (whole : List Char) (fraction : Option (List Char))
    (cs : List Char) : (readExponent negative whole fraction cs).2.length ≤ cs.length := by
  cases cs with
  | nil => simp [readExponent]
  | cons c rest =>
    have hs := length_readSign rest
    have hd := length_dropDigits (readSign rest).2
    simp only [readExponent]
    split
    · split
      · simp
      · simp only [List.length_cons]
        omega
    · simp

theorem length_readFraction (negative : Bool) (whole cs : List Char) :
    (readFraction negative whole cs).2.length ≤ cs.length := by
  cases cs with
  | nil => simp [readFraction]
  | cons c rest =>
    have hd := length_dropDigits rest
    simp only [readFraction]
    split
    · split
      · simp
      · exact Nat.le_trans (length_readExponent ..) (by simp only [List.length_cons]; omega)
    · exact length_readExponent ..

theorem length_readNumber (negative : Bool) (cs : List Char) :
    (readNumber negative cs).2.length ≤ cs.length := by
  simp only [readNumber]
  split
  · simp
  · split
    · simp
    · exact Nat.le_trans (length_readFraction ..) (length_dropDigits cs)

/-- Digits that a number starts with are taken off. -/
theorem length_readNumber_lt (c : Char) (rest : List Char) (h : c.isDigit) :
    (readNumber false (c :: rest)).2.length ≤ rest.length := by
  have hd := length_dropDigits rest
  simp only [readNumber]
  split
  · simp
  · split
    · simp
    · refine Nat.le_trans (length_readFraction ..) ?_
      simpa [List.dropWhile_cons, h] using hd

/-- Whatever starts with a character, at least that character is taken off. -/
theorem length_read (c : Char) (rest : List Char) : (read c rest).2.length ≤ rest.length := by
  unfold read
  split
  all_goals first
    | exact Nat.le_refl _
    | exact length_readText ..
    | exact length_readNumber ..
    | exact length_readWord ..
    | skip
  split
  · exact length_readNumber_lt c rest (by assumption)
  · simp

/-- Cut a text into lexemes, up to the first broken one; the lexemes so far are given in
reverse. -/
def cutInto (done : List Lexeme) (cs : List Char) : List Lexeme :=
  match cs with
  | [] => done.reverse
  | c :: rest =>
    if isBlank c then
      cutInto done rest
    else
      let found := read c rest
      if found.1.isBroken then
        (found.1 :: done).reverse
      else
        cutInto (found.1 :: done) found.2
  termination_by cs.length
  decreasing_by
    · simp
    · have := length_read c rest
      simp only [List.length_cons]
      omega

/-- The lexemes of a text, up to the first broken one. -/
def ofText (text : String) : List Lexeme := cutInto [] text.toList

end Lexeme

end GridPuzzle.Json
