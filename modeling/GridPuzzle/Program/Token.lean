import GridPuzzle.Grid.Position

/-!
# Tokens of a program text

A head is a keyword, an opening parenthesis, one or more digits and a closing parenthesis. The scan
runs over the bytes of the text. Where a head starts, it takes the head and the word bytes after
it up to the next head, and anywhere else it goes on by one byte. A head whose count fits a word of
32 bits is a token; another one is only noted.
-/

namespace GridPuzzle

/-- The bytes of a direction's keyword. -/
def Direction.keywordBytes : Direction → List UInt8
  | .left => [108, 101, 102, 116]
  | .right => [114, 105, 103, 104, 116]
  | .up => [117, 112]
  | .down => [100, 111, 119, 110]

/-- The bytes are those of the keyword. -/
theorem Direction.keywordBytes_eq (d : Direction) :
    d.keywordBytes = d.keyword.toList.map fun c => c.toNat.toUInt8 := by
  cases d <;> decide

namespace Token

/-- Whether a byte is a decimal digit. -/
def isDigit (b : UInt8) : Bool := 48 ≤ b && b ≤ 57

/-- Whether a byte is a letter, a digit or an underscore. -/
def isWord (b : UInt8) : Bool :=
  isDigit b || (65 ≤ b && b ≤ 90) || (97 ≤ b && b ≤ 122) || b == 95

/-- The number that digit bytes denote, leading zeros allowed. -/
def digitsValue (ds : List UInt8) : Nat := ds.foldl (fun n b => 10 * n + (b.toNat - 48)) 0

/-- A direction together with the digits between its parentheses. -/
structure Head where
  direction : Direction
  digits : List UInt8
  deriving DecidableEq, Repr

/-- How many bytes a head takes. -/
def Head.length (h : Head) : Nat := h.direction.keywordBytes.length + h.digits.length + 2

/-- The head at the very beginning of some bytes. -/
def head? (bs : List UInt8) : Option Head :=
  match Direction.all.find? fun d => d.keywordBytes.isPrefixOf bs with
  | none => none
  | some d =>
    match bs.drop d.keywordBytes.length with
    | 40 :: rest =>
      match rest.takeWhile isDigit, rest.dropWhile isDigit with
      | b :: ds, 41 :: _ => some ⟨d, b :: ds⟩
      | _, _ => none
    | _ => none

/-- How many word bytes come before the next head, the end or another byte. -/
def wordRun : List UInt8 → Nat
  | [] => 0
  | b :: bs => if isWord b && (head? (b :: bs)).isNone then wordRun bs + 1 else 0

/-- A head found in a text, with the byte range that the scan took for it. -/
structure Hit where
  head : Head
  start : Nat
  stop : Nat
  deriving DecidableEq, Repr

/-- Every head that the scan meets, from a byte offset on. -/
def scan (offset : Nat) (bs : List UInt8) : List Hit :=
  match bs with
  | [] => []
  | b :: rest =>
    match head? (b :: rest) with
    | none => scan (offset + 1) rest
    | some h =>
      let n := h.length + wordRun ((b :: rest).drop h.length)
      ⟨h, offset, offset + n⟩ :: scan (offset + n) ((b :: rest).drop n)
  termination_by bs.length
  decreasing_by
    · simp
    · simp [Head.length]
      omega

end Token

/-- A unit of a program: a direction, how often to step, and the byte range it was read from. -/
structure Token where
  direction : Direction
  count : UInt32
  start : Nat
  stop : Nat
  deriving DecidableEq, Repr

namespace Token

/-- The count of a head, if it fits a word of 32 bits. -/
def Head.count? (h : Head) : Option UInt32 :=
  if digitsValue h.digits < UInt32.size then some (UInt32.ofNat (digitsValue h.digits)) else none

/-- The token of a found head, if its count fits. -/
def ofHit? (h : Hit) : Option Token :=
  h.head.count?.map fun n => ⟨h.head.direction, n, h.start, h.stop⟩

/-- Every head that the scan meets in a text. -/
def hits (text : String) : List Hit := scan 0 text.toUTF8.data.toList

/-- The tokens of a text, in order. -/
def tokenize (text : String) : List Token := (hits text).filterMap ofHit?

/-- The byte offsets of the heads whose count does not fit, in order. -/
def oversized (text : String) : List Nat :=
  ((hits text).filter fun h => h.head.count?.isNone).map Hit.start

/-- The part of the text that a token was read from. -/
def slice (t : Token) (text : String) : String := String.Pos.Raw.extract text ⟨t.start⟩ ⟨t.stop⟩

/-- The steps of a token. -/
def steps (t : Token) : List Direction := List.replicate t.count.toNat t.direction

end Token

/-- The single steps that a text asks for: every token as often as it counts, in order. -/
def compile (text : String) : List Direction := (Token.tokenize text).flatMap Token.steps

end GridPuzzle
