import GridPuzzle.Json.Tree
import Mathlib.Data.List.Forall2
import Mathlib.Data.List.TakeWhile

/-!
# The spellings of lexemes

A character of a string may be written as itself or as an escape, a number in any way that the
grammar allows, and white space may stand between lexemes. However some lexemes are written, they
are what the text is cut into.
-/

namespace GridPuzzle.Json

/-- How a piece of a string is written. -/
inductive Piece.Spelled : Piece → List Char → Prop
  | plain {c : Char} (hquote : c ≠ '"') (hslash : c ≠ '\\') (hprinted : 0x20 ≤ c.toNat) :
      Piece.Spelled (.char c) [c]
  | short {c e : Char} (h : Lexeme.shortEscape? c = some e) : Piece.Spelled (.char e) ['\\', c]
  | word {a b c d : Char} {n : Nat} (h : Lexeme.wordOf? a b c d = some n) :
      Piece.Spelled (.word n) ['\\', 'u', a, b, c, d]

/-- One digit or more. -/
def Digits (ds : List Char) : Prop := ds ≠ [] ∧ ∀ c ∈ ds, c.isDigit = true

/-- How the fraction of a number is written. -/
inductive FractionSpelled : Option (List Char) → List Char → Prop
  | none : FractionSpelled none []
  | point {ds : List Char} (hds : Digits ds) : FractionSpelled (some ds) ('.' :: ds)

/-- How the exponent of a number is written, by its sign: true is a minus. -/
inductive ExponentSpelled : Option (Bool × List Char) → List Char → Prop
  | none : ExponentSpelled none []
  | unsigned {mark : Char} {ds : List Char} (hmark : mark = 'e' ∨ mark = 'E') (hds : Digits ds) :
      ExponentSpelled (some (false, ds)) (mark :: ds)
  | plus {mark : Char} {ds : List Char} (hmark : mark = 'e' ∨ mark = 'E') (hds : Digits ds) :
      ExponentSpelled (some (false, ds)) (mark :: '+' :: ds)
  | minus {mark : Char} {ds : List Char} (hmark : mark = 'e' ∨ mark = 'E') (hds : Digits ds) :
      ExponentSpelled (some (true, ds)) (mark :: '-' :: ds)

/-- How a number is written: no digit follows a leading zero. -/
inductive Number.Spelled : Number → List Char → Prop
  | mk {negative : Bool} {whole before after : List Char} {fraction : Option (List Char)}
      {exponent : Option (Bool × List Char)} (hwhole : Digits whole)
      (hleading : Lexeme.hasLeadingZero whole = false) (hbefore : FractionSpelled fraction before)
      (hafter : ExponentSpelled exponent after) :
      Number.Spelled ⟨negative, whole, fraction, exponent⟩
        ((if negative then ['-'] else []) ++ whole ++ before ++ after)

namespace Lexeme

/-- How a lexeme is written. -/
inductive Spelled : Lexeme → List Char → Prop
  | openObject : Spelled .openObject ['\x7b']
  | closeObject : Spelled .closeObject ['\x7d']
  | openList : Spelled .openList ['[']
  | closeList : Spelled .closeList [']']
  | colon : Spelled .colon [':']
  | comma : Spelled .comma [',']
  | null : Spelled .null ['n', 'u', 'l', 'l']
  | yes : Spelled (.truth true) ['t', 'r', 'u', 'e']
  | no : Spelled (.truth false) ['f', 'a', 'l', 's', 'e']
  | text {ps : List Piece} {words : List (List Char)} (h : List.Forall₂ Piece.Spelled ps words) :
      Spelled (.text ⟨ps, .closed⟩) ('"' :: words.flatten ++ ['"'])
  | number {n : Number} {cs : List Char} (h : n.Spelled cs) : Spelled (.number n) cs

/-- Whether what follows a number does not continue it. -/
def endsNumber : List Char → Bool
  | [] => true
  | c :: _ => !c.isDigit && c != '.' && c != 'e' && c != 'E'

/-- A text of some lexemes with white space between them. What follows a number does not continue
it. -/
inductive Laid : List Lexeme → List Char → Prop
  | nil : Laid [] []
  | blank {ls : List Lexeme} {c : Char} {cs : List Char} (hblank : isBlank c = true)
      (h : Laid ls cs) : Laid ls (c :: cs)
  | lexeme {l : Lexeme} {ls : List Lexeme} {word rest : List Char} (hword : l.Spelled word)
      (hends : ∀ n, l = .number n → endsNumber rest = true) (h : Laid ls rest) :
      Laid (l :: ls) (word ++ rest)

/-! ## Cutting a text -/

/-- The lexemes of some characters, up to the first broken one. -/
def ofChars (cs : List Char) : List Lexeme := cutInto [] cs

private theorem cutInto_blank {c : Char} (done : List Lexeme) (rest : List Char)
    (blank : isBlank c = true) : cutInto done (c :: rest) = cutInto done rest := by
  rw [cutInto]
  exact if_pos blank

private theorem cutInto_cons {c : Char} (done : List Lexeme) (rest : List Char)
    (blank : ¬isBlank c = true) :
    cutInto done (c :: rest) =
      if (read c rest).1.isBroken then ((read c rest).1 :: done).reverse
      else cutInto ((read c rest).1 :: done) (read c rest).2 := by
  rw [cutInto]
  exact if_neg blank

/-- The lexemes so far are only put in front. -/
private theorem cutInto_append (done before : List Lexeme) (cs : List Char) :
    cutInto (done ++ before) cs = before.reverse ++ cutInto done cs := by
  fun_induction cutInto done cs with
  | case1 done => simp [cutInto]
  | case2 done c rest blank ih => rw [cutInto_blank _ _ blank, ih]
  | case3 done c rest blank found broken =>
    rw [cutInto_cons _ _ blank, if_pos broken, ← List.cons_append, List.reverse_append]
  | case4 done c rest blank found whole ih =>
    rw [cutInto_cons _ _ blank, if_neg whole]
    exact ih

@[simp]
theorem ofChars_nil : ofChars [] = [] := by simp [ofChars, cutInto]

/-- White space is no lexeme. -/
theorem ofChars_blank {c : Char} (rest : List Char) (blank : isBlank c = true) :
    ofChars (c :: rest) = ofChars rest :=
  cutInto_blank [] rest blank

/-- A whole lexeme is followed by the lexemes of the rest. -/
theorem ofChars_of_read {c : Char} {rest rest' : List Char} {l : Lexeme}
    (blank : isBlank c = false) (found : read c rest = (l, rest')) (whole : l.isBroken = false) :
    ofChars (c :: rest) = l :: ofChars rest' := by
  rw [ofChars, cutInto_cons [] rest (by simp [blank]), found, if_neg (by simp [whole])]
  exact cutInto_append [] [l] rest'

/-! ## Strings -/

/-- A piece is read however it is written. -/
theorem readText_piece {p : Piece} {word : List Char} (h : p.Spelled word) (pieces : List Piece)
    (rest : List Char) : readText pieces (word ++ rest) = readText (p :: pieces) rest := by
  cases h with
  | @plain c hquote hslash hprinted =>
    rw [List.cons_append, List.nil_append, readText]
    · rw [if_neg (Nat.not_lt.mpr hprinted)]
    all_goals simp_all
  | @short c e h =>
    unfold shortEscape? at h
    split at h <;> cases h <;> rfl
  | word h =>
    simp only [List.cons_append, List.nil_append, readText, h]

/-- The pieces of a string are read up to its closing quote. -/
theorem readText_pieces {ps : List Piece} {words : List (List Char)}
    (h : List.Forall₂ Piece.Spelled ps words) (pieces : List Piece) (rest : List Char) :
    readText pieces (words.flatten ++ '"' :: rest) = (⟨pieces.reverse ++ ps, .closed⟩, rest) := by
  induction h generalizing pieces with
  | nil => simp [readText]
  | cons hp _ ih =>
    rw [List.flatten_cons, List.append_assoc, readText_piece hp, ih]
    simp

/-! ## Numbers -/

/-- Digits are taken up to what is no digit. -/
theorem span_digits {ds rest : List Char} (hds : Digits ds)
    (hrest : rest.takeWhile Char.isDigit = [] ∧ rest.dropWhile Char.isDigit = rest) :
    (ds ++ rest).takeWhile Char.isDigit = ds ∧ (ds ++ rest).dropWhile Char.isDigit = rest := by
  rw [List.takeWhile_append_of_pos hds.2, List.dropWhile_append_of_pos hds.2, hrest.1, hrest.2,
    List.append_nil]
  exact ⟨rfl, rfl⟩

/-- Nothing is taken of what starts with no digit. -/
theorem span_of_head {rest : List Char} (h : ∀ c, rest.head? = some c → c.isDigit = false) :
    rest.takeWhile Char.isDigit = [] ∧ rest.dropWhile Char.isDigit = rest := by
  cases rest with
  | nil => exact ⟨rfl, rfl⟩
  | cons c rest => simp [h c rfl]

/-- What ends a number starts with no digit, and with no point or exponent either. -/
theorem head_ends {rest : List Char} (hends : endsNumber rest = true) :
    ∀ c, rest.head? = some c → c.isDigit = false ∧ c ≠ '.' ∧ ¬(c = 'e' ∨ c = 'E') := by
  cases rest with
  | nil => nofun
  | cons c rest =>
    rintro c' hc
    cases hc
    simp_all [endsNumber]

/-- Digits have no sign. -/
theorem readSign_digits {ds : List Char} (hds : Digits ds) (rest : List Char) :
    readSign (ds ++ rest) = (false, ds ++ rest) := by
  obtain ⟨hne, hdigits⟩ := hds
  cases ds with
  | nil => exact absurd rfl hne
  | cons c ds =>
    have hc := hdigits c List.mem_cons_self
    rw [List.cons_append]
    unfold readSign
    split
    · rename_i heq
      cases heq
      exact absurd hc (by decide)
    · rename_i heq
      cases heq
      exact absurd hc (by decide)
    · rfl

theorem readExponent_spelled {exponent : Option (Bool × List Char)} {after rest : List Char}
    (h : ExponentSpelled exponent after) (hends : endsNumber rest = true) (negative : Bool)
    (whole : List Char) (fraction : Option (List Char)) :
    readExponent negative whole fraction (after ++ rest) =
      (.number ⟨negative, whole, fraction, exponent⟩, rest) := by
  -- the digits of an exponent, after its mark and its sign
  have marked {mark : Char} (cs : List Char) {ds : List Char} {sign : Bool}
      (hmark : mark = 'e' ∨ mark = 'E') (hds : Digits ds)
      (hsign : readSign (cs ++ rest) = (sign, ds ++ rest)) :
      readExponent negative whole fraction (mark :: (cs ++ rest)) =
        (.number ⟨negative, whole, fraction, some (sign, ds)⟩, rest) := by
    obtain ⟨htake, hdrop⟩ :=
      span_digits hds (span_of_head fun c hc => (head_ends hends c hc).1)
    have hne : ds.isEmpty = false := by simpa using hds.1
    simp only [readExponent, if_pos hmark, hsign, htake, hdrop, hne, Bool.false_eq_true, if_false]
  cases h with
  | none =>
    cases rest with
    | nil => rfl
    | cons c rest =>
      obtain ⟨-, -, hmark⟩ := head_ends hends c rfl
      simp only [List.nil_append, readExponent, if_neg hmark]
  | unsigned hmark hds => exact marked _ hmark hds (readSign_digits hds rest)
  | plus hmark hds => exact marked ('+' :: _) hmark hds rfl
  | minus hmark hds => exact marked ('-' :: _) hmark hds rfl

/-- What stands after the digits before an exponent starts with no digit and is no point. -/
theorem head_exponent {exponent : Option (Bool × List Char)} {after rest : List Char}
    (h : ExponentSpelled exponent after) (hends : endsNumber rest = true) :
    ∀ c, (after ++ rest).head? = some c → c.isDigit = false ∧ c ≠ '.' := by
  have marked {mark : Char} (hmark : mark = 'e' ∨ mark = 'E') (cs : List Char) :
      ∀ c, (mark :: cs).head? = some c → c.isDigit = false ∧ c ≠ '.' := by
    rintro c hc
    cases hc
    rcases hmark with rfl | rfl <;> decide
  cases h with
  | none => exact fun c hc => ⟨(head_ends hends c hc).1, (head_ends hends c hc).2.1⟩
  | unsigned hmark | plus hmark | minus hmark => exact marked hmark _

theorem readFraction_spelled {fraction : Option (List Char)}
    {exponent : Option (Bool × List Char)} {before after rest : List Char}
    (hbefore : FractionSpelled fraction before) (hafter : ExponentSpelled exponent after)
    (hends : endsNumber rest = true) (negative : Bool) (whole : List Char) :
    readFraction negative whole (before ++ (after ++ rest)) =
      (.number ⟨negative, whole, fraction, exponent⟩, rest) := by
  have hhead := head_exponent hafter hends
  have hexponent (fraction : Option (List Char)) :=
    readExponent_spelled hafter hends negative whole fraction
  generalize after ++ rest = cs at hhead hexponent
  cases hbefore with
  | none =>
    rw [List.nil_append, ← hexponent]
    cases cs with
    | nil => rfl
    | cons c cs => simp only [readFraction, if_neg (hhead c rfl).2]
  | @point ds hds =>
    obtain ⟨htake, hdrop⟩ := span_digits hds (span_of_head fun c hc => (hhead c hc).1)
    have hne : ds.isEmpty = false := by simpa using hds.1
    simp only [List.cons_append, readFraction, if_true, htake, hdrop, hne, Bool.false_eq_true,
      if_false, hexponent]

/-- What stands after the first digits of a number starts with no digit. -/
theorem head_fraction {fraction : Option (List Char)} {before cs : List Char}
    (h : FractionSpelled fraction before)
    (hcs : ∀ c, cs.head? = some c → c.isDigit = false) :
    ∀ c, (before ++ cs).head? = some c → c.isDigit = false := by
  cases h with
  | none => exact hcs
  | point hds =>
    rintro c hc
    cases hc
    decide

theorem readNumber_spelled {whole before after rest : List Char} {fraction : Option (List Char)}
    {exponent : Option (Bool × List Char)} (hwhole : Digits whole)
    (hleading : hasLeadingZero whole = false) (hbefore : FractionSpelled fraction before)
    (hafter : ExponentSpelled exponent after) (hends : endsNumber rest = true) (negative : Bool) :
    readNumber negative (whole ++ (before ++ (after ++ rest))) =
      (.number ⟨negative, whole, fraction, exponent⟩, rest) := by
  obtain ⟨htake, hdrop⟩ := span_digits hwhole
    (span_of_head (head_fraction hbefore fun c hc => (head_exponent hafter hends c hc).1))
  have hne : whole.isEmpty = false := by simpa using hwhole.1
  simp only [readNumber, htake, hdrop, hne, hleading, Bool.false_eq_true, if_false]
  exact readFraction_spelled hbefore hafter hends negative whole

/-- A digit starts a number. -/
theorem read_digit {c : Char} (digit : c.isDigit = true) (rest : List Char) :
    isBlank c = false ∧ read c rest = readNumber false (c :: rest) := by
  constructor
  · rw [← Bool.not_eq_true]
    intro blank
    simp only [isBlank, Bool.or_eq_true, beq_iff_eq] at blank
    obtain ((rfl | rfl) | rfl) | rfl := blank <;> simp at digit
  · unfold read
    split
    case h_12 => exact if_pos digit
    all_goals exact absurd digit (by decide)

/-- A number is one lexeme, however it is written. -/
theorem ofChars_number {n : Number} {word rest : List Char} (h : n.Spelled word)
    (hends : endsNumber rest = true) : ofChars (word ++ rest) = .number n :: ofChars rest := by
  obtain @⟨negative, whole, before, after, fraction, exponent, hwhole, hleading, hbefore,
    hafter⟩ := h
  have hread := readNumber_spelled hwhole hleading hbefore hafter hends negative
  simp only [List.append_assoc]
  cases negative with
  | true => exact ofChars_of_read rfl hread rfl
  | false =>
    obtain ⟨c, cs, rfl⟩ := List.exists_cons_of_ne_nil hwhole.1
    obtain ⟨hblank, hstart⟩ :=
      read_digit (hwhole.2 c List.mem_cons_self) (cs ++ (before ++ (after ++ rest)))
    exact ofChars_of_read hblank (hstart.trans hread) rfl

/-! ## Texts -/

/-- A lexeme is cut off a text, however it is written. -/
theorem ofChars_spelled {l : Lexeme} {word rest : List Char} (h : l.Spelled word)
    (hends : ∀ n, l = .number n → endsNumber rest = true) :
    ofChars (word ++ rest) = l :: ofChars rest := by
  cases h with
  | openObject | closeObject | openList | closeList | colon | comma | null | yes | no =>
    exact ofChars_of_read rfl rfl rfl
  | @text ps words h =>
    have hread : read '"' (words.flatten ++ '"' :: rest) = (.text ⟨ps, .closed⟩, rest) := by
      simp only [read, readText_pieces h, List.reverse_nil, List.nil_append]
    simp only [List.cons_append, List.append_assoc, List.nil_append]
    exact ofChars_of_read rfl hread rfl
  | number h => exact ofChars_number h (hends _ rfl)

/-- The lexemes of a text are found, whatever the white space between them. -/
theorem ofChars_of_laid {ls : List Lexeme} {cs : List Char} (h : Laid ls cs) : ofChars cs = ls := by
  induction h with
  | nil => exact ofChars_nil
  | blank hblank _ ih => rw [ofChars_blank _ hblank, ih]
  | lexeme hword hends _ ih => rw [ofChars_spelled hword hends, ih]

end Lexeme

end GridPuzzle.Json
