import GridPuzzle.Json.Value
import GridPuzzle.Proofs.Json.Spellings

/-!
# The lexemes of a pretty text

The pretty text of a value writes the lexemes of that value. A written string is the lexeme of its
characters, each as itself or as the word of its escape, and it reads as the string. A written
integer is the lexeme of its digits as long as what follows does not continue it, and inside a
pretty text a value is followed by a comma or a line end.
-/

namespace GridPuzzle.Json

/-- How one character of a written string is read: a control character without a short escape as
its word. -/
def pieceOf (c : Char) : Piece :=
  match c with
  | '\x08' => .char c
  | '\x0c' => .char c
  | '\n' => .char c
  | '\r' => .char c
  | '\t' => .char c
  | _ => if c.toNat < 0x20 then .word c.toNat else .char c

/-- A written string as it is read. -/
def rawText (s : String) : RawText := ⟨s.toList.map pieceOf, .closed⟩

/-- A written integer as it is read. -/
def numberOf (n : Int) : Number := ⟨decide (n < 0), Text.digits n.natAbs, none, none⟩

mutual

/-- The lexemes of a value. -/
def Value.lexemes : Value → List Lexeme
  | .integer n => [.number (numberOf n)]
  | .text s => [.text (rawText s)]
  | .list [] => [.openList, .closeList]
  | .list (v :: vs) => .openList :: v.lexemes ++ itemLexemes vs ++ [.closeList]
  | .object [] => [.openObject, .closeObject]
  | .object ((k, v) :: ms) =>
    .openObject :: .text (rawText k) :: .colon :: v.lexemes ++ memberLexemes ms ++ [.closeObject]

/-- The lexemes of the further items of a list. -/
def itemLexemes : List Value → List Lexeme
  | [] => []
  | v :: vs => .comma :: v.lexemes ++ itemLexemes vs

/-- The lexemes of the further members of an object. -/
def memberLexemes : List (String × Value) → List Lexeme
  | [] => []
  | (k, v) :: ms => .comma :: .text (rawText k) :: .colon :: v.lexemes ++ memberLexemes ms

end

/-! ## Strings and integers -/

/-- The escape of a control character denotes it. -/
private theorem wordOf?_hexDigit :
    ∀ n < 32, Lexeme.wordOf? '0' '0' (hexDigit (n / 16)) (hexDigit (n % 16)) = some n := by
  decide

/-- A written character is one piece of a string. -/
theorem pieceOf_spelled (c : Char) : (pieceOf c).Spelled (escapedChar c) := by
  unfold escapedChar
  split
  case h_8 quote backslash back feed line ret tab =>
    have piece : pieceOf c = if c.toNat < 0x20 then .word c.toNat else .char c := by
      unfold pieceOf
      split <;> first | rfl | contradiction
    rw [piece]
    split
    case isTrue control => exact .word (wordOf?_hexDigit _ control)
    case isFalse printed => exact .plain quote backslash (Nat.le_of_not_lt printed)
  all_goals exact .short rfl

/-- A written string is one lexeme. -/
theorem rawText_spelled (s : String) : (Lexeme.text (rawText s)).Spelled (writtenText s) := by
  have pieces (cs : List Char) :
      List.Forall₂ Piece.Spelled (cs.map pieceOf) (cs.map escapedChar) := by
    induction cs with
    | nil => exact .nil
    | cons c cs ih => exact .cons (pieceOf_spelled c) ih
  unfold rawText writtenText
  rw [List.flatMap_def]
  exact .text (pieces s.toList)

/-- The digits of a positive number do not start with a zero. -/
private theorem head_digits {n : Nat} (positive : 0 < n) : (Text.digits n).head? ≠ some '0' := by
  induction n using Nat.strongRecOn with
  | ind n ih =>
    by_cases small : n < 10
    · have first : ∀ m < 10, 0 < m → (Text.digits m).head? ≠ some '0' := by decide
      exact first n small positive
    · obtain ⟨c, cs, higher⟩ : ∃ c cs, Text.digits (n / 10) = c :: cs :=
        List.exists_cons_of_ne_nil Nat.toDigits_ne_nil
      have first := ih (n / 10) (by omega) (by omega)
      rw [higher] at first
      rw [Text.digits, Nat.toDigits_of_base_le (by decide) (by omega), ← Text.digits, higher]
      exact first

private theorem hasLeadingZero_digits (n : Nat) :
    Lexeme.hasLeadingZero (Text.digits n) = false := by
  cases n with
  | zero => rfl
  | succ n =>
    have first := head_digits (Nat.succ_pos n)
    unfold Lexeme.hasLeadingZero
    split
    next digits => simp [digits] at first
    next => rfl

private theorem isDigit_of_mem_digits {n : Nat} : ∀ c ∈ Text.digits n, c.isDigit = true :=
  fun _ mem => Nat.isDigit_of_mem_toDigits (by decide) (by decide) mem

/-- A written integer is one lexeme. -/
theorem numberOf_spelled (n : Int) : (numberOf n).Spelled (Text.integer n).toList := by
  have spelled : (numberOf n).Spelled
      ((if decide (n < 0) then ['-'] else []) ++ Text.digits n.natAbs ++ [] ++ []) :=
    .mk ⟨Nat.toDigits_ne_nil, isDigit_of_mem_digits⟩ (hasLeadingZero_digits _) .none .none
  have written : (Text.integer n).toList =
      (if decide (n < 0) then ['-'] else []) ++ Text.digits n.natAbs ++ [] ++ [] := by
    cases n with
    | ofNat n =>
      have sign : ¬(n : Int) < 0 := by omega
      simp [Text.integer, Text.natural, sign]
    | negSucc n => simp [Text.integer, Text.natural]
  rw [written]
  exact spelled

/-! ## Values -/

namespace Lexeme

/-- A line end, as well as a comma, does not continue a number. -/
private theorem endsNumber_prettyItems (depth : Nat) (vs : List Value) {rest : List Char}
    (ends : endsNumber rest = true) : endsNumber (prettyItems depth vs ++ rest) = true := by
  cases vs with
  | nil => simpa [prettyItems] using ends
  | cons v vs => simp [prettyItems, endsNumber]

private theorem endsNumber_prettyMembers (depth : Nat) (ms : List (String × Value))
    {rest : List Char} (ends : endsNumber rest = true) :
    endsNumber (prettyMembers depth ms ++ rest) = true := by
  cases ms with
  | nil => simpa [prettyMembers] using ends
  | cons m ms => simp [prettyMembers, endsNumber]

private theorem endsNumber_newLine (depth : Nat) (rest : List Char) :
    endsNumber (newLine depth ++ rest) = true := by
  simp [newLine, endsNumber]

/-- A mark stands for its lexeme. -/
private theorem Laid.mark {l : Lexeme} {c : Char} (spelled : l.Spelled [c])
    (mark : ∀ n, l ≠ .number n) {ls : List Lexeme} {rest : List Char} (laid : Laid ls rest) :
    Laid (l :: ls) (c :: rest) :=
  .lexeme spelled (fun n number => absurd number (mark n)) laid

/-- The start of a line is white space. -/
private theorem Laid.newLine (depth : Nat) {ls : List Lexeme} {rest : List Char}
    (laid : Laid ls rest) : Laid ls (newLine depth ++ rest) := by
  have spaces (n : Nat) : Laid ls (List.replicate n ' ' ++ rest) := by
    induction n with
    | zero => exact laid
    | succ n ih => exact .blank rfl ih
  exact .blank rfl (spaces _)

private theorem Laid.writtenText (s : String) {ls : List Lexeme} {rest : List Char}
    (laid : Laid ls rest) : Laid (.text (rawText s) :: ls) (writtenText s ++ rest) :=
  .lexeme (rawText_spelled s) nofun laid

private theorem Laid.key (k : String) {ls : List Lexeme} {rest : List Char} (laid : Laid ls rest) :
    Laid (.text (rawText k) :: .colon :: ls) (Json.writtenText k ++ (':' :: ' ' :: rest)) :=
  .writtenText k (.mark .colon nofun (.blank rfl laid))

mutual

/-- The pretty text of a value writes the lexemes of the value. -/
theorem laid_pretty (v : Value) (depth : Nat) {ls : List Lexeme} {rest : List Char}
    (ends : endsNumber rest = true) (laid : Laid ls rest) :
    Laid (v.lexemes ++ ls) (v.pretty depth ++ rest) := by
  match v with
  | .integer n => exact .lexeme (.number (numberOf_spelled n)) (fun _ _ => ends) laid
  | .text s => exact .writtenText s laid
  | .list [] => exact .mark .openList nofun (.mark .closeList nofun laid)
  | .list (v :: vs) =>
    have close := endsNumber_newLine depth (']' :: rest)
    have further := laid_prettyItems vs (depth + 1) close
      (.newLine depth (.mark .closeList nofun laid))
    have first := laid_pretty v (depth + 1) (endsNumber_prettyItems (depth + 1) vs close) further
    simpa [Value.pretty, Value.lexemes] using
      Laid.mark .openList nofun (.newLine (depth + 1) first)
  | .object [] => exact .mark .openObject nofun (.mark .closeObject nofun laid)
  | .object ((k, v) :: ms) =>
    have close := endsNumber_newLine depth ('\x7d' :: rest)
    have further := laid_prettyMembers ms (depth + 1) close
      (.newLine depth (.mark .closeObject nofun laid))
    have first := laid_pretty v (depth + 1) (endsNumber_prettyMembers (depth + 1) ms close) further
    simpa [Value.pretty, Value.lexemes] using
      Laid.mark .openObject nofun (.newLine (depth + 1) (.key k first))

theorem laid_prettyItems (vs : List Value) (depth : Nat) {ls : List Lexeme} {rest : List Char}
    (ends : endsNumber rest = true) (laid : Laid ls rest) :
    Laid (itemLexemes vs ++ ls) (prettyItems depth vs ++ rest) := by
  match vs with
  | [] => exact laid
  | v :: vs =>
    have first := laid_pretty v depth (endsNumber_prettyItems depth vs ends)
      (laid_prettyItems vs depth ends laid)
    simpa [prettyItems, itemLexemes] using Laid.mark .comma nofun (.newLine depth first)

theorem laid_prettyMembers (ms : List (String × Value)) (depth : Nat) {ls : List Lexeme}
    {rest : List Char} (ends : endsNumber rest = true) (laid : Laid ls rest) :
    Laid (memberLexemes ms ++ ls) (prettyMembers depth ms ++ rest) := by
  match ms with
  | [] => exact laid
  | (k, v) :: ms =>
    have first := laid_pretty v depth (endsNumber_prettyMembers depth ms ends)
      (laid_prettyMembers ms depth ends laid)
    simpa [prettyMembers, memberLexemes] using
      Laid.mark .comma nofun (.newLine depth (.key k first))

end

/-- The pretty text of a value is a text of its lexemes. -/
theorem laid_prettyText (v : Value) : Laid v.lexemes v.prettyText.toList := by
  have whole : Laid (v.lexemes ++ []) (v.pretty 0 ++ []) := laid_pretty v 0 rfl .nil
  rw [List.append_nil, List.append_nil] at whole
  rw [Value.prettyText, String.toList_ofList]
  exact whole

end Lexeme

end GridPuzzle.Json
