import GridPuzzle.Proofs.Json.Lexemes
import GridPuzzle.Proofs.Json.Records

/-!
# The document of a pretty text

The pretty text of a value is one way to write its tree, so its document is that tree with nothing
after it. The tree of an object writes what its members write, and the tree of an integer of 64 bits
is read as the integer.
-/

namespace GridPuzzle.Json

mutual

/-- A value as it is read. -/
def Value.tree : Value → Tree
  | .integer n => .number (numberOf n)
  | .text s => .text (rawText s)
  | .list vs => .list (itemTrees vs) .closed
  | .object ms => .object (memberTrees ms) .closed

/-- The items of a list as they are read. -/
def itemTrees : List Value → List Tree
  | [] => []
  | v :: vs => v.tree :: itemTrees vs

/-- The members of an object as they are read. -/
def memberTrees : List (String × Value) → List (RawText × Tree)
  | [] => []
  | (k, v) :: ms => (rawText k, v.tree) :: memberTrees ms

end

mutual

/-- The tree of a value has no break. -/
theorem Value.whole_tree (v : Value) : v.tree.Whole := by
  match v with
  | .integer _ => trivial
  | .text _ => rfl
  | .list vs => exact ⟨rfl, wholeItems_itemTrees vs⟩
  | .object ms => exact ⟨rfl, wholeMembers_memberTrees ms⟩

theorem wholeItems_itemTrees (vs : List Value) : WholeItems (itemTrees vs) := by
  match vs with
  | [] => trivial
  | v :: vs => exact ⟨v.whole_tree, wholeItems_itemTrees vs⟩

theorem wholeMembers_memberTrees (ms : List (String × Value)) : WholeMembers (memberTrees ms) := by
  match ms with
  | [] => trivial
  | (_, v) :: ms => exact ⟨rfl, v.whole_tree, wholeMembers_memberTrees ms⟩

end

mutual

/-- The lexemes of a value are those of its tree. -/
theorem Value.lexemes_tree (v : Value) : v.tree.lexemes = v.lexemes := by
  match v with
  | .integer _ | .text _ | .list [] | .object [] => rfl
  | .list (v :: vs) =>
    simp only [Value.tree, itemTrees, Tree.lexemes, Value.lexemes, v.lexemes_tree,
      furtherItems_itemTrees vs]
  | .object ((_, v) :: ms) =>
    simp only [Value.tree, memberTrees, Tree.lexemes, Value.lexemes, v.lexemes_tree,
      furtherMembers_memberTrees ms]

theorem furtherItems_itemTrees (vs : List Value) :
    furtherItems (itemTrees vs) = itemLexemes vs := by
  match vs with
  | [] => rfl
  | v :: vs =>
    simp only [itemTrees, furtherItems, itemLexemes, v.lexemes_tree, furtherItems_itemTrees vs]

theorem furtherMembers_memberTrees (ms : List (String × Value)) :
    furtherMembers (memberTrees ms) = memberLexemes ms := by
  match ms with
  | [] => rfl
  | (_, v) :: ms =>
    simp only [memberTrees, furtherMembers, memberLexemes, v.lexemes_tree,
      furtherMembers_memberTrees ms]

end

/-- The pretty text of a value is one way to write its tree. -/
theorem Value.laidOut (v : Value) : v.tree.LaidOut v.prettyText :=
  ⟨v.whole_tree, v.lexemes_tree ▸ Lexeme.laid_prettyText v⟩

/-! ## Strings and objects -/

/-- The pieces of a written string denote its characters. -/
theorem denoted_pieceOf (cs : List Char) : Denoted cs (cs.map pieceOf) := by
  induction cs with
  | nil => exact .nil
  | cons c cs ih =>
    have hpiece : pieceOf c = .char c ∨ pieceOf c = .word c.toNat ∧ c.toNat < 0x20 := by
      unfold pieceOf
      split
      case h_6 =>
        split
        case isTrue control => exact .inr ⟨rfl, control⟩
        case isFalse => exact .inl rfl
      all_goals exact .inl rfl
    rw [List.map_cons]
    rcases hpiece with heq | ⟨heq, control⟩
    · rw [heq]
      exact .char ih
    · rw [heq]
      exact .word (by omega) ih

/-- The pretty text of a string is one way to write it. -/
theorem rawText_writes (s : String) : (rawText s).Writes s := ⟨rfl, denoted_pieceOf s.toList⟩

theorem itemTrees_eq_map (vs : List Value) : itemTrees vs = vs.map Value.tree := by
  induction vs with
  | nil => rfl
  | cons v vs ih => rw [itemTrees, ih, List.map_cons]

theorem memberTrees_eq_map (ms : List (String × Value)) :
    memberTrees ms = ms.map fun m => (rawText m.1, m.2.tree) := by
  induction ms with
  | nil => rfl
  | cons m ms ih => rw [memberTrees, ih, List.map_cons]

/-- An object writes some entries if its members have their keys, each once, or admitted ones. -/
theorem Value.writes_object {entries : List Entry} {strangers : Bool} {ms : List (String × Value)}
    (heach : ∀ m ∈ ms, (∃ e ∈ entries, e.key = m.1 ∧ e.writes m.2.tree) ∨
      strangers = true ∧ ∀ e ∈ entries, e.key ≠ m.1)
    (honce : (ms.map Prod.fst).Nodup)
    (hpresent : ∀ e ∈ entries, ¬e.omissible → e.key ∈ ms.map Prod.fst) :
    WritesObject entries strangers (Value.object ms).tree := by
  refine ⟨memberTrees ms, rfl, ?_⟩
  rw [memberTrees_eq_map]
  refine ⟨?_, ?_, ?_⟩
  · refine List.forall_mem_map.mpr fun m hm => ?_
    rcases heach m hm with ⟨e, he, hkey, hvalue⟩ | ⟨hopen, hnew⟩
    · exact .inl ⟨e, he, hkey ▸ rawText_writes m.1, hvalue⟩
    · exact .inr ⟨hopen, m.2.whole_tree, m.1, rawText_writes m.1, hnew⟩
  · refine List.pairwise_map.mpr ((List.pairwise_map.mp honce).imp ?_)
    intro m m' hne e _ ⟨hkey, hkey'⟩
    exact hne (((rawText_writes m.1).unique hkey).trans (hkey'.unique (rawText_writes m'.1)))
  · intro e he hrequired
    obtain ⟨m, hm, hkey⟩ := List.mem_map.mp (hpresent e he hrequired)
    exact ⟨_, List.mem_map_of_mem hm, hkey ▸ rawText_writes m.1⟩

/-! ## Integers -/

/-- A written integer has itself as its value, as long as it fits the words of 64 bits. -/
theorem integer?_numberOf {n : Int} (least : -(1 <<< 63 : Nat) ≤ n)
    (greatest : n < (1 <<< 64 : Nat)) : (numberOf n).integer? = some n := by
  have size : Text.digitsValue (numberOf n).whole = n.natAbs := Text.digitsValue_digits n.natAbs
  unfold Number.integer?
  rw [size]
  by_cases negative : n < 0
  · have fits : 0 < n.natAbs ∧ n.natAbs ≤ 1 <<< 63 := by omega
    have value : -(n.natAbs : Int) = n := by omega
    simp only [numberOf, negative, decide_true, Option.isNone_none, Bool.and_self, if_true,
      if_pos fits, value]
  · have fits : n.natAbs < UInt64.size := by
      show n.natAbs < 2 ^ 64
      omega
    have value : (n.natAbs : Int) = n := by omega
    simp only [numberOf, negative, decide_false, Option.isNone_none, Bool.and_self, if_true,
      Bool.false_eq_true, if_false, if_pos fits, value]

namespace Tree

/-- An integer between the bounds is read. -/
theorem readInteger_integer (wanted : String) {least greatest n : Int} (above : least ≤ n)
    (below : n ≤ greatest) (low : -(1 <<< 63 : Nat) ≤ n) (high : n < (1 <<< 64 : Nat)) :
    readInteger wanted least greatest (Value.integer n).tree = .ok n := by
  simp [Value.tree, readInteger, integer?_numberOf low high, above, below]

theorem readInt32_integer (c : Int32) : readInt32 (Value.integer c.toInt).tree = .ok c := by
  have above := Int32.le_toInt c
  have below := Int32.toInt_lt c
  have read := readInteger_integer "i32" (Int32.minValue_le_toInt c) (Int32.toInt_le c) (by omega)
    (by omega)
  rw [readInt32, read, Except.map, Int32.ofInt_toInt]

theorem readUInt64_integer (w : UInt64) : readUInt64 (Value.integer w.toNat).tree = .ok w := by
  have below : w.toNat < 2 ^ 64 := UInt64.toNat_lt w
  have greatest : (w.toNat : Int) ≤ UInt64.size - 1 := by
    show (w.toNat : Int) ≤ 2 ^ 64 - 1
    omega
  have read := readInteger_integer "u64" (Int.natCast_nonneg w.toNat) greatest (by omega)
    (by omega)
  rw [readUInt64, read, Except.map, Int.toNat_natCast, UInt64.ofNat_toNat]

end Tree

end GridPuzzle.Json
