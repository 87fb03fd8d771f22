import GridPuzzle.Program.Token
import Mathlib.Data.List.Induction
import Mathlib.Data.List.TakeWhile
import Mathlib.Data.Nat.Digits.Defs

/-!
# Heads of a program text

The scan of a text jumps over whole matches and over the word bytes behind them. Nevertheless it
finds exactly the heads that a look at every byte offset in turn would find: a keyword begins with a
byte that occurs nowhere else in a head, so heads never overlap, and the run of word bytes ends
before the next head. The tokens of a text are therefore its heads whose number fits a word of 32
bits, each once and in the order of their offsets.
-/

namespace GridPuzzle.Token

/-- A head as it stands in a text. -/
def Head.bytes (h : Head) : List UInt8 := h.direction.keywordBytes ++ 40 :: h.digits ++ [41]

/-- One or more digits stand between the parentheses of a head. -/
structure Head.Proper (h : Head) : Prop where
  nonempty : h.digits ≠ []
  digits : ∀ b ∈ h.digits, isDigit b = true

/-- A head is read at a byte offset. -/
def HeadAt (bs : List UInt8) (i : Nat) (h : Head) : Prop := h.Proper ∧ h.bytes <+: bs.drop i

/-- The digits of a head denote a number in the decimal notation. -/
theorem digitsValue_eq_ofDigits (ds : List UInt8) :
    digitsValue ds = Nat.ofDigits 10 (ds.map fun b => b.toNat - 48).reverse := by
  unfold digitsValue
  induction ds using List.reverseRecOn with
  | nil => rfl
  | append_singleton ds b ih =>
    rw [List.foldl_append, ih]
    simp [Nat.ofDigits_cons]
    omega

section Head

variable {h : Head} {bs rest : List UInt8}

@[simp] theorem Head.length_bytes (h : Head) : h.bytes.length = h.length := by
  simp [Head.bytes, Head.length]
  omega

theorem Head.length_pos (h : Head) : 0 < h.length := by
  unfold Head.length
  omega

/-- The bytes with which a keyword begins. -/
def isInitial (b : UInt8) : Bool := b == 108 || b == 114 || b == 117 || b == 100

/-- A keyword begins with an initial, and has no other one. -/
theorem keywordBytes_cons (d : Direction) :
    ∃ b bs, d.keywordBytes = b :: bs ∧ isInitial b = true ∧ ∀ b' ∈ bs, isInitial b' = false := by
  cases d <;> exact ⟨_, _, rfl, rfl, by simp [isInitial]⟩

theorem isInitial_of_isDigit {b : UInt8} (hb : isDigit b = true) : isInitial b = false := by
  simp only [isDigit, isInitial, Bool.and_eq_true, decide_eq_true_eq, UInt8.le_iff_toNat_le] at *
  have hne (c : UInt8) (hc : 57 < c.toNat) : (b == c) = false := by
    rw [beq_eq_false_iff_ne]
    rintro rfl
    have h57 : (57 : UInt8).toNat = 57 := rfl
    omega
  simp [hne 108 (by decide), hne 114 (by decide), hne 117 (by decide), hne 100 (by decide)]

/-- A head begins with an initial, and has no other one. -/
theorem Head.Proper.bytes_cons (hh : h.Proper) :
    ∃ b bs, h.bytes = b :: bs ∧ isInitial b = true ∧ ∀ b' ∈ bs, isInitial b' = false := by
  obtain ⟨b, bs, hkeyword, hb, hbs⟩ := keywordBytes_cons h.direction
  refine ⟨b, bs ++ 40 :: h.digits ++ [41], by simp [Head.bytes, hkeyword], hb, ?_⟩
  intro b' hb'
  simp only [List.append_assoc, List.cons_append, List.mem_append, List.mem_cons,
    List.not_mem_nil, or_false] at hb'
  rcases hb' with hword | rfl | hdigit | rfl
  · exact hbs b' hword
  · decide
  · exact isInitial_of_isDigit (hh.digits b' hdigit)
  · decide

/-- Only the keyword itself is found at the begin of a head. -/
private theorem find?_keyword (d : Direction) (rest : List UInt8) :
    Direction.all.find? (fun d' => d'.keywordBytes.isPrefixOf (d.keywordBytes ++ rest)) =
      some d := by
  cases d <;> simp [Direction.all, Direction.keywordBytes]

/-- Whatever follows a head, the head is found before it. -/
theorem head?_bytes (hh : h.Proper) (rest : List UInt8) : head? (h.bytes ++ rest) = some h := by
  obtain ⟨d, ds⟩ := h
  have htext : Head.bytes ⟨d, ds⟩ ++ rest = d.keywordBytes ++ 40 :: (ds ++ 41 :: rest) := by
    simp [Head.bytes]
  have htake : (ds ++ 41 :: rest).takeWhile isDigit = ds := by
    rw [List.takeWhile_append_of_pos hh.digits, List.takeWhile_cons_of_neg (by decide),
      List.append_nil]
  have hdrop : (ds ++ 41 :: rest).dropWhile isDigit = 41 :: rest := by
    rw [List.dropWhile_append_of_pos hh.digits, List.dropWhile_cons_of_neg (by decide)]
  obtain ⟨b, ds', rfl⟩ := List.exists_cons_of_ne_nil hh.nonempty
  unfold head?
  rw [htext, find?_keyword]
  simp only [List.drop_left, htake, hdrop]

/-- What is found at the begin of some bytes is a head that stands there. -/
theorem proper_of_head? (hfound : head? bs = some h) : h.Proper ∧ h.bytes <+: bs := by
  unfold head? at hfound
  split at hfound
  · cases hfound
  · rename_i d hd
    have hkeyword : d.keywordBytes <+: bs := by
      simpa using List.find?_some hd
    obtain ⟨rest, rfl⟩ := hkeyword
    rw [List.drop_left] at hfound
    split at hfound
    · rename_i digits
      split at hfound
      · rename_i b ds rest' htake hdrop
        cases hfound
        have hsplit : digits = b :: ds ++ 41 :: rest' := by
          rw [← htake, ← hdrop, List.takeWhile_append_dropWhile]
        refine ⟨⟨List.cons_ne_nil _ _, fun b' hb' => ?_⟩, rest', ?_⟩
        · rw [← htake] at hb'
          exact List.mem_takeWhile_imp hb'
        · simp [Head.bytes, hsplit]
      · cases hfound
    · cases hfound

theorem head?_eq_some_iff : head? bs = some h ↔ h.Proper ∧ h.bytes <+: bs := by
  constructor
  · exact proper_of_head?
  · rintro ⟨hh, rest, rfl⟩
    exact head?_bytes hh rest

theorem headAt_iff {i : Nat} : HeadAt bs i h ↔ head? (bs.drop i) = some h :=
  head?_eq_some_iff.symm

/-- Where no initial stands, no head begins. -/
theorem head?_eq_none_of_not_isInitial {b : UInt8} (hb : isInitial b = false) :
    head? (b :: rest) = none := by
  cases hfound : head? (b :: rest) with
  | none => rfl
  | some h =>
    obtain ⟨hh, hprefix⟩ := proper_of_head? hfound
    obtain ⟨b', bs', hbytes, hb', -⟩ := hh.bytes_cons
    rw [hbytes] at hprefix
    obtain ⟨rfl, -⟩ := List.cons_prefix_cons.mp hprefix
    rw [hb'] at hb
    cases hb

theorem head?_nil : head? [] = none := rfl

end Head

/-- Every head of some bytes with its offset, by a look at every offset in turn. -/
def headsFrom (offset : Nat) : List UInt8 → List (Nat × Head)
  | [] => []
  | b :: rest =>
    match head? (b :: rest) with
    | none => headsFrom (offset + 1) rest
    | some h => (offset, h) :: headsFrom (offset + 1) rest

theorem mem_headsFrom {offset i : Nat} {h : Head} {bs : List UInt8} :
    (i, h) ∈ headsFrom offset bs ↔ ∃ j, i = offset + j ∧ head? (bs.drop j) = some h := by
  induction bs generalizing offset with
  | nil => simp [headsFrom, head?_nil]
  | cons b rest ih =>
    -- a head is at the first offset or at a later one
    have hsplit : (∃ j, i = offset + j ∧ head? ((b :: rest).drop j) = some h) ↔
        (i = offset ∧ head? (b :: rest) = some h) ∨ (i, h) ∈ headsFrom (offset + 1) rest := by
      rw [ih]
      constructor
      · rintro ⟨j, rfl, hj⟩
        cases j with
        | zero => exact .inl ⟨rfl, hj⟩
        | succ j => exact .inr ⟨j, by omega, hj⟩
      · rintro (⟨rfl, hj⟩ | ⟨j, rfl, hj⟩)
        · exact ⟨0, rfl, hj⟩
        · exact ⟨j + 1, by omega, hj⟩
    rw [hsplit, headsFrom]
    cases head? (b :: rest) with
    | none => simp
    | some h' => simp [eq_comm]

/-- The offsets of the heads increase. -/
theorem headsFrom_pairwise (offset : Nat) (bs : List UInt8) :
    (headsFrom offset bs).Pairwise fun f f' => f.1 < f'.1 := by
  induction bs generalizing offset with
  | nil => exact .nil
  | cons b rest ih =>
    unfold headsFrom
    cases head? (b :: rest) with
    | none => exact ih (offset + 1)
    | some h =>
      refine .cons (fun f hf => ?_) (ih (offset + 1))
      obtain ⟨j, hj, -⟩ := mem_headsFrom.mp (show (f.1, f.2) ∈ headsFrom (offset + 1) rest from hf)
      dsimp only
      omega

/-- Offsets at which no head begins may be passed over. -/
theorem headsFrom_drop {bs : List UInt8} {n : Nat} (hn : ∀ j < n, head? (bs.drop j) = none)
    (offset : Nat) : headsFrom offset bs = headsFrom (offset + n) (bs.drop n) := by
  induction n generalizing offset bs with
  | zero => rfl
  | succ n ih =>
    cases bs with
    | nil => rfl
    | cons b rest =>
      have hfirst : head? (b :: rest) = none := hn 0 (Nat.zero_lt_succ n)
      have hrest : ∀ j < n, head? (rest.drop j) = none := fun j hj =>
        hn (j + 1) (Nat.succ_lt_succ hj)
      rw [headsFrom, hfirst, List.drop_succ_cons, ih hrest, Nat.add_assoc, Nat.add_comm 1 n]

/-- No other head begins inside a head. -/
theorem head?_drop_inside {bs : List UInt8} {h : Head} (hfound : head? bs = some h) {j : Nat}
    (hpos : 0 < j) (hj : j < h.length) : head? (bs.drop j) = none := by
  obtain ⟨hh, rest, rfl⟩ := proper_of_head? hfound
  obtain ⟨b, tail, hbytes, -, htail⟩ := hh.bytes_cons
  have hlength : tail.length + 1 = h.length := by
    rw [← h.length_bytes, hbytes, List.length_cons]
  obtain ⟨i, rfl⟩ := Nat.exists_eq_succ_of_ne_zero (Nat.ne_of_gt hpos)
  have hi : i < tail.length := by omega
  rw [hbytes, List.cons_append, Nat.succ_eq_add_one, List.drop_succ_cons,
    List.drop_append_of_le_length hi.le, List.drop_eq_getElem_cons hi, List.cons_append]
  exact head?_eq_none_of_not_isInitial (htail _ (List.getElem_mem hi))

/-- No head begins in a run of word bytes that ends before the next head. -/
theorem head?_drop_wordRun {bs : List UInt8} {j : Nat} (hj : j < wordRun bs) :
    head? (bs.drop j) = none := by
  induction bs generalizing j with
  | nil => exact absurd hj (Nat.not_lt_zero j)
  | cons b rest ih =>
    unfold wordRun at hj
    split at hj
    · rename_i hword
      simp only [Bool.and_eq_true, Option.isNone_iff_eq_none] at hword
      cases j with
      | zero => exact hword.2
      | succ j => exact ih (Nat.lt_of_succ_lt_succ hj)
    · exact absurd hj (Nat.not_lt_zero j)

/-- No other head begins in what the scan takes for a head. -/
theorem head?_drop_taken {bs : List UInt8} {h : Head} (hfound : head? bs = some h) {j : Nat}
    (hpos : 0 < j) (hj : j < h.length + wordRun (bs.drop h.length)) :
    head? (bs.drop j) = none := by
  by_cases hinside : j < h.length
  · exact head?_drop_inside hfound hpos hinside
  · obtain ⟨i, rfl⟩ := Nat.exists_eq_add_of_le (Nat.le_of_not_lt hinside)
    rw [← List.drop_drop]
    exact head?_drop_wordRun (by omega)

/-- The scan finds the heads that a look at every offset finds. -/
theorem scan_eq_headsFrom (offset : Nat) (bs : List UInt8) :
    (scan offset bs).map (fun hit => (hit.start, hit.head)) = headsFrom offset bs := by
  induction offset, bs using scan.induct with
  | case1 offset => simp [scan, headsFrom]
  | case2 offset b rest hnone ih =>
    rw [scan, headsFrom]
    simp only [hnone]
    exact ih
  | case3 offset b rest h hfound n ih =>
    have hpos : 0 < n := Nat.add_pos_left h.length_pos _
    obtain ⟨m, hm⟩ := Nat.exists_eq_add_of_le' hpos
    have hskip : headsFrom (offset + 1) rest = headsFrom (offset + n) ((b :: rest).drop n) := by
      have hnone : ∀ j < m, head? (rest.drop j) = none := fun j hj =>
        head?_drop_taken (j := j + 1) hfound (Nat.succ_pos j) (by omega)
      rw [headsFrom_drop hnone, hm, List.drop_succ_cons, Nat.add_assoc, Nat.add_comm 1 m]
    rw [scan, headsFrom]
    simp only [hfound, List.map_cons]
    rw [hskip]
    exact congrArg _ ih

/-- The heads of a text are those found at every offset in turn. -/
theorem hits_eq_headsFrom (text : String) :
    (hits text).map (fun hit => (hit.start, hit.head)) = headsFrom 0 text.toUTF8.data.toList :=
  scan_eq_headsFrom 0 _

/-- A head that the scan meets is one that stands in the text, and every one is met. -/
theorem exists_mem_hits_iff {text : String} {i : Nat} {h : Head} :
    (∃ hit ∈ hits text, hit.start = i ∧ hit.head = h) ↔
      HeadAt text.toUTF8.data.toList i h := by
  have hmem : (∃ hit ∈ hits text, hit.start = i ∧ hit.head = h) ↔
      (i, h) ∈ (hits text).map fun hit => (hit.start, hit.head) := by
    simp [Prod.ext_iff]
  rw [hmem, hits_eq_headsFrom, mem_headsFrom, headAt_iff]
  simp

/-- A hit makes a token when its number fits. -/
theorem ofHit?_eq_some_iff {hit : Hit} {t : Token} :
    ofHit? hit = some t ↔ digitsValue hit.head.digits < UInt32.size ∧
      t = ⟨hit.head.direction, UInt32.ofNat (digitsValue hit.head.digits), hit.start,
        hit.stop⟩ := by
  unfold ofHit? Head.count?
  split
  · rename_i hfits
    simp [hfits, eq_comm]
  · rename_i hfits
    simp [hfits]

/-- The tokens of a text are its heads whose digits denote a number of 32 bits, each once and in the
order of their offsets. -/
theorem tokens_are_the_heads (text : String) :
    (tokenize text).Pairwise (fun t t' => t.start < t'.start) ∧
    ∀ (i : Nat) (d : Direction) (n : Nat),
      (∃ t ∈ tokenize text, t.start = i ∧ t.direction = d ∧ t.count.toNat = n) ↔
        n ≤ 2 ^ 32 - 1 ∧ ∃ ds, HeadAt text.toUTF8.data.toList i ⟨d, ds⟩ ∧
          Nat.ofDigits 10 (ds.map fun b => b.toNat - 48).reverse = n := by
  constructor
  · have hincreasing : (hits text).Pairwise fun hit hit' => hit.start < hit'.start := by
      have hheads := headsFrom_pairwise 0 text.toUTF8.data.toList
      rw [← hits_eq_headsFrom, List.pairwise_map] at hheads
      exact hheads
    refine List.pairwise_filterMap.mpr (hincreasing.imp fun {hit hit'} hlt t ht t' ht' => ?_)
    obtain ⟨-, rfl⟩ := ofHit?_eq_some_iff.mp ht
    obtain ⟨-, rfl⟩ := ofHit?_eq_some_iff.mp ht'
    exact hlt
  · intro i d n
    constructor
    · rintro ⟨t, ht, rfl, rfl, rfl⟩
      obtain ⟨hit, hhit, htoken⟩ := List.mem_filterMap.mp ht
      obtain ⟨hfits, rfl⟩ := ofHit?_eq_some_iff.mp htoken
      have hcount : (UInt32.ofNat (digitsValue hit.head.digits)).toNat =
          digitsValue hit.head.digits := UInt32.toNat_ofNat_of_lt' hfits
      refine ⟨?_, hit.head.digits, exists_mem_hits_iff.mp ⟨hit, hhit, rfl, rfl⟩, ?_⟩
      · rw [hcount]
        exact Nat.le_sub_one_of_lt hfits
      · rw [hcount, digitsValue_eq_ofDigits]
    · rintro ⟨hn, ds, hhead, hvalue⟩
      obtain ⟨hit, hhit, rfl, hparts⟩ := exists_mem_hits_iff.mpr hhead
      rw [← digitsValue_eq_ofDigits] at hvalue
      have hfits : digitsValue ds < UInt32.size := by
        rw [hvalue]
        exact Nat.lt_of_le_sub_one (by decide) hn
      have htoken : ofHit? hit = some ⟨d, UInt32.ofNat (digitsValue ds), hit.start, hit.stop⟩ := by
        refine ofHit?_eq_some_iff.mpr ?_
        rw [hparts]
        exact ⟨hfits, rfl⟩
      refine ⟨_, List.mem_filterMap.mpr ⟨hit, hhit, htoken⟩, rfl, rfl, ?_⟩
      rw [← hvalue]
      exact UInt32.toNat_ofNat_of_lt' hfits

/-- Heads inside words and behind an oversized count are found; the trailing word is dropped. -/
example : (tokenize "xup(1)left(007)s up(4294967296)down(0)").map (fun t => (t.start, t.count)) =
    [(1, 1), (6, 7), (31, 0)] := by
  decide +kernel

end GridPuzzle.Token
