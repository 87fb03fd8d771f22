import GridPuzzle.Proofs.Program.Heads
import GridPuzzle.Proofs.Text.Bytes

/-!
# Separated parts of a program

A character that belongs to no word and is no parenthesis keeps apart what stands before and behind
it: no head reaches across one of its bytes, and neither does the word behind a head. So the scan of
a text with such a character in it is the scan of the part before it, and then that of the part
behind it, moved by as many bytes as lie before that.
-/

namespace GridPuzzle

namespace Token

/-- A byte that stands in no head, and in no word behind one. -/
def isBreak (b : UInt8) : Bool := !isWord b && b != 40 && b != 41

/-- Every byte of a head is a word byte or a parenthesis. -/
theorem Head.Proper.isBreak_eq_false {h : Head} (hh : h.Proper) {b : UInt8} (hb : b ∈ h.bytes) :
    isBreak b = false := by
  have word {b : UInt8} (hword : isWord b = true) : isBreak b = false := by
    simp [isBreak, hword]
  simp only [Head.bytes, List.append_assoc, List.cons_append, List.mem_append, List.mem_cons,
    List.not_mem_nil, or_false] at hb
  rcases hb with hkeyword | rfl | hdigit | rfl
  · have hletters : h.direction.keywordBytes.all isWord = true := by
      cases h.direction <;> decide
    exact word (List.all_eq_true.mp hletters b hkeyword)
  · rfl
  · exact word (by simp [isWord, hh.digits b hdigit])
  · rfl

/-- A head takes no more bytes than there are. -/
theorem length_le_of_head? {bs : List UInt8} {h : Head} (hfound : head? bs = some h) :
    h.length ≤ bs.length := by
  rw [← h.length_bytes]
  exact (proper_of_head? hfound).2.length_le

/-- A word has no more bytes than there are. -/
theorem wordRun_le (bs : List UInt8) : wordRun bs ≤ bs.length := by
  induction bs with
  | nil => exact Nat.le_refl 0
  | cons b bs ih =>
    unfold wordRun
    split
    · exact Nat.succ_le_succ ih
    · exact Nat.zero_le _

section Break

variable {x : UInt8} (hx : isBreak x = true) (rest : List UInt8)

include hx

/-- No head reaches across a break. -/
theorem head?_append_break (bs : List UInt8) : head? (bs ++ x :: rest) = head? bs := by
  refine Option.ext fun h => ?_
  rw [head?_eq_some_iff, head?_eq_some_iff]
  refine and_congr_right fun hh => ⟨fun hbegin => ?_, fun hbegin => ?_⟩
  · by_cases hlength : h.bytes.length ≤ bs.length
    · exact List.prefix_of_prefix_length_le hbegin (List.prefix_append _ _) hlength
    · have hmem : x ∈ h.bytes := by
        have hentry := hbegin.getElem (Nat.lt_of_not_le hlength)
        rw [List.getElem_append_right (Nat.le_refl _)] at hentry
        simp only [Nat.sub_self, List.getElem_cons_zero] at hentry
        exact hentry ▸ List.getElem_mem _
      rw [hh.isBreak_eq_false hmem] at hx
      cases hx
  · exact hbegin.trans (List.prefix_append _ _)

/-- No trailing word reaches across a break. -/
theorem wordRun_append_break (bs : List UInt8) : wordRun (bs ++ x :: rest) = wordRun bs := by
  have hword : isWord x = false := by
    simp only [isBreak, Bool.and_eq_true, Bool.not_eq_true'] at hx
    exact hx.1.1
  induction bs with
  | nil => simp [wordRun, hword]
  | cons b bs ih =>
    rw [List.cons_append, wordRun, wordRun, ← List.cons_append, head?_append_break hx, ih]

/-- The scan goes on behind a break as if it began there. -/
theorem scan_append_break (offset : Nat) (bs : List UInt8) :
    scan offset (bs ++ x :: rest) = scan offset bs ++ scan (offset + bs.length + 1) rest := by
  induction offset, bs using scan.induct with
  | case1 offset =>
    have hnone : head? (x :: rest) = none := head?_append_break hx rest []
    rw [List.nil_append, scan, scan, hnone]
    rfl
  | case2 offset b bs hnone ih =>
    have hnone' : head? (b :: (bs ++ x :: rest)) = none :=
      (head?_append_break hx rest (b :: bs)).trans hnone
    rw [List.cons_append, scan, scan]
    simp only [hnone, hnone']
    rw [ih, List.length_cons]
    congr 2
    omega
  | case3 offset b bs h hfound n ih =>
    have hfound' : head? (b :: (bs ++ x :: rest)) = some h :=
      (head?_append_break hx rest (b :: bs)).trans hfound
    have hhead : h.length ≤ (b :: bs).length := length_le_of_head? hfound
    have hword : wordRun ((b :: (bs ++ x :: rest)).drop h.length) =
        wordRun ((b :: bs).drop h.length) := by
      rw [← List.cons_append, List.drop_append_of_le_length hhead, wordRun_append_break hx]
    have htaken : n ≤ (b :: bs).length := by
      have hrun := wordRun_le ((b :: bs).drop h.length)
      rw [List.length_drop] at hrun
      omega
    rw [List.cons_append, scan, scan]
    simp only [hfound, hfound', hword]
    change _ :: scan (offset + n) ((b :: bs ++ x :: rest).drop n) = _ :: _ ++ _
    rw [List.drop_append_of_le_length htaken, ih, List.length_drop, List.cons_append]
    congr 3
    omega

end Break

/-- The scan goes on behind some breaks as if it began there. -/
theorem scan_append_breaks {breaks : List UInt8} (hne : breaks ≠ [])
    (hbreaks : ∀ x ∈ breaks, isBreak x = true) (rest : List UInt8) (offset : Nat)
    (bs : List UInt8) : scan offset (bs ++ (breaks ++ rest)) =
      scan offset bs ++ scan (offset + bs.length + breaks.length) rest := by
  induction breaks generalizing offset bs with
  | nil => exact absurd rfl hne
  | cons x breaks ih =>
    rw [List.cons_append, scan_append_break (hbreaks x List.mem_cons_self)]
    cases breaks with
    | nil => rfl
    | cons x' breaks =>
      have hrest := ih (List.cons_ne_nil _ _)
        (fun y hy => hbreaks y (List.mem_cons_of_mem _ hy)) (offset + bs.length + 1) []
      rw [List.nil_append] at hrest
      rw [hrest, scan, List.nil_append, List.length_nil, List.length_cons (a := x)]
      congr 2
      omega

/-- The same head, found so many bytes further on. -/
def Hit.shift (n : Nat) (hit : Hit) : Hit := ⟨hit.head, hit.start + n, hit.stop + n⟩

/-- Where a scan begins decides the offsets only. -/
theorem scan_add (offset n : Nat) (bs : List UInt8) :
    scan (offset + n) bs = (scan offset bs).map (Hit.shift n) := by
  induction offset, bs using scan.induct with
  | case1 offset => simp [scan]
  | case2 offset b bs hnone ih =>
    rw [scan, scan]
    simp only [hnone]
    rw [Nat.add_right_comm, ih]
  | case3 offset b bs h hfound m ih =>
    rw [scan, scan]
    simp only [hfound, List.map_cons]
    change Hit.mk h (offset + n) (offset + n + m) :: scan (offset + n + m) _ =
      Hit.mk h (offset + n) (offset + m + n) :: _
    rw [Nat.add_right_comm, ih]

/-- The same token, so many bytes further on. -/
def shift (n : Nat) (t : Token) : Token := { t with start := t.start + n, stop := t.stop + n }

/-- A hit further on makes the same token further on. -/
theorem ofHit?_shift (n : Nat) (hit : Hit) : ofHit? (hit.shift n) = (ofHit? hit).map (shift n) := by
  unfold ofHit? Hit.shift
  rw [Option.map_map]
  rfl

/-- A shifted token asks for the same steps. -/
theorem steps_shift (n : Nat) (t : Token) : (t.shift n).steps = t.steps := rfl

/-- A character that is no letter, digit or underscore of ASCII, and no parenthesis. -/
def isSeparator (c : Char) : Bool := !(c.isAlphanum || c == '_' || c == '(' || c == ')')

/-- A byte of a separator is a break. -/
theorem isBreak_of_isSeparator {c : Char} (hc : isSeparator c = true) {x : UInt8}
    (hx : x ∈ String.utf8EncodeChar c) : isBreak x = true := by
  by_cases hsmall : x.toNat < 128
  · obtain ⟨-, hsame⟩ := Text.utf8EncodeChar_of_mem hx hsmall
    have htable : ∀ n < 128, isSeparator (Char.ofNat n) = true → isBreak n.toUInt8 = true := by
      decide +kernel
    have hbreak := htable x.toNat hsmall
    rw [← hsame, Char.ofNat_toNat, hsame] at hbreak
    simpa using hbreak hc
  · -- none of the bytes that stand in a head or a word is that large
    have hne (b : UInt8) (hb : b.toNat < 128) : (x == b) = false := by
      rw [beq_eq_false_iff_ne]
      rintro rfl
      exact hsmall hb
    have hle (b b' : UInt8) (hb' : b'.toNat < 128) :
        (decide (b ≤ x) && decide (x ≤ b')) = false := by
      rw [Bool.and_eq_false_iff]
      refine .inr (decide_eq_false fun hxb => hsmall ?_)
      exact Nat.lt_of_le_of_lt (UInt8.le_iff_toNat_le.mp hxb) hb'
    simp [isBreak, isWord, isDigit, bne, hne, hle]

/-- The scan of two parts with a separator between them. -/
theorem hits_append {c : Char} (hc : isSeparator c = true) (a b : String) :
    hits (a ++ String.singleton c ++ b) = hits a ++
      (hits b).map (Hit.shift (a ++ String.singleton c).utf8ByteSize) := by
  have hbytes : (a ++ String.singleton c ++ b).toUTF8.data.toList =
      Text.bytes a ++ (String.utf8EncodeChar c ++ Text.bytes b) := by
    show Text.bytes (a ++ String.singleton c ++ b) = _
    rw [Text.bytes_append, Text.bytes_append, Text.bytes_singleton, List.append_assoc]
  have hlength : 0 + (Text.bytes a).length + (String.utf8EncodeChar c).length =
      0 + (a ++ String.singleton c).utf8ByteSize := by
    rw [← Text.length_bytes (a ++ String.singleton c), Text.bytes_append, Text.bytes_singleton,
      List.length_append, Nat.add_assoc]
  unfold hits
  rw [hbytes, scan_append_breaks String.utf8EncodeChar_ne_nil fun x => isBreak_of_isSeparator hc,
    hlength, scan_add]
  rfl

/-- The tokens around a separator are those of both parts, the later ones moved by the bytes before
them, and one part's steps follow the other's. -/
theorem separated_parts_compile_alone {c : Char} (hc : isSeparator c = true) (a b : String) :
    tokenize (a ++ String.singleton c ++ b) = tokenize a ++
        (tokenize b).map (shift (a ++ String.singleton c).utf8ByteSize) ∧
      compile (a ++ String.singleton c ++ b) = compile a ++ compile b := by
  have htokens : tokenize (a ++ String.singleton c ++ b) = tokenize a ++
      (tokenize b).map (shift (a ++ String.singleton c).utf8ByteSize) := by
    unfold tokenize
    rw [hits_append hc, List.filterMap_append, List.filterMap_map, List.map_filterMap]
    refine congrArg (_ ++ List.filterMap · _) (funext fun hit => ?_)
    exact ofHit?_shift _ hit
  refine ⟨htokens, ?_⟩
  unfold compile
  simp only [htokens, List.flatMap_append, List.flatMap_map, steps_shift]

/-- A head that is cut off by a separator of three bytes does not come back behind it. -/
theorem cut_head_stays_cut :
    isSeparator '→' = true ∧
      tokenize "left(2)up(1→)right(3)_" =
        [⟨.left, 2, 0, 9⟩, ⟨.right, 3, 15, 24⟩] ∧
      compile "left(2)up(1→)right(3)_" = [.left, .left, .right, .right, .right] := by
  have hc : isSeparator '→' = true := by decide +kernel
  have htext : "left(2)up(1" ++ String.singleton '→' ++ ")right(3)_" =
      "left(2)up(1→)right(3)_" := by
    decide +kernel
  obtain ⟨htokens, hsteps⟩ := separated_parts_compile_alone hc "left(2)up(1" ")right(3)_"
  rw [htext] at htokens hsteps
  refine ⟨hc, htokens.trans ?_, hsteps.trans ?_⟩ <;> decide +kernel

end Token

end GridPuzzle
