import GridPuzzle.Proofs.Program.Separators
import GridPuzzle.Proofs.Text.Slices
import Mathlib.Order.Bounds.Basic

/-!
# The spans of tokens

The scan takes a head together with the word bytes behind it, and stops at the first offset at which
the text ends, a byte stands that is no letter, digit or underscore, or the next head begins. So the
spans follow each other without touching a byte twice, those of heads with an oversized count among
those of tokens. All bytes of a span are below 128, and therefore the text may be cut at both ends
of it, and at both ends of the digits that the scan reads as a number.
-/

namespace GridPuzzle

namespace Token

/-- The word behind a head goes no further than to this offset: the text ends there, a byte stands
there that is no letter, digit or underscore, or a head begins there. -/
def EndsWord (bs : List UInt8) (i : Nat) : Prop :=
  i = bs.length ∨ (∃ b, bs[i]? = some b ∧ isWord b = false) ∨ ∃ h, HeadAt bs i h

/-- Where the digits of a head begin that stands at an offset: behind the keyword and the opening
parenthesis. -/
def Head.digitsStart (h : Head) (start : Nat) : Nat := start + h.direction.keywordBytes.length + 1

/-- Where the digits of a head end. -/
def Head.digitsStop (h : Head) (start : Nat) : Nat := h.digitsStart start + h.digits.length

/-- What the scan takes for a head of a text: the bytes from `start` to `stop`. -/
structure Spans (text : String) (h : Head) (start stop : Nat) : Prop where
  /-- The span begins with the head. -/
  begins : HeadAt (Text.bytes text) start h
  /-- It ends at the first offset, from the end of the head on, at which the word has to end. -/
  ends : IsLeast {i | start + h.length ≤ i ∧ EndsWord (Text.bytes text) i} stop
  /-- The text may be cut at both ends of the span. -/
  sliceable : Text.Sliceable text start stop
  /-- The slice is the head, and a word behind it. -/
  slice : ∃ word, (∀ b ∈ word, isWord b = true) ∧
    Text.bytes (String.Pos.Raw.extract text ⟨start⟩ ⟨stop⟩) = h.bytes ++ word
  /-- The text may be cut at both ends of the digits. -/
  digitsSliceable : Text.Sliceable text (h.digitsStart start) (h.digitsStop start)
  /-- That slice is the digits. -/
  digitsSlice : Text.bytes
    (String.Pos.Raw.extract text ⟨h.digitsStart start⟩ ⟨h.digitsStop start⟩) = h.digits

section Bytes

variable {bs : List UInt8}

/-- A byte of a head, or of the word behind it, is small. -/
theorem lt_of_isBreak_eq_false {b : UInt8} (hb : isBreak b = false) : b.toNat < 128 := by
  by_contra hlarge
  have hbreak : ∀ n < 256, 128 ≤ n → isBreak n.toUInt8 = true := by decide +kernel
  have htrue := hbreak b.toNat b.toNat_lt (Nat.le_of_not_lt hlarge)
  rw [Nat.toUInt8_eq, UInt8.ofNat_toNat, hb] at htrue
  cases htrue

/-- An offset behind the first byte ends a word where the offset before it does behind that byte. -/
theorem endsWord_cons_succ {b : UInt8} {i : Nat} :
    EndsWord (b :: bs) (i + 1) ↔ EndsWord bs i := by
  unfold EndsWord HeadAt
  rw [List.length_cons, Nat.add_right_cancel_iff, List.getElem?_cons_succ, List.drop_succ_cons]

/-- The word at the begin of some bytes goes on to the first offset at which it has to end. -/
theorem isLeast_wordRun (bs : List UInt8) : IsLeast {i | EndsWord bs i} (wordRun bs) := by
  induction bs with
  | nil => exact ⟨.inl rfl, fun i _ => Nat.zero_le i⟩
  | cons b bs ih =>
    unfold wordRun
    split
    · rename_i hword
      simp only [Bool.and_eq_true, Option.isNone_iff_eq_none] at hword
      refine ⟨endsWord_cons_succ.mpr ih.1, fun i hi => ?_⟩
      cases i with
      | zero =>
        rcases hi with hend | ⟨b', hb', hother⟩ | ⟨h, hhead⟩
        · cases hend
        · cases hb'
          rw [hword.1] at hother
          cases hother
        · rw [headAt_iff, List.drop_zero, hword.2] at hhead
          cases hhead
      | succ i => exact Nat.succ_le_succ (ih.2 (endsWord_cons_succ.mp hi))
    · rename_i hother
      refine ⟨.inr ?_, fun i _ => Nat.zero_le i⟩
      rw [Bool.and_eq_true, not_and_or, Bool.not_eq_true] at hother
      rcases hother with hword | hhead
      · exact .inl ⟨b, rfl, hword⟩
      · obtain ⟨h, hh⟩ := Option.ne_none_iff_exists'.mp
          (mt Option.isNone_iff_eq_none.mpr hhead)
        exact .inr ⟨h, headAt_iff.mpr hh⟩

/-- The bytes that a word takes are word bytes. -/
theorem isWord_of_mem_take (bs : List UInt8) :
    ∀ b ∈ bs.take (wordRun bs), isWord b = true := by
  induction bs with
  | nil =>
    intro b hb
    cases hb
  | cons b bs ih =>
    unfold wordRun
    split
    · rename_i hword
      rw [List.take_succ_cons, List.forall_mem_cons]
      exact ⟨(Bool.and_eq_true_iff.mp hword).1, ih⟩
    · intro b' hb'
      cases hb'

/-- Where a word has to end is told by the bytes from an earlier offset on. -/
theorem endsWord_add {k i : Nat} (hk : k ≤ bs.length) :
    EndsWord bs (k + i) ↔ EndsWord (bs.drop k) i := by
  have hlength : k + i = bs.length ↔ i = bs.length - k := by omega
  unfold EndsWord HeadAt
  rw [List.length_drop, hlength, List.getElem?_drop, List.drop_drop]

/-- The word behind an offset ends at the first offset from there on at which it has to. -/
theorem isLeast_add_wordRun {k : Nat} (hk : k ≤ bs.length) :
    IsLeast {i | k ≤ i ∧ EndsWord bs i} (k + wordRun (bs.drop k)) := by
  obtain ⟨hends, hleast⟩ := isLeast_wordRun (bs.drop k)
  refine ⟨⟨Nat.le_add_right _ _, (endsWord_add hk).mpr hends⟩, ?_⟩
  rintro i ⟨hki, hi⟩
  obtain ⟨j, rfl⟩ := Nat.exists_eq_add_of_le hki
  exact Nat.add_le_add_left (hleast ((endsWord_add hk).mp hi)) k

/-- What the scan has met stands where it says, and takes its word along. -/
theorem exists_of_mem_scan {offset : Nat} {hit : Hit} (hmem : hit ∈ scan offset bs) :
    ∃ j, hit.start = offset + j ∧ head? (bs.drop j) = some hit.head ∧
      hit.stop = hit.start + hit.head.length + wordRun (bs.drop (j + hit.head.length)) := by
  induction offset, bs using scan.induct with
  | case1 offset =>
    rw [scan] at hmem
    cases hmem
  | case2 offset b rest hnone ih =>
    rw [scan] at hmem
    simp only [hnone] at hmem
    obtain ⟨j, hstart, hfound, hstop⟩ := ih hmem
    refine ⟨j + 1, by omega, hfound, ?_⟩
    rw [hstop, Nat.add_right_comm j, List.drop_succ_cons]
  | case3 offset b rest h hfound n ih =>
    rw [scan] at hmem
    simp only [hfound, List.mem_cons] at hmem
    rcases hmem with rfl | hmem
    · refine ⟨0, rfl, hfound, ?_⟩
      dsimp only
      rw [Nat.zero_add, Nat.add_assoc]
    · obtain ⟨j, hstart, hlater, hstop⟩ := ih hmem
      rw [List.drop_drop] at hlater
      rw [List.drop_drop] at hstop
      exact ⟨n + j, by omega, hlater, by rw [hstop, Nat.add_assoc n]⟩

/-- The scan goes on behind what it has taken. -/
theorem scan_pairwise (offset : Nat) (bs : List UInt8) :
    (scan offset bs).Pairwise fun hit hit' => hit.stop ≤ hit'.start := by
  induction offset, bs using scan.induct with
  | case1 offset =>
    rw [scan]
    exact .nil
  | case2 offset b rest hnone ih =>
    rw [scan]
    simp only [hnone]
    exact ih
  | case3 offset b rest h hfound n ih =>
    rw [scan]
    simp only [hfound]
    refine .cons (fun hit hmem => ?_) ih
    obtain ⟨j, hstart, -⟩ := exists_of_mem_scan hmem
    rw [hstart]
    exact Nat.le_add_right _ j

end Bytes

section Span

variable {text : String} {start : Nat} {h : Head}

/-- Every byte of a head is small. -/
theorem Head.Proper.lt_of_mem (hh : h.Proper) {b : UInt8} (hb : b ∈ h.bytes) : b.toNat < 128 :=
  lt_of_isBreak_eq_false (hh.isBreak_eq_false hb)

variable (hfound : head? ((Text.bytes text).drop start) = some h)

include hfound

/-- A head cuts the bytes of a text into those before it, its own, and those behind it. -/
theorem bytes_eq_of_head? :
    ((Text.bytes text).take start).length = start ∧ Text.bytes text =
      (Text.bytes text).take start ++ (h.bytes ++ (Text.bytes text).drop (start + h.length)) := by
  constructor
  · refine List.length_take_of_le (Nat.le_of_not_lt fun hend => ?_)
    rw [List.drop_eq_nil_of_le hend.le] at hfound
    cases hfound
  · obtain ⟨-, tail, htail⟩ := proper_of_head? hfound
    have hbehind : (Text.bytes text).drop (start + h.length) = tail := by
      rw [← List.drop_drop, ← htail, ← h.length_bytes, List.drop_left]
    rw [hbehind, htail, List.take_append_drop]

/-- A head can be cut out of a text together with the word behind it. -/
theorem slice_of_head? {word : List UInt8} (hword : ∀ b ∈ word, isWord b = true)
    (hbehind : word <+: (Text.bytes text).drop (start + h.length)) :
    Text.Sliceable text start (start + h.length + word.length) ∧
      Text.bytes (String.Pos.Raw.extract text ⟨start⟩ ⟨start + h.length + word.length⟩) =
        h.bytes ++ word := by
  obtain ⟨hbefore, hbytes⟩ := bytes_eq_of_head? hfound
  obtain ⟨rest, hrest⟩ := hbehind
  rw [← hrest, ← List.append_assoc h.bytes] at hbytes
  have hsmall : ∀ b ∈ h.bytes ++ word, b.toNat < 128 := by
    intro b hb
    rcases List.mem_append.mp hb with hb | hb
    · exact (proper_of_head? hfound).1.lt_of_mem hb
    · exact lt_of_isBreak_eq_false (by simp [isBreak, hword b hb])
  have hslice := Text.slice_of_small (by simp [Head.bytes]) hsmall hbytes
  rwa [hbefore, List.length_append, h.length_bytes, ← Nat.add_assoc] at hslice

/-- The digits of a head can be cut out of a text. -/
theorem digitsSlice_of_head? :
    Text.Sliceable text (h.digitsStart start) (h.digitsStop start) ∧
      Text.bytes (String.Pos.Raw.extract text ⟨h.digitsStart start⟩ ⟨h.digitsStop start⟩) =
        h.digits := by
  obtain ⟨hbefore, hbytes⟩ := bytes_eq_of_head? hfound
  have hproper : h.Proper := (proper_of_head? hfound).1
  have hsmall : ∀ b ∈ h.digits, b.toNat < 128 := fun b hb =>
    hproper.lt_of_mem (by simp [Head.bytes, hb])
  have hsplit : Text.bytes text = ((Text.bytes text).take start ++
      (h.direction.keywordBytes ++ [40])) ++
        (h.digits ++ (41 :: (Text.bytes text).drop (start + h.length))) := by
    refine hbytes.trans ?_
    simp [Head.bytes]
  have hslice := Text.slice_of_small hproper.nonempty hsmall hsplit
  rwa [List.length_append, List.length_append, hbefore] at hslice

/-- A head of a text spans its bytes and the word behind it. -/
theorem spans_of_head? : Spans text h start
    (start + h.length + wordRun ((Text.bytes text).drop (start + h.length))) := by
  have hword := isWord_of_mem_take ((Text.bytes text).drop (start + h.length))
  have hlength : (((Text.bytes text).drop (start + h.length)).take
      (wordRun ((Text.bytes text).drop (start + h.length)))).length = _ :=
    List.length_take_of_le (wordRun_le _)
  have hslice := slice_of_head? hfound hword (List.take_prefix _ _)
  rw [hlength] at hslice
  have hdigits := digitsSlice_of_head? hfound
  refine ⟨headAt_iff.mpr hfound, isLeast_add_wordRun ?_, hslice.1, ⟨_, hword, hslice.2⟩,
    hdigits.1, hdigits.2⟩
  have hle : h.length ≤ (Text.bytes text).length - start := by
    rw [← List.length_drop]
    exact length_le_of_head? hfound
  have hpos : 0 < h.length := h.length_pos
  omega

end Span

/-- What the scan takes for a head is a span. -/
theorem spans_of_mem_hits {text : String} {hit : Hit} (hmem : hit ∈ hits text) :
    Spans text hit.head hit.start hit.stop := by
  have hscanned : hit ∈ scan 0 (Text.bytes text) := hmem
  obtain ⟨j, hstart, hfound, hstop⟩ := exists_of_mem_scan hscanned
  rw [Nat.zero_add] at hstart
  rw [← hstart] at hfound hstop
  rw [hstop]
  exact spans_of_head? hfound

/-- The spans that the scan takes begin with their heads and end at the first offset that may end
them; they increase and share no byte. -/
theorem spans_are_exact (text : String) :
    (∀ hit ∈ hits text, Spans text hit.head hit.start hit.stop) ∧
      (hits text).Pairwise (fun hit hit' => hit.stop ≤ hit'.start) ∧
      (∀ t ∈ tokenize text, ∃ h : Head, h.direction = t.direction ∧
        digitsValue h.digits = t.count.toNat ∧ Spans text h t.start t.stop) ∧
      (tokenize text).Pairwise fun t t' => t.stop ≤ t'.start := by
  have hincreasing : (hits text).Pairwise fun hit hit' => hit.stop ≤ hit'.start :=
    scan_pairwise 0 _
  refine ⟨fun hit hmem => spans_of_mem_hits hmem, hincreasing, fun t ht => ?_, ?_⟩
  · obtain ⟨hit, hmem, htoken⟩ := List.mem_filterMap.mp ht
    obtain ⟨hfits, rfl⟩ := ofHit?_eq_some_iff.mp htoken
    refine ⟨hit.head, rfl, ?_, spans_of_mem_hits hmem⟩
    exact (UInt32.toNat_ofNat_of_lt' hfits).symm
  · refine List.pairwise_filterMap.mpr (hincreasing.imp fun {hit hit'} hle t ht t' ht' => ?_)
    obtain ⟨-, rfl⟩ := ofHit?_eq_some_iff.mp ht
    obtain ⟨-, rfl⟩ := ofHit?_eq_some_iff.mp ht'
    exact hle

/-- A word ends before a character of several bytes, and before a head of any size. -/
example : (hits "é left(2)steps_é up(99999999999)up(1)").map (fun hit => (hit.start, hit.stop)) =
    [(3, 16), (19, 34), (34, 39)] := by
  decide +kernel

end Token

end GridPuzzle
