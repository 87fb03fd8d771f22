import GridPuzzle.Proofs.Text.Bytes
import Mathlib.Data.String.Basic

/-!
# Slices of a text

A text may be cut at two byte offsets if both stand between characters. Bytes below 128 are
characters of their own, so every run of them can be cut out of a text, and the slice consists of
those bytes.
-/

namespace GridPuzzle.Text

/-- A text may be cut at one offset and at another one that is not before it: both lie within the
text and between characters. -/
structure Sliceable (s : String) (start stop : Nat) : Prop where
  ordered : start ≤ stop
  within : stop ≤ s.utf8ByteSize
  start : String.Pos.Raw.IsValid s ⟨start⟩
  stop : String.Pos.Raw.IsValid s ⟨stop⟩

/-- The encoding of a character in which a small byte stands is that byte. -/
private theorem encode_eq_of_prefix {c : Char} {b : UInt8} {more rest tail : List UInt8}
    (hb : b.toNat < 128) (h : String.utf8EncodeChar c ++ tail = b :: more ++ rest) :
    String.utf8EncodeChar c = [b] ∧ tail = more ++ rest := by
  obtain ⟨b', bs, hcode⟩ := List.exists_cons_of_ne_nil (String.utf8EncodeChar_ne_nil (c := c))
  rw [hcode, List.cons_append, List.cons_append, List.cons.injEq] at h
  obtain ⟨rfl, htail⟩ := h
  have hmem : b' ∈ String.utf8EncodeChar c := hcode ▸ List.mem_cons_self
  have hsingle : String.utf8EncodeChar c = [b'] := (utf8EncodeChar_of_mem hmem hb).1
  refine ⟨hsingle, ?_⟩
  rw [hsingle, List.cons.injEq] at hcode
  rwa [← hcode.2, List.nil_append] at htail

/-- Small bytes at the begin of some characters are the first ones of them. -/
private theorem exists_chars_prefix {cs : List Char} {slice after : List UInt8}
    (hsmall : ∀ b ∈ slice, b.toNat < 128)
    (hbytes : cs.flatMap String.utf8EncodeChar = slice ++ after) :
    ∃ ms rs, cs = ms ++ rs ∧ ms.flatMap String.utf8EncodeChar = slice := by
  induction slice generalizing cs with
  | nil => exact ⟨[], cs, rfl, rfl⟩
  | cons b slice ih =>
    cases cs with
    | nil => cases hbytes
    | cons c cs =>
      rw [List.flatMap_cons] at hbytes
      obtain ⟨hc, hrest⟩ := encode_eq_of_prefix (hsmall b List.mem_cons_self) hbytes
      obtain ⟨ms, rs, rfl, hms⟩ := ih (fun b' hb' => hsmall b' (List.mem_cons_of_mem _ hb')) hrest
      exact ⟨c :: ms, rs, rfl, by rw [List.flatMap_cons, hc, hms]; rfl⟩

/-- Small bytes are characters of their own, wherever they stand. -/
private theorem exists_chars {cs : List Char} {before slice after : List UInt8} (hne : slice ≠ [])
    (hsmall : ∀ b ∈ slice, b.toNat < 128)
    (hbytes : cs.flatMap String.utf8EncodeChar = before ++ (slice ++ after)) :
    ∃ ls ms rs, cs = ls ++ ms ++ rs ∧ ls.flatMap String.utf8EncodeChar = before ∧
      ms.flatMap String.utf8EncodeChar = slice := by
  induction cs generalizing before with
  | nil =>
    have hnone : slice = [] := by
      have hparts := List.append_eq_nil_iff.mp hbytes.symm
      exact (List.append_eq_nil_iff.mp hparts.2).1
    exact absurd hnone hne
  | cons c cs ih =>
    -- the first character ends before the slice, or the slice begins with it
    rw [List.flatMap_cons] at hbytes
    rcases List.append_eq_append_iff.mp hbytes with ⟨before', rfl, hrest⟩ | ⟨code, hcode, hrest⟩
    · obtain ⟨ls, ms, rs, rfl, rfl, hms⟩ := ih hrest
      exact ⟨c :: ls, ms, rs, rfl, rfl, hms⟩
    · cases code with
      | nil =>
        rw [List.append_nil] at hcode
        have hlater : cs.flatMap String.utf8EncodeChar = [] ++ (slice ++ after) := hrest.symm
        obtain ⟨ls, ms, rs, rfl, hls, hms⟩ := ih hlater
        exact ⟨c :: ls, ms, rs, rfl, by rw [List.flatMap_cons, hls, List.append_nil, hcode], hms⟩
      | cons b code =>
        obtain ⟨b', slice', rfl⟩ := List.exists_cons_of_ne_nil hne
        obtain ⟨rfl, -⟩ := List.cons.inj hrest
        have hmem : b' ∈ String.utf8EncodeChar c := by simp [hcode]
        have hsingle := (utf8EncodeChar_of_mem hmem (hsmall b' List.mem_cons_self)).1
        have hbefore : before = [] := by
          have hlength := congrArg List.length (hcode.symm.trans hsingle)
          simp only [List.length_append, List.length_cons, List.length_nil] at hlength
          exact List.length_eq_zero_iff.mp (by omega)
        subst hbefore
        have hwhole : (c :: cs).flatMap String.utf8EncodeChar = b' :: slice' ++ after := by
          rw [List.flatMap_cons, hbytes, List.nil_append]
        obtain ⟨ms, rs, hchars, hms⟩ := exists_chars_prefix hsmall hwhole
        exact ⟨[], ms, rs, hchars, rfl, hms⟩

private theorem utf8Len_eq (cs : List Char) :
    String.utf8Len cs = (cs.flatMap String.utf8EncodeChar).length := by
  rw [← bytes_ofList, length_bytes, String.utf8ByteSize_ofList]

/-- A run of small bytes can be cut out of a text. -/
theorem slice_of_small {s : String} {before slice after : List UInt8} (hne : slice ≠ [])
    (hsmall : ∀ b ∈ slice, b.toNat < 128) (hbytes : bytes s = before ++ (slice ++ after)) :
    Sliceable s before.length (before.length + slice.length) ∧
      bytes (String.Pos.Raw.extract s ⟨before.length⟩ ⟨before.length + slice.length⟩) = slice := by
  rw [bytes_eq_flatMap] at hbytes
  obtain ⟨ls, ms, rs, hchars, rfl, rfl⟩ := exists_chars hne hsmall hbytes
  have htext : s = String.ofList (ls ++ ms ++ rs) := by
    rw [← hchars, String.ofList_toList]
  have hsize : s.utf8ByteSize = String.utf8Len ls + String.utf8Len ms + String.utf8Len rs := by
    rw [htext, String.utf8ByteSize_ofList, String.utf8Len_append, String.utf8Len_append]
  have valid {front back : List Char} (hsplit : ls ++ ms ++ rs = front ++ back) :
      String.Pos.Raw.IsValid s ⟨String.utf8Len front⟩ := by
    refine String.Pos.Raw.isValid_iff_exists_append.mpr
      ⟨String.ofList front, String.ofList back, ?_, ?_⟩
    · rw [htext, hsplit, String.ofList_append]
    · rw [String.rawEndPos_ofList]
  rw [← utf8Len_eq, ← utf8Len_eq]
  refine ⟨⟨Nat.le_add_right _ _, by omega, ?_, ?_⟩, ?_⟩
  · exact valid (List.append_assoc ls ms rs)
  · rw [← String.utf8Len_append]
    exact valid rfl
  · rw [htext, String.extract_of_valid, bytes_ofList]

end GridPuzzle.Text
