import GridPuzzle.Proofs.Program.Heads
import GridPuzzle.Proofs.Text.Bytes

/-!
# Units among other text

Whoever writes a program may put any text before, between and behind its units, as long as it has
no opening parenthesis. Such a filler may end in the beginning of a keyword, and the scan may take
some of it for the trailing word of the unit before. All the same no unit is lost and none is found
that was not written: a head has one opening parenthesis, what stands before that is its keyword,
and no keyword ends in another one.
-/

namespace GridPuzzle

/-- A unit of a program, with what stands between it and the next one or the end of the text. -/
structure Clause where
  direction : Direction
  count : UInt32
  filler : String

namespace Clause

/-- A unit as it is written: the keyword, and the decimal count in parentheses. -/
def unit (p : Clause) : String := p.direction.keyword ++ "(" ++ Text.natural p.count.toNat ++ ")"

/-- A text of units, with a filler before the first one. -/
def text (first : String) : List Clause → String
  | [] => first
  | p :: rest => first ++ p.unit ++ text p.filler rest

/-- The head that a unit is. -/
def head (p : Clause) : Token.Head :=
  ⟨p.direction, (Text.digits p.count.toNat).map fun c => c.toNat.toUInt8⟩

/-- The decimal digits of a number are digits. -/
private theorem isDigit_of_mem_digits {n : Nat} {c : Char} (hc : c ∈ Text.digits n) :
    48 ≤ c.toNat ∧ c.toNat ≤ 57 := by
  have hdigit : c.isDigit = true := Nat.isDigit_of_mem_toDigits (by decide) (by decide) hc
  simpa [Char.isDigit, UInt32.le_iff_toNat_le] using hdigit

theorem proper_head (p : Clause) : p.head.Proper where
  nonempty := by simp [head, Text.digits, Nat.toDigits_ne_nil]
  digits b hb := by
    obtain ⟨c, hc, rfl⟩ := List.mem_map.mp hb
    obtain ⟨hlow, hhigh⟩ := isDigit_of_mem_digits hc
    have hvalue : c.toNat.toUInt8.toNat = c.toNat :=
      UInt8.toNat_ofNat_of_lt' (Nat.lt_of_le_of_lt hhigh (by decide))
    simp only [Token.isDigit, Bool.and_eq_true, decide_eq_true_eq, UInt8.le_iff_toNat_le, hvalue]
    exact ⟨hlow, hhigh⟩

/-- A unit is written as its head. -/
theorem bytes_unit (p : Clause) : Text.bytes p.unit = p.head.bytes := by
  have hkeyword : Text.bytes p.direction.keyword = p.direction.keywordBytes := by
    have hascii : p.direction.keyword.toList.all (·.toNat < 128) = true := by
      cases p.direction <;> decide
    rw [Text.bytes_eq_flatMap, Direction.keywordBytes_eq, Text.flatMap_utf8EncodeChar fun c hc =>
      of_decide_eq_true (List.all_eq_true.mp hascii c hc)]
  have hdigits : Text.bytes (Text.natural p.count.toNat) = p.head.digits := by
    refine (Text.bytes_ofList _).trans (Text.flatMap_utf8EncodeChar fun c hc => ?_)
    exact Nat.lt_of_le_of_lt (isDigit_of_mem_digits hc).2 (by decide)
  have hopen : Text.bytes "(" = [40] := by decide +kernel
  have hclose : Text.bytes ")" = [41] := by decide +kernel
  simp [unit, Token.Head.bytes, hkeyword, hdigits, hopen, hclose, head]

/-- The digits of a count denote it. -/
theorem digitsValue_head (p : Clause) : Token.digitsValue p.head.digits = p.count.toNat := by
  have hvalue := Text.digitsValue_digits p.count.toNat
  unfold Text.digitsValue at hvalue
  rw [Nat.ofDigitChars_eq_foldl] at hvalue
  unfold Token.digitsValue head
  rw [List.foldl_map]
  refine Eq.trans (List.foldl_ext _ _ _ fun n c hc => ?_) hvalue
  have hbyte : c.toNat.toUInt8.toNat = c.toNat :=
    UInt8.toNat_ofNat_of_lt' (Nat.lt_of_le_of_lt (isDigit_of_mem_digits hc).2 (by decide))
  rw [hbyte]
  rfl

/-- The head of a unit counts as the unit does. -/
theorem count?_head (p : Clause) : p.head.count? = some p.count := by
  unfold Token.Head.count?
  rw [digitsValue_head, if_pos p.count.toNat_lt_size, UInt32.ofNat_toNat]

end Clause

namespace Token

section Filler

variable {filler rest : List UInt8} (hfiller : 40 ∉ filler)

include hfiller

/-- No head begins in a filler, whatever it ends in: that would end the keyword of one head in
another one. -/
theorem head?_drop_filler (h : Head) {j : Nat} (hj : j < filler.length) :
    head? ((filler ++ (h.bytes ++ rest)).drop j) = none := by
  cases hfound : head? ((filler ++ (h.bytes ++ rest)).drop j) with
  | none => rfl
  | some h' =>
    exfalso
    obtain ⟨-, rest', hsplit⟩ := proper_of_head? hfound
    rw [List.drop_append_of_le_length hj.le] at hsplit
    -- both sides have the same text before their first opening parenthesis
    have hkeywords := congrArg (List.takeWhile (· != 40)) hsplit
    have before (bs tail : List UInt8) (hbs : 40 ∉ bs) :
        (bs ++ 40 :: tail).takeWhile (· != 40) = bs := by
      have hall : ∀ b ∈ bs, (b != 40) = true := fun b hb => by
        rw [bne_iff_ne]
        rintro rfl
        exact hbs hb
      rw [List.takeWhile_append_of_pos hall, List.takeWhile_cons_of_neg (by decide),
        List.append_nil]
    have hnone (d : Direction) : (40 : UInt8) ∉ d.keywordBytes := by cases d <;> decide
    have htail : (40 : UInt8) ∉ filler.drop j ++ h.direction.keywordBytes := by
      rw [List.mem_append]
      exact fun hmem => hmem.elim (fun hdrop => hfiller (List.mem_of_mem_drop hdrop)) (hnone _)
    simp only [Head.bytes, List.append_assoc, List.cons_append] at hkeywords
    rw [before _ _ (hnone _), ← List.append_assoc, before _ _ htail,
      List.drop_eq_getElem_cons hj] at hkeywords
    obtain ⟨b', bs', hkeyword', -, hlater⟩ := keywordBytes_cons h'.direction
    obtain ⟨b, bs, hkeyword, hinitial, -⟩ := keywordBytes_cons h.direction
    rw [hkeyword', hkeyword, List.cons_append, List.cons.injEq] at hkeywords
    have hmem : b ∈ bs' := by
      rw [hkeywords.2]
      simp
    rw [hlater b hmem] at hinitial
    cases hinitial

/-- A filler has no head in it. -/
theorem headsFrom_filler (offset : Nat) : headsFrom offset filler = [] := by
  refine List.eq_nil_iff_forall_not_mem.mpr fun ⟨i, h⟩ hmem => ?_
  obtain ⟨j, -, hfound⟩ := mem_headsFrom.mp hmem
  obtain ⟨-, hbegin⟩ := proper_of_head? hfound
  have hopen : (40 : UInt8) ∈ h.bytes := by simp [Head.bytes]
  exact hfiller (List.mem_of_mem_drop (hbegin.subset hopen))

/-- A head behind a filler is the first one, and the others come behind it. -/
theorem headsFrom_filler_append {h : Head} (hh : h.Proper) (offset : Nat) :
    headsFrom offset (filler ++ (h.bytes ++ rest)) =
      (offset + filler.length, h) :: headsFrom (offset + filler.length + h.length) rest := by
  have hfound : head? (h.bytes ++ rest) = some h := head?_bytes hh rest
  obtain ⟨b, tail, hbytes, -⟩ := hh.bytes_cons
  have hlength : tail.length + 1 = h.length := by rw [← h.length_bytes, hbytes, List.length_cons]
  have hinside : ∀ j < tail.length, head? ((tail ++ rest).drop j) = none := fun j hj => by
    have hdrop := head?_drop_inside hfound (Nat.succ_pos j) (by omega)
    rwa [hbytes, List.cons_append, List.drop_succ_cons] at hdrop
  rw [headsFrom_drop (fun j hj => head?_drop_filler hfiller h hj), List.drop_left]
  rw [hbytes, List.cons_append] at hfound ⊢
  rw [headsFrom, hfound]
  dsimp only
  rw [headsFrom_drop hinside, List.drop_left, ← hlength, Nat.add_assoc _ 1, Nat.add_comm 1]

end Filler

/-- What the tokens of a text ask for, as its heads tell it. -/
theorem map_tokenize (text : String) :
    (tokenize text).map (fun t => (t.direction, t.count)) =
      (headsFrom 0 (Text.bytes text)).filterMap fun f =>
        f.2.count?.map fun n => (f.2.direction, n) := by
  show _ = (headsFrom 0 text.toUTF8.data.toList).filterMap _
  rw [← hits_eq_headsFrom, List.filterMap_map, tokenize, List.map_filterMap]
  refine congrArg (List.filterMap · _) (funext fun hit => ?_)
  simp [ofHit?, Function.comp_def]

end Token

namespace Clause

open Token

/-- The heads of a text of units are those of its units. -/
theorem headsFrom_text {first : String} {ps : List Clause} (hfirst : '(' ∉ first.toList)
    (hps : ∀ p ∈ ps, '(' ∉ p.filler.toList) (offset : Nat) :
    (headsFrom offset (Text.bytes (text first ps))).map Prod.snd = ps.map head := by
  have free {s : String} (hs : '(' ∉ s.toList) : (40 : UInt8) ∉ Text.bytes s := fun hmem =>
    hs ((Text.mem_bytes_iff (c := '(') (by decide)).mp hmem)
  induction ps generalizing first offset with
  | nil =>
    rw [text, headsFrom_filler (free hfirst)]
    rfl
  | cons p rest ih =>
    rw [text, Text.bytes_append, Text.bytes_append, bytes_unit, List.append_assoc,
      headsFrom_filler_append (free hfirst) p.proper_head, List.map_cons, List.map_cons,
      ih (hps p List.mem_cons_self) fun p' hp' => hps p' (List.mem_cons_of_mem _ hp')]

/-- With anything but an opening parenthesis around them, the tokens are the units in their order,
and the text asks for the steps of each. -/
theorem units_survive_surrounding_text {first : String} {ps : List Clause}
    (hfirst : '(' ∉ first.toList) (hps : ∀ p ∈ ps, '(' ∉ p.filler.toList) :
    (tokenize (text first ps)).map (fun t => (t.direction, t.count)) =
        ps.map (fun p => (p.direction, p.count)) ∧
      compile (text first ps) = ps.flatMap fun p => List.replicate p.count.toNat p.direction := by
  have htokens : (tokenize (text first ps)).map (fun t => (t.direction, t.count)) =
      ps.map fun p => (p.direction, p.count) := by
    have hheads := congrArg (List.filterMap fun h : Head => h.count?.map fun n => (h.direction, n))
      (headsFrom_text hfirst hps 0)
    rw [List.filterMap_map, List.filterMap_map] at hheads
    rw [map_tokenize, ← List.filterMap_eq_map]
    refine hheads.trans (congrArg (List.filterMap · ps) (funext fun p => ?_))
    simp only [Function.comp_apply, count?_head]
    rfl
  refine ⟨htokens, ?_⟩
  have hsteps := congrArg (List.flatMap fun u : Direction × UInt32 =>
    List.replicate u.2.toNat u.1) htokens
  rwa [List.flatMap_map, List.flatMap_map] at hsteps

/-- Units of which the second stands in the trailing word of the first. -/
def buriedUnits : List Clause :=
  [⟨.left, 2, "le"⟩, ⟨.left, 0, "→up)9"⟩, ⟨.down, 3, ""⟩, ⟨.up, 12, "_x left"⟩]

/-- Fillers that end in the beginning of a keyword, or in a whole one, take nothing from the
units. -/
theorem units_inside_words_survive :
    (∀ filler ∈ ["righ", "le", "→up)9", "", "_x left"], '(' ∉ filler.toList) ∧
      (tokenize "righleft(2)leleft(0)→up)9down(3)up(12)_x left").map
          (fun t => (t.direction, t.count)) =
        [(.left, 2), (.left, 0), (.down, 3), (.up, 12)] ∧
      compile "righleft(2)leleft(0)→up)9down(3)up(12)_x left" =
        [.left, .left, .down, .down, .down] ++ List.replicate 12 .up := by
  have hfree : ∀ filler ∈ ["righ", "le", "→up)9", "", "_x left"], '(' ∉ filler.toList := by
    decide +kernel
  have htext : text "righ" buriedUnits = "righleft(2)leleft(0)→up)9down(3)up(12)_x left" := by
    decide +kernel
  have hfillers : ∀ p ∈ buriedUnits, '(' ∉ p.filler.toList := by decide +kernel
  obtain ⟨htokens, hsteps⟩ :=
    units_survive_surrounding_text (hfree "righ" List.mem_cons_self) hfillers
  rw [htext] at htokens hsteps
  exact ⟨hfree, htokens, hsteps⟩

end Clause

end GridPuzzle
