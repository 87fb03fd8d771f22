import GridPuzzle.Json.Read
import GridPuzzle.Proofs.Json.Layouts
import Mathlib.Data.List.Nodup

/-!
# Objects with members in any order

What an object writes does not depend on the order of its members. A record reads such an object to
its value if every field is there once, except that omissible ones may be missing, and if all other
members are admitted. Conversely, whatever a record reads has no member that is not admitted, no
field twice and every field that is required.
-/

namespace GridPuzzle.Json

/-! ## Strings -/

/-- The pieces that denote some characters: each is itself, or the units of its UTF-16 form. -/
inductive Denoted : List Char → List Piece → Prop
  | nil : Denoted [] []
  | char {c : Char} {cs : List Char} {ps : List Piece} (h : Denoted cs ps) :
      Denoted (c :: cs) (.char c :: ps)
  | word {c : Char} {cs : List Char} {ps : List Piece} (hbasic : c.toNat < 0x10000)
      (h : Denoted cs ps) : Denoted (c :: cs) (.word c.toNat :: ps)
  | pair {c : Char} {cs : List Char} {ps : List Piece} (hbeyond : 0x10000 ≤ c.toNat)
      (h : Denoted cs ps) :
      Denoted (c :: cs) (.word (0xD800 + (c.toNat - 0x10000) / 0x400) ::
        .word (0xDC00 + (c.toNat - 0x10000) % 0x400) :: ps)

/-- A string, in one of the ways in which it may be written. -/
def RawText.Writes (raw : RawText) (s : String) : Prop :=
  raw.ending = .closed ∧ Denoted s.toList raw.pieces

/-- A character is no surrogate, and there is a last one. -/
theorem toNat_valid (c : Char) :
    c.toNat < 0xD800 ∨ 0xDFFF < c.toNat ∧ c.toNat < 0x110000 := by
  have hvalid : c.val.toNat.isValidChar := c.valid
  rw [Char.toNat_val] at hvalid
  exact hvalid

/-- The units of a character beyond the first plane are a surrogate pair, which is paired to it. -/
theorem pairedChar_units {c : Char} (h : 0x10000 ≤ c.toNat) :
    isLeading (0xD800 + (c.toNat - 0x10000) / 0x400) = true ∧
      isTrailing (0xD800 + (c.toNat - 0x10000) / 0x400) = false ∧
      isTrailing (0xDC00 + (c.toNat - 0x10000) % 0x400) = true ∧
      pairedChar (0xD800 + (c.toNat - 0x10000) / 0x400)
        (0xDC00 + (c.toNat - 0x10000) % 0x400) = c := by
  have hvalid := toNat_valid c
  have hnumber : 0x10000 + (0xD800 + (c.toNat - 0x10000) / 0x400 - 0xD800) * 0x400 +
      (0xDC00 + (c.toNat - 0x10000) % 0x400 - 0xDC00) = c.toNat := by omega
  refine ⟨?_, ?_, ?_, ?_⟩
  · simp only [isLeading, Bool.and_eq_true, decide_eq_true_eq]
    omega
  · simp only [isTrailing, Bool.and_eq_false_iff, decide_eq_false_iff_not]
    omega
  · simp only [isTrailing, Bool.and_eq_true, decide_eq_true_eq]
    omega
  · rw [pairedChar, hnumber, Char.ofNat_toNat]

/-- Pieces that denote some characters are decoded to them. -/
theorem decodePieces_denoted {cs : List Char} {ps : List Piece} (h : Denoted cs ps)
    (done : List Char) : decodePieces .closed done ps = .ok (done.reverse ++ cs) := by
  induction h generalizing done with
  | nil => simp [decodePieces, TextEnd.fault?]
  | char _ ih =>
    rw [decodePieces, ih]
    simp
  | @word c cs ps hbasic _ ih =>
    have hlow : isTrailing c.toNat = false ∧ isLeading c.toNat = false := by
      have hvalid := toNat_valid c
      simp only [isTrailing, isLeading, Bool.and_eq_false_iff, decide_eq_false_iff_not]
      omega
    rw [decodePieces.eq_def]
    simp [hlow, ih]
  | @pair c cs ps hbeyond _ ih =>
    obtain ⟨hleading, hfirst, htrailing, hpaired⟩ := pairedChar_units hbeyond
    rw [decodePieces.eq_def]
    simp [hleading, hfirst, htrailing, hpaired, ih]

/-- A string is read, however it is written. -/
theorem RawText.Writes.read {raw : RawText} {s : String} (h : raw.Writes s) : raw.read = .ok s := by
  rw [RawText.read, h.1, decodePieces_denoted h.2]
  simp [Except.map]

/-- What is written is one string only. -/
theorem RawText.Writes.unique {raw : RawText} {s s' : String} (h : raw.Writes s)
    (h' : raw.Writes s') : s = s' :=
  Except.ok.inj (h.read.symm.trans h'.read)

/-! ## Objects that write something -/

/-- A member of an object: its key, whether it may be left out, and the trees that write its
value. -/
structure Entry where
  key : String
  omissible : Prop
  writes : Tree → Prop

/-- The members of an object that writes some entries, in any order: none of them twice, and only
omissible ones not at all. Where strangers are admitted, members with other keys hold anything. -/
structure WritesMembers (entries : List Entry) (strangers : Bool)
    (members : List (RawText × Tree)) : Prop where
  each : ∀ m ∈ members, (∃ e ∈ entries, m.1.Writes e.key ∧ e.writes m.2) ∨
    strangers = true ∧ m.2.Whole ∧ ∃ key, m.1.Writes key ∧ ∀ e ∈ entries, e.key ≠ key
  once : members.Pairwise fun m m' => ∀ e ∈ entries, ¬(m.1.Writes e.key ∧ m'.1.Writes e.key)
  present : ∀ e ∈ entries, ¬e.omissible → ∃ m ∈ members, m.1.Writes e.key

/-- An object that writes some entries. -/
def WritesObject (entries : List Entry) (strangers : Bool) (t : Tree) : Prop :=
  ∃ members, t = .object members .closed ∧ WritesMembers entries strangers members

/-- A value, as far as it has been seen. -/
def given {β : Type} (seen : Bool) (b : β) : Option β := if seen then some b else none

@[simp] theorem isSome_given {β : Type} (seen : Bool) (b : β) : (given seen b).isSome = seen := by
  cases seen <;> rfl

theorem given_of {β : Type} {seen : Bool} (h : seen = true) (b : β) : given seen b = some b :=
  if_pos h

/-- A value that is the usual one where it has not been seen. -/
theorem getD_given {β : Type} {seen : Bool} {b usual : β} (h : b ≠ usual → seen = true) :
    (given seen b).getD usual = b := by
  cases seen with
  | true => rfl
  | false =>
    by_contra hne
    exact Bool.false_ne_true (h fun heq => hne heq.symm)

/-- How a record takes up some entries: `draft` is the draft that holds those whose keys have been
seen. -/
structure Record.Takes {σ α : Type} (r : Record σ α) (entries : List Entry)
    (draft : (String → Bool) → σ) (a : α) : Prop where
  keys : (entries.map Entry.key).Nodup
  fields : List.Forall₂ (fun e f => f.name = e.key ∧
    (∀ seen, f.isRead (draft seen) = seen e.key) ∧
    ∀ t seen, e.writes t →
      f.read t (draft seen) = .ok (draft fun key => key == e.key || seen key)) entries r.fields
  empty : draft (fun _ => false) = r.empty
  complete : ∀ seen : String → Bool, (∀ e ∈ entries, ¬e.omissible → seen e.key = true) →
    r.complete (draft seen) = .ok a

/-- A field that is kept in a part of the draft takes up an entry. -/
theorem Field.takes {σ β : Type} {name : String} {get : σ → Option β} {put : β → σ → σ}
    {read : Tree → Except Fault β} {draft : (String → Bool) → σ} {b : β} {writes : Tree → Prop}
    (hget : ∀ seen, get (draft seen) = given (seen name) b)
    (hput : ∀ seen, put b (draft seen) = draft fun key => key == name || seen key)
    (hread : ∀ t, writes t → read t = .ok b) :
    (∀ seen, (Field.required name get put read).isRead (draft seen) = seen name) ∧
      ∀ t seen, writes t → (Field.required name get put read).read t (draft seen) =
        .ok (draft fun key => key == name || seen key) := by
  refine ⟨fun seen => ?_, fun t seen ht => ?_⟩
  · unfold Field.required
    dsimp only
    rw [hget, isSome_given]
  · unfold Field.required
    dsimp only
    rw [hread t ht, ← hput]
    rfl

/-- A field that may be missing takes up an entry in the same way. -/
theorem Field.takes_usual {σ β : Type} {name : String} {get : σ → Option β} {put : β → σ → σ}
    {read : Tree → Except Fault β} {draft : (String → Bool) → σ} {b : β} {writes : Tree → Prop}
    (hget : ∀ seen, get (draft seen) = given (seen name) b)
    (hput : ∀ seen, put b (draft seen) = draft fun key => key == name || seen key)
    (hread : ∀ t, writes t → read t = .ok b) :
    (∀ seen, (Field.usual name get put read).isRead (draft seen) = seen name) ∧
      ∀ t seen, writes t → (Field.usual name get put read).read t (draft seen) =
        .ok (draft fun key => key == name || seen key) :=
  Field.takes hget hput hread

section Taking

variable {σ α : Type} {r : Record σ α} {entries : List Entry} {draft : (String → Bool) → σ} {a : α}

/-- The field of an entry is found by its key. -/
theorem find?_entry {fields : List (Field σ)} {P : Entry → Field σ → Prop}
    (h : List.Forall₂ (fun e f => f.name = e.key ∧ P e f) entries fields)
    (hkeys : (entries.map Entry.key).Nodup) {e : Entry} (he : e ∈ entries) :
    ∃ f, fields.find? (fun f => f.name == e.key) = some f ∧ P e f := by
  induction h with
  | nil => cases he
  | @cons e' f' entries fields hef _ ih =>
    rw [List.map_cons, List.nodup_cons] at hkeys
    rcases List.mem_cons.mp he with rfl | hrest
    · exact ⟨f', by rw [List.find?_cons_of_pos (by simpa using hef.1)], hef.2⟩
    · have hne : (f'.name == e.key) = false := by
        rw [hef.1, beq_eq_false_iff_ne]
        intro heq
        exact hkeys.1 (heq ▸ List.mem_map_of_mem hrest)
      simp only [List.find?_cons, hne]
      exact ih hkeys.2 hrest

/-- No field is found by the key of a stranger. -/
theorem find?_stranger {fields : List (Field σ)} {P : Entry → Field σ → Prop}
    (h : List.Forall₂ (fun e f => f.name = e.key ∧ P e f) entries fields) {key : String}
    (hkey : ∀ e ∈ entries, e.key ≠ key) : fields.find? (fun f => f.name == key) = none := by
  induction h with
  | nil => rfl
  | @cons e f entries fields hef _ ih =>
    have hne : (f.name == key) = false := by
      rw [hef.1, beq_eq_false_iff_ne]
      exact hkey e List.mem_cons_self
    simp only [List.find?_cons, hne]
    exact ih fun e' he' => hkey e' (List.mem_cons_of_mem _ he')

/-- A member of an entry that has not been seen is read into the draft. -/
theorem Record.Takes.readMembers_entry (h : r.Takes entries draft a) {m : RawText × Tree}
    {e : Entry} (he : e ∈ entries) (hkey : m.1.Writes e.key) (hvalue : e.writes m.2)
    {seen : String → Bool} (hfresh : seen e.key = false) (members : List (RawText × Tree)) :
    r.readMembers .closed (draft seen) (m :: members) =
      r.readMembers .closed (draft fun key => key == e.key || seen key) members := by
  obtain ⟨f, hf, hisRead, hread⟩ := find?_entry h.fields h.keys he
  rw [Record.readMembers, hkey.read]
  simp only [Record.fieldOf, hf, hisRead, hfresh, Bool.false_eq_true, if_false, hread _ _ hvalue]

/-- A stranger is skimmed. -/
theorem Record.Takes.readMembers_stranger (h : r.Takes entries draft a) (hopen : r.strict = false)
    {m : RawText × Tree} (hwhole : m.2.Whole) {key : String} (hkey : m.1.Writes key)
    (hstranger : ∀ e ∈ entries, e.key ≠ key) (d : σ) (members : List (RawText × Tree)) :
    r.readMembers .closed d (m :: members) = r.readMembers .closed d members := by
  rw [Record.readMembers, hkey.read]
  simp only [Record.fieldOf, find?_stranger h.fields hstranger, hopen, Bool.false_eq_true, if_false,
    hwhole.skimmed?]

/-- Members in any order are read, and afterwards the entries among them have been seen. -/
theorem Record.Takes.readMembers (h : r.Takes entries draft a) {members : List (RawText × Tree)}
    (heach : ∀ m ∈ members, (∃ e ∈ entries, m.1.Writes e.key ∧ e.writes m.2) ∨
      (!r.strict) = true ∧ m.2.Whole ∧ ∃ key, m.1.Writes key ∧ ∀ e ∈ entries, e.key ≠ key)
    (honce : members.Pairwise fun m m' => ∀ e ∈ entries, ¬(m.1.Writes e.key ∧ m'.1.Writes e.key))
    (seen : String → Bool)
    (hfresh : ∀ m ∈ members, ∀ e ∈ entries, m.1.Writes e.key → seen e.key = false) :
    ∃ seen' : String → Bool, r.readMembers .closed (draft seen) members = .ok (draft seen') ∧
      (∀ key, seen key = true → seen' key = true) ∧
      ∀ m ∈ members, ∀ e ∈ entries, m.1.Writes e.key → seen' e.key = true := by
  induction members generalizing seen with
  | nil => exact ⟨seen, rfl, fun _ hkey => hkey, nofun⟩
  | cons m members ih =>
    rw [List.pairwise_cons] at honce
    have heach' := fun m' hm' => heach m' (List.mem_cons_of_mem _ hm')
    rcases heach m List.mem_cons_self with ⟨e, he, hkey, hvalue⟩ | ⟨hopen, hwhole, key, hkey, hnew⟩
    · obtain ⟨seen', hread, hkept, hseen⟩ := ih heach' honce.2 (fun key => key == e.key || seen key)
        fun m' hm' e' he' hkey' => by
          have hne : e'.key ≠ e.key := fun heq =>
            honce.1 m' hm' e he ⟨hkey, heq ▸ hkey'⟩
          simpa [hne] using hfresh m' (List.mem_cons_of_mem _ hm') e' he' hkey'
      refine ⟨seen', ?_, fun key' hkey' => hkept key' (by simp [hkey']), ?_⟩
      · rw [h.readMembers_entry he hkey hvalue (hfresh m List.mem_cons_self e he hkey), hread]
      · intro m' hm' e' he' hkey'
        rcases List.mem_cons.mp hm' with rfl | hrest
        · exact hkept e'.key (by simp [hkey'.unique hkey])
        · exact hseen m' hrest e' he' hkey'
    · obtain ⟨seen', hread, hkept, hseen⟩ := ih heach' honce.2 seen
        fun m' hm' => hfresh m' (List.mem_cons_of_mem _ hm')
      refine ⟨seen', ?_, hkept, ?_⟩
      · rw [h.readMembers_stranger (by simpa using hopen) hwhole hkey hnew, hread]
      · intro m' hm' e' he' hkey'
        rcases List.mem_cons.mp hm' with rfl | hrest
        · exact absurd (hkey'.unique hkey) (hnew e' he')
        · exact hseen m' hrest e' he' hkey'

/-- A record is read from an object that writes its entries, whatever the order. -/
theorem Record.Takes.read (h : r.Takes entries draft a) {t : Tree}
    (ht : WritesObject entries (!r.strict) t) : r.read t = .ok a := by
  obtain ⟨members, rfl, hmembers⟩ := ht
  obtain ⟨seen, hread, -, hseen⟩ :=
    h.readMembers hmembers.each hmembers.once (fun _ => false) fun _ _ _ _ _ => rfl
  rw [h.empty] at hread
  have hcomplete := h.complete seen fun e he hrequired => by
    obtain ⟨m, hm, hkey⟩ := hmembers.present e he hrequired
    exact hseen m hm e he hkey
  rw [Record.read, hread]
  exact hcomplete

end Taking

/-! ## What a record reads -/

/-- How the fields of a record keep account of what has been read. -/
structure Record.Lawful {σ α : Type} (r : Record σ α) : Prop where
  names : (r.fields.map Field.name).Nodup
  empty : ∀ f ∈ r.fields, f.isRead r.empty = false
  read : ∀ f ∈ r.fields, ∀ t d d', f.read t d = .ok d' →
    ∀ g ∈ r.fields, g.isRead d' = (g.name == f.name || g.isRead d)
  required : ∀ d a, r.complete d = .ok a → ∀ f ∈ r.fields, f.optional = false → f.isRead d = true

/-- What is to be said about members that have been read into a draft. -/
structure Record.Took {σ α : Type} (r : Record σ α) (members : List (RawText × Tree))
    (d d' : σ) : Prop where
  known : ∀ m ∈ members, ∃ key, m.1.read = .ok key ∧
    (r.strict = true → key ∈ r.fields.map Field.name)
  values : ∀ m ∈ members, ∀ f ∈ r.fields, m.1.read = .ok f.name →
    ∃ before after, f.read m.2 before = .ok after
  fresh : ∀ m ∈ members, ∀ f ∈ r.fields, m.1.read = .ok f.name → f.isRead d = false
  once : members.Pairwise fun m m' => ∀ f ∈ r.fields,
    ¬(m.1.read = .ok f.name ∧ m'.1.read = .ok f.name)
  origin : ∀ f ∈ r.fields, f.isRead d' = true →
    f.isRead d = true ∨ ∃ m ∈ members, m.1.read = .ok f.name

/-- A field that is kept in a part of the draft puts what it reads there. -/
theorem Field.read_required {σ β : Type} {name : String} {get : σ → Option β} {put : β → σ → σ}
    {read : Tree → Except Fault β} {t : Tree} {d d' : σ}
    (h : (Field.required name get put read).read t d = .ok d') :
    ∃ b, read t = .ok b ∧ d' = put b d := by
  unfold Field.required at h
  dsimp only at h
  cases hread : read t with
  | error f =>
    rw [hread] at h
    cases h
  | ok b =>
    rw [hread] at h
    cases h
    exact ⟨b, rfl, rfl⟩

/-- A field that may be missing does the same. -/
theorem Field.read_usual {σ β : Type} {name : String} {get : σ → Option β} {put : β → σ → σ}
    {read : Tree → Except Fault β} {t : Tree} {d d' : σ}
    (h : (Field.usual name get put read).read t d = .ok d') :
    ∃ b, read t = .ok b ∧ d' = put b d := by
  have h' : (Field.required name get put read).read t d = .ok d' := h
  exact Field.read_required h'

section Reading

variable {σ α : Type} {r : Record σ α}

/-- A field is found by its name. -/
theorem find?_field {fields : List (Field σ)} (hnames : (fields.map Field.name).Nodup)
    {f : Field σ} (hf : f ∈ fields) : fields.find? (fun g => g.name == f.name) = some f := by
  induction fields with
  | nil => cases hf
  | cons g fields ih =>
    rw [List.map_cons, List.nodup_cons] at hnames
    rcases List.mem_cons.mp hf with rfl | hrest
    · simp only [List.find?_cons, beq_self_eq_true]
    · have hne : (g.name == f.name) = false := by
        rw [beq_eq_false_iff_ne]
        intro heq
        exact hnames.1 (heq ▸ List.mem_map_of_mem hrest)
      simp only [List.find?_cons, hne]
      exact ih hnames.2 hrest

/-- The first member has been read into its field, or it has been skimmed. -/
theorem Record.readMembers_cons {d d' : σ} {m : RawText × Tree} {members : List (RawText × Tree)}
    (h : r.readMembers .closed d (m :: members) = .ok d') :
    ∃ key, m.1.read = .ok key ∧
      ((∃ f d₁, r.fields.find? (fun g => g.name == key) = some f ∧ f.isRead d = false ∧
          f.read m.2 d = .ok d₁ ∧ r.readMembers .closed d₁ members = .ok d') ∨
        r.fields.find? (fun g => g.name == key) = none ∧ r.strict = false ∧
          r.readMembers .closed d members = .ok d') := by
  unfold Record.readMembers at h
  cases hkey : m.1.read with
  | error f => simp only [hkey] at h; cases h
  | ok key =>
    refine ⟨key, rfl, ?_⟩
    simp only [hkey, Record.fieldOf] at h
    cases hfind : r.fields.find? (fun g => g.name == key) with
    | none =>
      cases hstrict : r.strict with
      | true => simp [hfind, hstrict] at h
      | false =>
        simp only [hfind, hstrict, Bool.false_eq_true, if_false] at h
        split at h
        · exact .inr ⟨rfl, rfl, h⟩
        · cases h
    | some f =>
      cases hisRead : f.isRead d with
      | true => simp [hfind, hisRead] at h
      | false =>
        simp only [hfind, hisRead, Bool.false_eq_true, if_false] at h
        split at h
        · rename_i d₁ hread
          exact .inl ⟨f, d₁, rfl, hisRead, hread, h⟩
        · cases h

/-- A member that is read into its field may come before members that leave the field alone. -/
theorem Record.Lawful.took_field (h : r.Lawful) {m : RawText × Tree}
    {members : List (RawText × Tree)} {key : String} {f : Field σ} {d d₁ d' : σ}
    (hkey : m.1.read = .ok key) (hfind : r.fields.find? (fun g => g.name == key) = some f)
    (hfresh : f.isRead d = false) (hvalue : f.read m.2 d = .ok d₁)
    (took : r.Took members d₁ d') : r.Took (m :: members) d d' := by
  have hf : f ∈ r.fields := List.mem_of_find?_eq_some hfind
  have hname : f.name = key := by simpa using List.find?_some hfind
  have own {g : Field σ} (hg : g ∈ r.fields) (hread : m.1.read = .ok g.name) : g = f := by
    cases hkey.symm.trans hread
    exact Option.some.inj ((find?_field h.names hg).symm.trans hfind)
  have isRead {g : Field σ} (hg : g ∈ r.fields) := h.read f hf m.2 d d₁ hvalue g hg
  refine ⟨?known, ?values, ?fresh, ?once, ?origin⟩
  case known =>
    refine List.forall_mem_cons.mpr ⟨⟨key, hkey, fun _ => ?_⟩, took.known⟩
    exact hname ▸ List.mem_map_of_mem hf
  case values =>
    refine List.forall_mem_cons.mpr ⟨fun g hg hread => ?_, took.values⟩
    exact ⟨d, d₁, own hg hread ▸ hvalue⟩
  case fresh =>
    refine List.forall_mem_cons.mpr ⟨fun g hg hread => own hg hread ▸ hfresh, ?_⟩
    intro m' hm' g hg hread
    have hlater := took.fresh m' hm' g hg hread
    rw [isRead hg, Bool.or_eq_false_iff] at hlater
    exact hlater.2
  case once =>
    refine List.pairwise_cons.mpr ⟨fun m' hm' g hg ⟨hread, hread'⟩ => ?_, took.once⟩
    have hlater := took.fresh m' hm' g hg hread'
    rw [isRead hg, own hg hread, beq_self_eq_true, Bool.true_or] at hlater
    cases hlater
  case origin =>
    intro g hg hlast
    rcases took.origin g hg hlast with hbefore | ⟨m', hm', hread⟩
    · rw [isRead hg, Bool.or_eq_true, beq_iff_eq] at hbefore
      rcases hbefore with heq | hbefore
      · exact .inr ⟨m, List.mem_cons_self, by rw [heq, hname, hkey]⟩
      · exact .inl hbefore
    · exact .inr ⟨m', List.mem_cons_of_mem _ hm', hread⟩

/-- A member that is skimmed changes nothing about what is taken. -/
theorem Record.Lawful.took_stranger (h : r.Lawful) {m : RawText × Tree}
    {members : List (RawText × Tree)} {key : String} {d d' : σ} (hkey : m.1.read = .ok key)
    (hfind : r.fields.find? (fun g => g.name == key) = none) (hopen : r.strict = false)
    (took : r.Took members d d') : r.Took (m :: members) d d' := by
  have foreign {g : Field σ} (hg : g ∈ r.fields) : m.1.read ≠ .ok g.name := by
    intro hread
    cases hkey.symm.trans hread
    cases (find?_field h.names hg).symm.trans hfind
  refine ⟨?known, ?values, ?fresh, ?once, ?origin⟩
  case known =>
    refine List.forall_mem_cons.mpr ⟨⟨key, hkey, fun hstrict => ?_⟩, took.known⟩
    rw [hopen] at hstrict
    cases hstrict
  case values =>
    exact List.forall_mem_cons.mpr ⟨fun g hg hread => absurd hread (foreign hg), took.values⟩
  case fresh =>
    exact List.forall_mem_cons.mpr ⟨fun g hg hread => absurd hread (foreign hg), took.fresh⟩
  case once =>
    exact List.pairwise_cons.mpr
      ⟨fun m' _ g hg hread => absurd hread.1 (foreign hg), took.once⟩
  case origin =>
    intro g hg hlast
    rcases took.origin g hg hlast with hbefore | ⟨m', hm', hread⟩
    · exact .inl hbefore
    · exact .inr ⟨m', List.mem_cons_of_mem _ hm', hread⟩

/-- Whatever has been read was admitted, and each field of it was there once. -/
theorem Record.Lawful.took (h : r.Lawful) {members : List (RawText × Tree)} {d d' : σ}
    (hread : r.readMembers .closed d members = .ok d') : r.Took members d d' := by
  induction members generalizing d with
  | nil =>
    cases hread
    exact ⟨nofun, nofun, nofun, .nil, fun f _ hf => .inl hf⟩
  | cons m members ih =>
    obtain ⟨key, hkey, ⟨f, d₁, hfind, hfresh, hvalue, hrest⟩ | ⟨hfind, hopen, hrest⟩⟩ :=
      Record.readMembers_cons hread
    · exact h.took_field hkey hfind hfresh hvalue (ih hrest)
    · exact h.took_stranger hkey hfind hopen (ih hrest)

/-- A record that is read from an object has taken all of its members. -/
theorem Record.Lawful.took_object (h : r.Lawful) {members : List (RawText × Tree)} {a : α}
    (hread : r.read (.object members .closed) = .ok a) :
    ∃ d, r.Took members r.empty d ∧ r.complete d = .ok a := by
  unfold Record.read at hread
  cases hmembers : r.readMembers .closed r.empty members with
  | error f =>
    simp only [hmembers] at hread
    cases hread
  | ok d =>
    simp only [hmembers] at hread
    exact ⟨d, h.took hmembers, hread⟩

end Reading

/-! ## Objects that write nothing -/

/-- An object that is not fit for some keys: a member is not admitted, a key is repeated, a required
one is missing, or a member with a key is itself not fit. -/
inductive Unfit (keys required : List String) (strangers : Bool) (inner : String → Tree → Prop) :
    Tree → Prop
  | stranger {members : List (RawText × Tree)} {m : RawText × Tree} {key : String}
      (hclosed : strangers = false) (hm : m ∈ members) (hkey : m.1.Writes key)
      (hnew : key ∉ keys) : Unfit keys required strangers inner (.object members .closed)
  | repeated {members : List (RawText × Tree)} {m m' : RawText × Tree} {key : String}
      (hknown : key ∈ keys) (htwice : [m, m'].Sublist members) (hkey : m.1.Writes key)
      (hkey' : m'.1.Writes key) : Unfit keys required strangers inner (.object members .closed)
  | missing {members : List (RawText × Tree)} {key : String} (hrequired : key ∈ required)
      (hothers : ∀ m ∈ members, ∃ key', m.1.Writes key' ∧ key' ≠ key) :
      Unfit keys required strangers inner (.object members .closed)
  | inside {members : List (RawText × Tree)} {m : RawText × Tree} {key : String}
      (hknown : key ∈ keys) (hm : m ∈ members) (hkey : m.1.Writes key) (hinner : inner key m.2) :
      Unfit keys required strangers inner (.object members .closed)

/-- A record is not read from an object that is not fit for its fields. -/
theorem Record.Lawful.unfit {σ α : Type} {r : Record σ α} (h : r.Lawful) {required : List String}
    (hrequired : ∀ key ∈ required, ∃ f ∈ r.fields, f.name = key ∧ f.optional = false)
    {inner : String → Tree → Prop}
    (hinner : ∀ f ∈ r.fields, ∀ t, inner f.name t → ∀ d d', f.read t d ≠ .ok d') {t : Tree}
    (ht : Unfit (r.fields.map Field.name) required (!r.strict) inner t) (a : α) :
    r.read t ≠ .ok a := by
  intro hread
  cases ht with
  | stranger hclosed hm hkey hnew =>
    obtain ⟨d, took, -⟩ := h.took_object hread
    obtain ⟨key, hkey', hknown⟩ := took.known _ hm
    cases hkey.read.symm.trans hkey'
    exact hnew (hknown (by simpa using hclosed))
  | repeated hknown htwice hkey hkey' =>
    obtain ⟨d, took, -⟩ := h.took_object hread
    obtain ⟨f, hf, rfl⟩ := List.mem_map.mp hknown
    exact List.pairwise_iff_forall_sublist.mp took.once htwice f hf ⟨hkey.read, hkey'.read⟩
  | missing hreq hothers =>
    obtain ⟨d, took, hcomplete⟩ := h.took_object hread
    obtain ⟨f, hf, rfl, hoptional⟩ := hrequired _ hreq
    have hlast := h.required d a hcomplete f hf hoptional
    rcases took.origin f hf hlast with hempty | ⟨m, hm, hkey⟩
    · rw [h.empty f hf] at hempty
      cases hempty
    · obtain ⟨key', hkey', hne⟩ := hothers m hm
      cases hkey'.read.symm.trans hkey
      exact hne rfl
  | inside hknown hm hkey hin =>
    obtain ⟨d, took, -⟩ := h.took_object hread
    obtain ⟨f, hf, rfl⟩ := List.mem_map.mp hknown
    obtain ⟨before, after, hvalue⟩ := took.values _ hm f hf hkey.read
    exact hinner f hf _ hin before after hvalue

/-! ## Pairs -/

section Pairs

variable {α β γ : Type} {title first second : String} {readFirst : Tree → Except Fault α}
  {readSecond : Tree → Except Fault β} {make : α → β → γ} (hne : first ≠ second)

include hne

/-- A record of two fields takes up an entry for each. -/
theorem pairRecord_takes {a : α} {b : β} {writesFirst writesSecond : Tree → Prop}
    (hfirst : ∀ t, writesFirst t → readFirst t = .ok a)
    (hsecond : ∀ t, writesSecond t → readSecond t = .ok b) :
    (pairRecord title first second readFirst readSecond make).Takes
      [⟨first, False, writesFirst⟩, ⟨second, False, writesSecond⟩]
      (fun seen => (given (seen first) a, given (seen second) b)) (make a b) where
  keys := by simpa using hne
  fields := by
    refine .cons ⟨rfl, Field.takes (fun _ => rfl) (fun seen => ?_) hfirst⟩
      (.cons ⟨rfl, Field.takes (fun _ => rfl) (fun seen => ?_) hsecond⟩ .nil)
    · simp [given, hne.symm]
    · simp [given, hne]
  empty := rfl
  complete seen hseen := by
    have hone := hseen _ List.mem_cons_self not_false
    have htwo := hseen _ (List.mem_cons_of_mem _ List.mem_cons_self) not_false
    simp only [pairRecord, given_of hone, given_of htwo, need, Except.bind]

/-- A record of two fields keeps account of them. -/
theorem pairRecord_lawful :
    (pairRecord title first second readFirst readSecond make).Lawful where
  names := by simpa [pairRecord, Field.required] using hne
  empty := by simp [pairRecord, Field.required]
  read := by
    simp only [pairRecord, List.forall_mem_cons, List.not_mem_nil, false_implies, implies_true,
      and_true]
    refine ⟨fun t d d' h => ?_, fun t d d' h => ?_⟩
    · obtain ⟨a, -, rfl⟩ := Field.read_required h
      simp [Field.required, hne.symm]
    · obtain ⟨b, -, rfl⟩ := Field.read_required h
      simp [Field.required, hne]
  required d c h := by
    rcases d with ⟨_ | a, _ | b⟩
    · cases h
    · cases h
    · cases h
    · simp [pairRecord, Field.required]

/-- A record of two fields is not read from an object that lacks one of them, repeats one or has one
whose value is not read. -/
theorem pairRecord_unfit {inner : String → Tree → Prop}
    (hfirst : ∀ t, inner first t → ∀ a, readFirst t ≠ .ok a)
    (hsecond : ∀ t, inner second t → ∀ b, readSecond t ≠ .ok b) {t : Tree}
    (ht : Unfit [first, second] [first, second] true inner t) (c : γ) :
    (pairRecord title first second readFirst readSecond make).read t ≠ .ok c := by
  refine (pairRecord_lawful hne).unfit ?_ ?_ ht c
  · simp [pairRecord, Field.required]
  · simp only [pairRecord, List.forall_mem_cons, List.not_mem_nil, false_implies, implies_true,
      and_true]
    refine ⟨fun t hinner d d' h => ?_, fun t hinner d d' h => ?_⟩
    · obtain ⟨a, hread, -⟩ := Field.read_required h
      exact hfirst t hinner a hread
    · obtain ⟨b, hread, -⟩ := Field.read_required h
      exact hsecond t hinner b hread

end Pairs

end GridPuzzle.Json
