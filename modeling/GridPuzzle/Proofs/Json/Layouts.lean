import GridPuzzle.Proofs.Json.Spellings

/-!
# The texts of a tree

A tree without a break is written as its lexemes, one after the other. They build the tree and leave
every open value as it was, so the document of such a text is the tree with nothing after it.
-/

namespace GridPuzzle.Json

mutual

/-- The lexemes of a tree without a break. -/
def Tree.lexemes : Tree → List Lexeme
  | .null => [.null]
  | .truth b => [.truth b]
  | .number n => [.number n]
  | .text t => [.text t]
  | .list [] _ => [.openList, .closeList]
  | .list (t :: ts) _ => .openList :: t.lexemes ++ furtherItems ts ++ [.closeList]
  | .object [] _ => [.openObject, .closeObject]
  | .object ((k, t) :: ms) _ =>
    .openObject :: .text k :: .colon :: t.lexemes ++ furtherMembers ms ++ [.closeObject]
  | .broken _ => []

/-- The lexemes of the further items of a list. -/
def furtherItems : List Tree → List Lexeme
  | [] => []
  | t :: ts => .comma :: t.lexemes ++ furtherItems ts

/-- The lexemes of the further members of an object. -/
def furtherMembers : List (RawText × Tree) → List Lexeme
  | [] => []
  | (k, t) :: ms => .comma :: .text k :: .colon :: t.lexemes ++ furtherMembers ms

end

mutual

/-- A tree without a break. -/
def Tree.Whole : Tree → Prop
  | .null | .truth _ | .number _ => True
  | .text t => t.ending = .closed
  | .list ts ending => ending = .closed ∧ WholeItems ts
  | .object ms ending => ending = .closed ∧ WholeMembers ms
  | .broken _ => False

/-- Items of a list, each without a break. -/
def WholeItems : List Tree → Prop
  | [] => True
  | t :: ts => t.Whole ∧ WholeItems ts

/-- Members of an object, each without a break. -/
def WholeMembers : List (RawText × Tree) → Prop
  | [] => True
  | (k, t) :: ms => k.ending = .closed ∧ t.Whole ∧ WholeMembers ms

end

/-- A text that writes a tree, with white space wherever one likes. -/
def Tree.LaidOut (t : Tree) (text : String) : Prop := t.Whole ∧ Lexeme.Laid t.lexemes text.toList

/-- Skimming over a tree without a break meets no fault. -/
theorem Tree.Whole.skimmed? {t : Tree} (h : t.Whole) : t.skimmed? = none := by
  cases t with
  | null | truth | number => rfl
  | text raw =>
    unfold Tree.Whole at h
    rw [Tree.skimmed?, h]
    rfl
  | list items ending =>
    unfold Tree.Whole at h
    rw [Tree.skimmed?, h.1]
    rfl
  | object members ending =>
    unfold Tree.Whole at h
    rw [Tree.skimmed?, h.1]
    rfl
  | broken why =>
    unfold Tree.Whole at h
    exact h.elim

/-- No value starts with the end of a list. -/
theorem Tree.Whole.head {t : Tree} (h : t.Whole) :
    ∃ l ls, t.lexemes = l :: ls ∧ l ≠ .closeList := by
  match t with
  | .null | .truth _ | .number _ | .text _ => exact ⟨_, _, rfl, nofun⟩
  | .list [] _ | .list (_ :: _) _ | .object [] _ | .object (_ :: _) _ =>
    exact ⟨_, _, rfl, nofun⟩
  | .broken _ => exact h.elim

/-- Where an item is due, a value begins one. -/
theorem Tree.Whole.build_item {t : Tree} (h : t.Whole) (stack : List Frame) (items : List Tree)
    (ls : List Lexeme) :
    build stack .firstItem (t.lexemes ++ ls) =
        build (.list [] :: stack) .value (t.lexemes ++ ls) ∧
      build stack (.item items) (t.lexemes ++ ls) =
        build (.list items :: stack) .value (t.lexemes ++ ls) := by
  obtain ⟨l, ls', hlexemes, hl⟩ := h.head
  rw [hlexemes]
  cases l with
  | closeList => exact absurd rfl hl
  | _ => exact ⟨rfl, rfl⟩

mutual

/-- The lexemes of a tree build it. -/
theorem build_tree (t : Tree) (h : t.Whole) (stack : List Frame) (ls : List Lexeme) :
    build stack .value (t.lexemes ++ ls) = build stack (.after t) ls := by
  match t with
  | .null | .truth _ | .number _ => rfl
  | .text raw =>
    unfold Tree.Whole at h
    simp only [Tree.lexemes, List.cons_append, List.nil_append, build, Due.turn, startValue, h,
      if_true]
  | .list [] ending =>
    unfold Tree.Whole at h
    rw [h.1]
    rfl
  | .list (t :: ts) ending =>
    unfold Tree.Whole WholeItems at h
    obtain ⟨rfl, ht, hts⟩ := h
    calc build stack .value ((Tree.list (t :: ts) .closed).lexemes ++ ls)
        = build stack .firstItem (t.lexemes ++ (furtherItems ts ++ .closeList :: ls)) := by
          simp [Tree.lexemes, build, Due.turn, startValue]
      _ = build (.list [] :: stack) (.after t) (furtherItems ts ++ .closeList :: ls) := by
          rw [(ht.build_item stack [] _).1, build_tree t ht]
      _ = build stack (.after (.list (t :: ts) .closed)) ls :=
          build_furtherItems ts hts [] t stack ls
  | .object [] ending =>
    unfold Tree.Whole at h
    rw [h.1]
    rfl
  | .object ((k, t) :: ms) ending =>
    unfold Tree.Whole WholeMembers at h
    obtain ⟨rfl, hk, ht, hms⟩ := h
    calc build stack .value ((Tree.object ((k, t) :: ms) .closed).lexemes ++ ls)
        = build (.object [] k :: stack) .value
            (t.lexemes ++ (furtherMembers ms ++ .closeObject :: ls)) := by
          simp [Tree.lexemes, build, Due.turn, startValue, startKey, hk]
      _ = build (.object [] k :: stack) (.after t) (furtherMembers ms ++ .closeObject :: ls) :=
          build_tree t ht _ _
      _ = build stack (.after (.object ((k, t) :: ms) .closed)) ls :=
          build_furtherMembers ms hms [] k t stack ls
  | .broken _ => exact h.elim

/-- The further items of a list complete it. -/
theorem build_furtherItems (ts : List Tree) (h : WholeItems ts) (items : List Tree) (t : Tree)
    (stack : List Frame) (ls : List Lexeme) :
    build (.list items :: stack) (.after t) (furtherItems ts ++ .closeList :: ls) =
      build stack (.after (.list ((t :: items).reverse ++ ts) .closed)) ls := by
  match ts with
  | [] => simp [furtherItems, build, Due.turn, continueValue]
  | t' :: ts =>
    unfold WholeItems at h
    calc build (.list items :: stack) (.after t) (furtherItems (t' :: ts) ++ .closeList :: ls)
        = build stack (.item (t :: items))
            (t'.lexemes ++ (furtherItems ts ++ .closeList :: ls)) := by
          simp [furtherItems, build, Due.turn, continueValue]
      _ = build (.list (t :: items) :: stack) (.after t')
            (furtherItems ts ++ .closeList :: ls) := by
          rw [(h.1.build_item stack (t :: items) _).2, build_tree t' h.1]
      _ = build stack (.after (.list ((t :: items).reverse ++ t' :: ts) .closed)) ls := by
          rw [build_furtherItems ts h.2]
          simp

/-- The further members of an object complete it. -/
theorem build_furtherMembers (ms : List (RawText × Tree)) (h : WholeMembers ms)
    (members : List (RawText × Tree)) (k : RawText) (t : Tree) (stack : List Frame)
    (ls : List Lexeme) :
    build (.object members k :: stack) (.after t) (furtherMembers ms ++ .closeObject :: ls) =
      build stack (.after (.object (((k, t) :: members).reverse ++ ms) .closed)) ls := by
  match ms with
  | [] => simp [furtherMembers, build, Due.turn, continueValue]
  | (k', t') :: ms =>
    unfold WholeMembers at h
    obtain ⟨hk, ht, hms⟩ := h
    calc build (.object members k :: stack) (.after t)
          (furtherMembers ((k', t') :: ms) ++ .closeObject :: ls)
        = build (.object ((k, t) :: members) k' :: stack) .value
            (t'.lexemes ++ (furtherMembers ms ++ .closeObject :: ls)) := by
          simp [furtherMembers, build, Due.turn, continueValue, startKey, hk]
      _ = build (.object ((k, t) :: members) k' :: stack) (.after t')
            (furtherMembers ms ++ .closeObject :: ls) := build_tree t' ht _ _
      _ = build stack (.after (.object (((k, t) :: members).reverse ++ (k', t') :: ms) .closed))
            ls := by
          rw [build_furtherMembers ms hms]
          simp

end

/-- The document of a text that writes a tree is that tree, with nothing after it. -/
theorem Tree.LaidOut.document {t : Tree} {text : String} (h : t.LaidOut text) :
    Document.ofText text = ⟨t, false⟩ := by
  have hlexemes : Lexeme.ofText text = t.lexemes := Lexeme.ofChars_of_laid h.2
  have hbuild := build_tree t h.1 [] []
  rw [List.append_nil] at hbuild
  rw [Document.ofText, hlexemes, hbuild]
  rfl

end GridPuzzle.Json
