import GridPuzzle.Level.Basic

/-!
# Walks

The reference for everything that plays a program: a walk takes steps in order, on the level alone.
A step that leaves the coordinate range or the bounds is not seen, a step against a wall is seen as
a bump, any other is a move. The walk ends with the first move onto the finish.
-/

namespace GridPuzzle

/-- What is seen of a step. -/
inductive Sight
  | moved (m : Move)
  | bumped (m : Move)
  deriving DecidableEq, Repr

namespace Level

/-- What is seen of one step from a cell, if anything. -/
def sight? (l : Level) (p : Position) (d : Direction) : Option Sight :=
  match Move.towards? p d with
  | none => none
  | some m =>
    if l.bounds.contains m.target then
      if m.target ∈ l.walls then some (.bumped m) else some (.moved m)
    else
      none

/-- What a walk comes to. -/
structure Walk where
  /-- Moves and bumps, in order. -/
  sights : List Sight
  /-- Where the walk ends. -/
  position : Position
  /-- Whether it has ended with a move onto the finish. -/
  arrived : Bool
  deriving DecidableEq, Repr

/-- See something first, and then a walk. -/
def Walk.cons (seen : Sight) (w : Walk) : Walk := { w with sights := seen :: w.sights }

/-- The walk from a cell in some directions. -/
def walk (l : Level) (p : Position) : List Direction → Walk
  | [] => ⟨[], p, false⟩
  | d :: ds =>
    match l.sight? p d with
    | none => l.walk p ds
    | some (.bumped m) => (l.walk p ds).cons (.bumped m)
    | some (.moved m) =>
      if m.target = l.finish then
        ⟨[.moved m], m.target, true⟩
      else
        (l.walk m.target ds).cons (.moved m)

section Steps

variable {l : Level} {p : Position} {d : Direction} {m : Move} (ds : List Direction)

theorem walk_cons_unseen (hd : l.sight? p d = none) : l.walk p (d :: ds) = l.walk p ds := by
  simp only [walk, hd]

theorem walk_cons_bumped (hd : l.sight? p d = some (.bumped m)) :
    l.walk p (d :: ds) = (l.walk p ds).cons (.bumped m) := by
  simp only [walk, hd]

theorem walk_cons_moved (hd : l.sight? p d = some (.moved m)) (hm : m.target ≠ l.finish) :
    l.walk p (d :: ds) = (l.walk m.target ds).cons (.moved m) := by
  simp only [walk, hd, if_neg hm]

theorem walk_cons_arrived (hd : l.sight? p d = some (.moved m)) (hm : m.target = l.finish) :
    l.walk p (d :: ds) = ⟨[.moved m], m.target, true⟩ := by
  simp only [walk, hd, if_pos hm]

end Steps

section Seen

variable {l : Level} {p : Position} {d : Direction} {m : Move}

/-- A step that is not seen leaves the coordinate range or the bounds. -/
theorem unseen_of_sight? (h : l.sight? p d = none) :
    Move.towards? p d = none ∨
      ∃ m, Move.towards? p d = some m ∧ l.bounds.contains m.target = false := by
  unfold sight? at h
  cases hm : Move.towards? p d with
  | none => exact .inl rfl
  | some m =>
    refine .inr ⟨m, rfl, ?_⟩
    cases hinside : l.bounds.contains m.target with
    | false => rfl
    | true =>
      simp only [hm, hinside, if_true] at h
      split at h <;> cases h

/-- A bump is a step towards a wall inside the bounds. -/
theorem bumped_of_sight? (h : l.sight? p d = some (.bumped m)) :
    Move.towards? p d = some m ∧ l.bounds.contains m.target = true ∧ m.target ∈ l.walls := by
  unfold sight? at h
  split at h
  · cases h
  · rename_i m' hm
    split at h
    · rename_i hinside
      split at h
      · rename_i hwall
        cases h
        exact ⟨hm, hinside, hwall⟩
      · cases h
    · cases h

/-- A move that is seen goes to a free cell. -/
theorem moved_of_sight? (h : l.sight? p d = some (.moved m)) :
    Move.towards? p d = some m ∧ l.bounds.contains m.target = true ∧ m.target ∉ l.walls := by
  unfold sight? at h
  split at h
  · cases h
  · rename_i m' hm
    split at h
    · rename_i hinside
      split at h
      · cases h
      · rename_i hfree
        cases h
        exact ⟨hm, hinside, hfree⟩
    · cases h

end Seen

end Level

end GridPuzzle
