import GridPuzzle.Grid.Position
import Mathlib.Data.List.Basic

/-!
# Paths

A path is a list of cells, each a single step from the one before. Steps change one coordinate by
one and never leave the coordinate range, so the opposite step exists wherever a step has led, and a
path read backwards is the path of the opposite steps in reverse order.
-/

namespace GridPuzzle

/-- A shifted coordinate is the exact sum, wherever that is a coordinate. -/
theorem shift?_eq_some_iff {c e : Int32} {offset : Int} :
    shift? c offset = some e ↔ e.toInt = c.toInt + offset := by
  constructor
  · exact toInt_of_shift?
  · intro hsum
    have hlow : Int32.minValue.toInt ≤ c.toInt + offset := hsum ▸ e.minValue_le_toInt
    have hhigh : c.toInt + offset ≤ Int32.maxValue.toInt := hsum ▸ e.toInt_le
    unfold shift?
    rw [if_pos ⟨hlow, hhigh⟩, ← hsum, Int32.ofInt_toInt]

/-- A step leads to the cell that lies in its direction. -/
theorem Move.towards?_eq_some_iff {p : Position} {d : Direction} {m : Move} :
    Move.towards? p d = some m ↔ m.source = p ∧ m.target.x.toInt = p.x.toInt + d.delta.1 ∧
      m.target.y.toInt = p.y.toInt + d.delta.2 := by
  rw [← shift?_eq_some_iff, ← shift?_eq_some_iff]
  unfold Move.towards?
  constructor
  · intro h
    split at h
    · rename_i x y hx hy
      cases h
      exact ⟨rfl, hx, hy⟩
    · cases h
  · rintro ⟨rfl, hx, hy⟩
    rw [hx, hy]

/-- The opposite step undoes a step. -/
theorem Direction.delta_opposite (d : Direction) :
    d.opposite.delta.1 = -d.delta.1 ∧ d.opposite.delta.2 = -d.delta.2 := by
  cases d <;> decide

/-- Where a step has led, the opposite step exists and leads back. -/
theorem Move.towards?_opposite {p : Position} {d : Direction} {m : Move}
    (hm : Move.towards? p d = some m) :
    Move.towards? m.target d.opposite = some ⟨m.target, p⟩ := by
  obtain ⟨-, hx, hy⟩ := Move.towards?_eq_some_iff.mp hm
  obtain ⟨hdx, hdy⟩ := d.delta_opposite
  exact Move.towards?_eq_some_iff.mpr ⟨rfl, by dsimp only; omega, by dsimp only; omega⟩

/-- The cells on the way of single steps, the first and the last one included. -/
inductive Path : List Direction → List Position → Prop
  | here (p : Position) : Path [] [p]
  | onward {d : Direction} {ds : List Direction} {p : Position} {m : Move} {ps : List Position}
      (hm : Move.towards? p d = some m) (hrest : Path ds (m.target :: ps)) :
      Path (d :: ds) (p :: m.target :: ps)

namespace Path

/-- A path may go one step further. -/
theorem snoc {ds : List Direction} {d : Direction} {ps : List Position} {q : Position} {m : Move}
    (h : Path ds (ps ++ [q])) (hm : Move.towards? q d = some m) :
    Path (ds ++ [d]) (ps ++ [q, m.target]) := by
  induction ps generalizing ds with
  | nil =>
    cases h
    exact .onward hm (.here m.target)
  | cons p ps ih =>
    generalize hcells : p :: ps ++ [q] = cells at h
    cases h with
    | here =>
      have hlength := congrArg List.length hcells
      simp at hlength
    | onward hm' hrest =>
      obtain ⟨rfl, htail⟩ := List.cons.inj hcells
      rw [← htail] at hrest
      have hlonger := ih hrest
      cases ps with
      | nil =>
        obtain ⟨rfl, rfl⟩ := List.cons.inj htail
        exact .onward hm' hlonger
      | cons p' ps =>
        obtain ⟨rfl, -⟩ := List.cons.inj htail
        exact .onward hm' hlonger

/-- A path is walked back by the opposite steps in reverse order. -/
theorem reverse {ds : List Direction} {ps : List Position} (h : Path ds ps) :
    Path (ds.map Direction.opposite).reverse ps.reverse := by
  induction h with
  | here p => exact .here p
  | @onward d ds p m ps hm _ ih =>
    have hback : Move.towards? m.target d.opposite = some ⟨m.target, p⟩ :=
      Move.towards?_opposite hm
    rw [List.reverse_cons] at ih
    rw [List.map_cons, List.reverse_cons, List.reverse_cons, List.reverse_cons, List.append_assoc]
    exact ih.snoc hback

end Path

end GridPuzzle
