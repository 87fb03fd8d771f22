import GridPuzzle.Grid.Bounds
import Mathlib.Data.Set.Card

/-!
# The cells of a rectangle

How large a rectangle is, is told in four ways: by the comparisons that accept a position, by the
lengths of its sides, by the test for an empty side, and by the run through its cells. The four
agree for all ends, inverted ones and those at the limits of a coordinate included, and no word is
left on the way. The run meets every accepted position once, row by row, and the numbers of the
cells count along it.
-/

namespace GridPuzzle

namespace AxisRange

variable {r : AxisRange} {c : Int32}

theorem contains_iff_toInt :
    r.contains c = true ↔ r.min.toInt ≤ c.toInt ∧ c.toInt ≤ r.max.toInt := by
  unfold contains
  rw [Bool.and_eq_true, decide_eq_true_iff, decide_eq_true_iff]

/-- An offset below the length leads to a coordinate of the range. -/
theorem toInt_coordinate {i : Nat} (hi : i < r.length) :
    (r.coordinate i).toInt = r.min.toInt + i := by
  have hmin := r.min.le_toInt
  have hmax := r.max.toInt_lt
  rw [length_eq] at hi
  exact Int32.toInt_ofInt_of_le (by omega) (by omega)

/-- The run from a coordinate on goes up by one at a time, as often as there is a next one. -/
theorem upTo_eq (last c : Int32) :
    upTo last c = (List.range (last.toInt - c.toInt + 1).toNat).map fun i : Nat =>
      Int32.ofInt (c.toInt + i) := by
  induction c using upTo.induct last with
  | case1 c hlt ih =>
    have hint : c.toInt < last.toInt := Int32.lt_iff_toInt_lt.mp hlt
    have hnext : (c + 1).toInt = c.toInt + 1 := toInt_add_one hlt
    have hcount : (last.toInt - c.toInt + 1).toNat =
        (last.toInt - (c + 1).toInt + 1).toNat + 1 := by omega
    have hfirst : Int32.ofInt (c.toInt + (0 : Nat)) = c := by simp
    rw [upTo, if_pos hlt, ih, hcount, List.range_succ_eq_map, List.map_cons, hfirst, List.map_map]
    refine congrArg (c :: ·) (List.map_congr_left fun i _ => ?_)
    have hshift : (c + 1).toInt + i = c.toInt + ((i + 1 : Nat) : Int) := by omega
    rw [Function.comp_apply, hshift]
  | case2 hnot =>
    rw [upTo, if_neg hnot, if_pos rfl]
    simp
  | case3 c hnot hne =>
    have hle : last.toInt ≤ c.toInt :=
      Int.not_lt.mp fun hlt => hnot (Int32.lt_iff_toInt_lt.mpr hlt)
    have hapart : c.toInt ≠ last.toInt := fun hsame => hne (Int32.toInt_inj.mp hsame)
    have hnone : (last.toInt - c.toInt + 1).toNat = 0 := by omega
    rw [upTo, if_neg hnot, if_neg hne, hnone]
    rfl

/-- The run through a range meets the coordinates at the offsets below its length. -/
theorem coordinates_eq (r : AxisRange) :
    r.coordinates = (List.range r.length).map r.coordinate := by
  unfold coordinates
  rw [upTo_eq, length_eq]
  rfl

theorem length_coordinates (r : AxisRange) : r.coordinates.length = r.length := by
  rw [coordinates_eq, List.length_map, List.length_range]

/-- The run through a range meets what the range accepts. -/
theorem mem_coordinates_iff : c ∈ r.coordinates ↔ r.contains c = true := by
  rw [coordinates_eq, contains_iff_toInt, List.mem_map]
  constructor
  · rintro ⟨i, hi, rfl⟩
    have hlt : i < r.length := List.mem_range.mp hi
    have hvalue : (r.coordinate i).toInt = r.min.toInt + i := toInt_coordinate hlt
    rw [length_eq] at hlt
    omega
  · rintro ⟨hmin, hmax⟩
    refine ⟨(c.toInt - r.min.toInt).toNat, List.mem_range.mpr ?_, ?_⟩
    · rw [length_eq]
      omega
    · have hoffset : r.min.toInt + (c.toInt - r.min.toInt).toNat = c.toInt := by omega
      unfold coordinate
      rw [hoffset, Int32.ofInt_toInt]

/-- The run through a range goes upwards. -/
theorem coordinates_pairwise (r : AxisRange) : r.coordinates.Pairwise (· < ·) := by
  rw [coordinates_eq, List.pairwise_map]
  refine List.Pairwise.imp_of_mem (fun {i j} hi hj hlt => ?_) List.pairwise_lt_range
  rw [Int32.lt_iff_toInt_lt, toInt_coordinate (List.mem_range.mp hi),
    toInt_coordinate (List.mem_range.mp hj)]
  omega

theorem coordinates_nodup (r : AxisRange) : r.coordinates.Nodup :=
  r.coordinates_pairwise.imp fun hlt => Int32.ne_of_lt hlt

/-- The length is the number of accepted coordinates. -/
theorem encard_contains (r : AxisRange) : {c | r.contains c = true}.encard = r.length := by
  have hset : {c | r.contains c = true} = (r.coordinates.toFinset : Set Int32) := by
    ext c
    simp [mem_coordinates_iff]
  rw [hset, Set.encard_coe_eq_coe_finsetCard, List.toFinset_card_of_nodup r.coordinates_nodup,
    length_coordinates]

/-- A range is empty when it accepts nothing. -/
theorem isEmpty_iff_rejects : r.isEmpty = true ↔ ∀ c, r.contains c = false := by
  unfold isEmpty
  rw [beq_iff_eq, ← length_coordinates, List.length_eq_zero_iff, List.eq_nil_iff_forall_not_mem]
  refine forall_congr' fun c => ?_
  rw [mem_coordinates_iff, Bool.not_eq_true]

/-- A number measures a range: the range accepts so many coordinates, and the words in which the
number is computed hold it and all that comes before it. -/
structure Measures (r : AxisRange) (n : Nat) : Prop where
  /-- So many coordinates are accepted. -/
  accepted : {c | r.contains c = true}.encard = n
  /-- The difference of the ends is exact in words of 64 bits. -/
  difference : (r.max.toInt64 - r.min.toInt64).toInt = r.max.toInt - r.min.toInt
  /-- So is the sum with one. -/
  sum : (r.max.toInt64 - r.min.toInt64 + 1).toInt = r.max.toInt - r.min.toInt + 1
  /-- Unless the ends are inverted, that sum is the number, which an unsigned word holds. -/
  ordered : r.min ≤ r.max → r.size.toNat = n ∧ (n : Int) = r.max.toInt - r.min.toInt + 1
  inverted : r.max < r.min → n = 0
  empty : r.isEmpty = true ↔ ∀ c, r.contains c = false

/-- The length measures a range. -/
theorem measures_length (r : AxisRange) : r.Measures r.length where
  accepted := r.encard_contains
  difference := r.toInt_difference
  sum := r.toInt_difference_add_one
  ordered hordered := by
    rw [Int32.le_iff_toInt_le] at hordered
    have hlength := r.length_eq
    exact ⟨rfl, by omega⟩
  inverted hinverted := by
    rw [Int32.lt_iff_toInt_lt] at hinverted
    have hlength := r.length_eq
    omega
  empty := isEmpty_iff_rejects

end AxisRange

/-- One position comes before another, row by row and from the left. -/
def Position.Before (p q : Position) : Prop := p.y < q.y ∨ p.y = q.y ∧ p.x < q.x

theorem Position.Before.ne {p q : Position} (h : p.Before q) : p ≠ q := by
  rintro rfl
  rcases h with hy | ⟨-, hx⟩
  · exact Int32.lt_irrefl hy
  · exact Int32.lt_irrefl hx

namespace Bounds

/-- The run through a rectangle meets the positions that it accepts. -/
theorem mem_cells_iff {b : Bounds} {p : Position} : p ∈ b.cells ↔ b.contains p = true := by
  unfold cells contains
  rw [Bool.and_eq_true, ← AxisRange.mem_coordinates_iff, ← AxisRange.mem_coordinates_iff,
    List.mem_flatMap]
  constructor
  · rintro ⟨y, hy, hp⟩
    obtain ⟨x, hx, rfl⟩ := List.mem_map.mp hp
    exact ⟨hx, hy⟩
  · rintro ⟨hx, hy⟩
    exact ⟨p.y, hy, List.mem_map.mpr ⟨p.x, hx, rfl⟩⟩

/-- The run goes row by row, and from the left in each row. -/
theorem cells_pairwise (b : Bounds) : b.cells.Pairwise Position.Before := by
  unfold cells
  rw [List.pairwise_flatMap]
  constructor
  · intro y _
    rw [List.pairwise_map]
    exact b.x.coordinates_pairwise.imp fun hlt => .inr ⟨rfl, hlt⟩
  · refine b.y.coordinates_pairwise.imp fun {y y'} hlt p hp q hq => ?_
    obtain ⟨x, -, rfl⟩ := List.mem_map.mp hp
    obtain ⟨x', -, rfl⟩ := List.mem_map.mp hq
    exact .inl hlt

/-- Rows of equal width, one after the other, are numbered by quotient and remainder. -/
private theorem flatMap_rows {α : Type} (f : Nat → Nat → α) (width height : Nat) :
    (List.range height).flatMap (fun j => (List.range width).map (f j)) =
      (List.range (width * height)).map fun i => f (i / width) (i % width) := by
  induction height with
  | zero => rfl
  | succ height ih =>
    have hrow : (List.range width).map (f height) = (List.range width).map fun i =>
        f ((width * height + i) / width) ((width * height + i) % width) := by
      refine List.map_congr_left fun i hi => ?_
      have hlt : i < width := List.mem_range.mp hi
      have hpos : 0 < width := Nat.zero_lt_of_lt hlt
      rw [Nat.mul_add_div hpos, Nat.div_eq_of_lt hlt, Nat.add_zero, Nat.mul_add_mod,
        Nat.mod_eq_of_lt hlt]
    rw [List.range_succ, List.flatMap_append, ih, List.flatMap_singleton, Nat.mul_succ,
      List.range_add, List.map_append, List.map_map, hrow]
    rfl

/-- The run meets the cells in the order of their numbers. -/
theorem cells_eq (b : Bounds) : b.cells = (List.range (b.width * b.height)).map b.cell := by
  unfold cells
  rw [AxisRange.coordinates_eq, AxisRange.coordinates_eq, List.flatMap_map]
  simp only [List.map_map, Function.comp_def]
  exact flatMap_rows (fun j i => (⟨b.x.coordinate i, b.y.coordinate j⟩ : Position)) _ _

theorem length_cells (b : Bounds) : b.cells.length = b.width * b.height := by
  rw [cells_eq, List.length_map, List.length_range]

/-- The first cells are the beginning of all cells. -/
theorem take_cells (b : Bounds) (n : Nat) : b.cells.take n = b.firstCells n := by
  rw [cells_eq, ← List.map_take, List.take_range]
  rfl

/-- The run through a rectangle meets exactly the accepted positions, each once and in order, and
there are as many as the width times the height. -/
theorem cells_fill_the_rectangle (b : Bounds) :
    (∀ p, b.cells.count p = if b.contains p then 1 else 0) ∧ b.cells.Pairwise Position.Before ∧
      (∀ n, b.cells.take n = b.firstCells n) ∧ b.cells.length = b.width * b.height ∧
        b.x.Measures b.width ∧ b.y.Measures b.height := by
  have hnodup : b.cells.Nodup := b.cells_pairwise.imp Position.Before.ne
  refine ⟨fun p => ?_, b.cells_pairwise, b.take_cells, b.length_cells, b.x.measures_length,
    b.y.measures_length⟩
  split
  · rename_i hp
    exact List.count_eq_one_of_mem hnodup (mem_cells_iff.mpr hp)
  · rename_i hp
    exact List.count_eq_zero_of_not_mem fun hmem => hp (mem_cells_iff.mp hmem)

/-- The last cells that there are do not lead past the coordinate range. -/
example : firstCells (ofCorners 2147483646 2147483647 2147483647 2147483647) 9 =
    [⟨2147483646, 2147483647⟩, ⟨2147483647, 2147483647⟩] := by
  decide

end Bounds

end GridPuzzle
