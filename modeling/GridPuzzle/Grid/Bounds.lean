import GridPuzzle.Grid.Position

/-!
# Axis ranges and rectangular bounds

A range holds both of its ends and is empty when they are inverted. Its length is computed in words
of 64 bits, which hold it also for the full range of a coordinate. The cells of a rectangle are run
through row by row from the top left corner, and they are numbered in that order, so that any first
part of them is had without the rest.
-/

namespace GridPuzzle

/-- An inclusive range along one axis. -/
structure AxisRange where
  min : Int32
  max : Int32
  deriving DecidableEq, Repr, Inhabited

namespace AxisRange

/-- Both ends belong to the range. -/
def contains (r : AxisRange) (c : Int32) : Bool :=
  r.min.toInt ≤ c.toInt && c.toInt ≤ r.max.toInt

/-- The length as a word: the ends are widened to 64 bits before they are subtracted. -/
def size (r : AxisRange) : UInt64 :=
  if r.max < r.min then 0 else (r.max.toInt64 - r.min.toInt64 + 1).toUInt64

/-- How many coordinates the range holds; none when its ends are inverted. -/
def length (r : AxisRange) : Nat := r.size.toNat

/-- Whether the range holds no coordinate. -/
def isEmpty (r : AxisRange) : Bool := r.length == 0

/-- The difference of the ends fits a signed word of 64 bits. -/
theorem toInt_difference (r : AxisRange) :
    (r.max.toInt64 - r.min.toInt64).toInt = r.max.toInt - r.min.toInt := by
  have hmin := r.min.le_toInt
  have hmin' := r.min.toInt_lt
  have hmax := r.max.le_toInt
  have hmax' := r.max.toInt_lt
  rw [Int64.toInt_sub, Int32.toInt_toInt64, Int32.toInt_toInt64]
  exact Int.bmod_eq_of_le (by omega) (by omega)

/-- So does the number of coordinates from one end to the other. -/
theorem toInt_difference_add_one (r : AxisRange) :
    (r.max.toInt64 - r.min.toInt64 + 1).toInt = r.max.toInt - r.min.toInt + 1 := by
  have hone : (1 : Int64).toInt = 1 := rfl
  have hmin := r.min.le_toInt
  have hmin' := r.min.toInt_lt
  have hmax := r.max.le_toInt
  have hmax' := r.max.toInt_lt
  rw [Int64.toInt_add, toInt_difference, hone]
  exact Int.bmod_eq_of_le (by omega) (by omega)

/-- The length is the exact number. -/
theorem length_eq (r : AxisRange) : r.length = (r.max.toInt - r.min.toInt + 1).toNat := by
  unfold length size
  split
  · rename_i hinverted
    have hlt : r.max.toInt < r.min.toInt := Int32.lt_iff_toInt_lt.mp hinverted
    have hnone : (r.max.toInt - r.min.toInt + 1).toNat = 0 := Int.toNat_of_nonpos (by omega)
    rw [hnone]
    rfl
  · rename_i hordered
    have hle : r.min.toInt ≤ r.max.toInt :=
      Int.not_lt.mp fun hlt => hordered (Int32.lt_iff_toInt_lt.mpr hlt)
    have hnonneg : 0 ≤ r.max.toInt64 - r.min.toInt64 + 1 := by
      rw [Int64.le_iff_toInt_le, toInt_difference_add_one, Int64.toInt_zero]
      omega
    rw [Int64.toNat_toUInt64_of_le hnonneg, ← Int64.toNat_toInt, toInt_difference_add_one]

/-- Below another coordinate there is a next one. -/
theorem toInt_add_one {c last : Int32} (h : c < last) : (c + 1).toInt = c.toInt + 1 := by
  have hone : (1 : Int32).toInt = 1 := rfl
  have hlt : c.toInt < last.toInt := Int32.lt_iff_toInt_lt.mp h
  have hc := c.le_toInt
  have hlast := last.toInt_lt
  rw [Int32.toInt_add, hone]
  exact Int.bmod_eq_of_le (by omega) (by omega)

/-- The coordinates from `c` up to the last one, which is not stepped past. -/
def upTo (last c : Int32) : List Int32 :=
  if c < last then c :: upTo last (c + 1) else if c = last then [c] else []
  termination_by (last.toInt - c.toInt).toNat
  decreasing_by
    rename_i h
    have hlt : c.toInt < last.toInt := Int32.lt_iff_toInt_lt.mp h
    have hnext := toInt_add_one h
    omega

/-- Every coordinate of the range, from its lower end to its upper one. -/
def coordinates (r : AxisRange) : List Int32 := upTo r.max r.min

/-- The coordinate at an offset from the lower end. -/
def coordinate (r : AxisRange) (offset : Nat) : Int32 := Int32.ofInt (r.min.toInt + offset)

/-- The written form with the names of the fields. -/
def labelled (r : AxisRange) : String :=
  "AxisRange \x7b min: " ++ Text.integer r.min.toInt ++ ", max: " ++ Text.integer r.max.toInt
    ++ " \x7d"

end AxisRange

/-- A rectangular playing field. -/
structure Bounds where
  x : AxisRange
  y : AxisRange
  deriving DecidableEq, Repr, Inhabited

namespace Bounds

/-- The rectangle between two opposite corners. -/
def ofCorners (minX minY maxX maxY : Int32) : Bounds := ⟨⟨minX, maxX⟩, ⟨minY, maxY⟩⟩

/-- A position lies inside when each coordinate lies in its range. -/
def contains (b : Bounds) (p : Position) : Bool := b.x.contains p.x && b.y.contains p.y

/-- A move stays inside when its target does; its source is not looked at. -/
def accepts (b : Bounds) (m : Move) : Bool := b.contains m.target

def width (b : Bounds) : Nat := b.x.length

def height (b : Bounds) : Nat := b.y.length

/-- The cell with a given number, counted row by row from the top left corner. -/
def cell (b : Bounds) (i : Nat) : Position :=
  ⟨b.x.coordinate (i % b.width), b.y.coordinate (i / b.width)⟩

/-- Every cell, row by row from the top left corner. -/
def cells (b : Bounds) : List Position :=
  b.y.coordinates.flatMap fun y => b.x.coordinates.map fun x => ⟨x, y⟩

/-- The first cells by their numbers, at most as many as there are. -/
def firstCells (b : Bounds) (n : Nat) : List Position :=
  (List.range (min n (b.width * b.height))).map b.cell

/-- The written form with the names of the fields. -/
def labelled (b : Bounds) : String :=
  "GridBoundary \x7b x: " ++ b.x.labelled ++ ", y: " ++ b.y.labelled ++ " \x7d"

end Bounds

end GridPuzzle
