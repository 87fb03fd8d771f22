import GridPuzzle.Text.Decimal

/-!
# Positions, directions and moves

A position is a column `x`, growing to the right, and a row `y`, growing downwards, each a signed
word of 32 bits. A step in one of the four directions changes one coordinate by one and does not
exist where that coordinate would leave its word.
-/

namespace GridPuzzle

/-- A cell of the plane: column `x` grows to the right, row `y` grows downwards. -/
structure Position where
  x : Int32
  y : Int32
  deriving DecidableEq, Repr, Inhabited

/-- A proposed transition from one cell to another. -/
structure Move where
  source : Position
  target : Position
  deriving DecidableEq, Repr, Inhabited

/-- The four single steps. -/
inductive Direction
  | left
  | right
  | up
  | down
  deriving DecidableEq, Repr, Inhabited

namespace Direction

/-- Every direction, in the order in which keywords are tried. -/
def all : List Direction := [left, right, up, down]

/-- No direction is missing from `all`. -/
theorem mem_all (d : Direction) : d ∈ all := by cases d <;> decide

/-- The word for a direction in the text of a program. -/
def keyword : Direction → String
  | left => "left"
  | right => "right"
  | up => "up"
  | down => "down"

/-- The name of a direction as a constructor, with a capital letter. -/
def name : Direction → String
  | left => "Left"
  | right => "Right"
  | up => "Up"
  | down => "Down"

/-- The change of column and row; up leads towards row zero. -/
def delta : Direction → Int × Int
  | left => (-1, 0)
  | right => (1, 0)
  | up => (0, -1)
  | down => (0, 1)

/-- The direction that takes a step back. -/
def opposite : Direction → Direction
  | left => right
  | right => left
  | up => down
  | down => up

/-- The direction with exactly this keyword. -/
def ofKeyword? (word : String) : Option Direction := all.find? fun d => d.keyword == word

/-- Every direction is found by its own keyword. -/
theorem ofKeyword?_keyword (d : Direction) : ofKeyword? d.keyword = some d := by
  cases d <;> decide

end Direction

namespace Position

/-- The written form `(x, y)`. -/
def text (p : Position) : String :=
  "(" ++ Text.integer p.x.toInt ++ ", " ++ Text.integer p.y.toInt ++ ")"

/-- The written form with the names of the fields. -/
def labelled (p : Position) : String :=
  "Position \x7b x: " ++ Text.integer p.x.toInt ++ ", y: " ++ Text.integer p.y.toInt ++ " \x7d"

end Position

/-- The sum of a coordinate and an offset, if it is a coordinate. -/
def shift? (c : Int32) (offset : Int) : Option Int32 :=
  if Int32.minValue.toInt ≤ c.toInt + offset ∧ c.toInt + offset ≤ Int32.maxValue.toInt then
    some (Int32.ofInt (c.toInt + offset))
  else
    none

/-- A shifted coordinate is the exact sum. -/
theorem toInt_of_shift? {c e : Int32} {offset : Int} (h : shift? c offset = some e) :
    e.toInt = c.toInt + offset := by
  unfold shift? at h
  split at h
  · rename_i hr
    cases h
    exact Int32.toInt_ofInt_of_le hr.1 (Int.lt_add_one_of_le hr.2)
  · cases h

namespace Move

/-- The move that applies one transformation to each coordinate of its source. -/
def ofTransforms (source : Position) (fx fy : Int32 → Int32) : Move :=
  ⟨source, ⟨fx source.x, fy source.y⟩⟩

/-- One step in a direction, if it stays in the coordinate range. -/
def towards? (source : Position) (d : Direction) : Option Move :=
  match shift? source.x d.delta.1, shift? source.y d.delta.2 with
  | some x, some y => some ⟨source, ⟨x, y⟩⟩
  | _, _ => none

/-- A step starts where it was asked for. -/
theorem source_of_towards? {p : Position} {d : Direction} {m : Move} (h : towards? p d = some m) :
    m.source = p := by
  unfold towards? at h
  split at h
  · cases h
    rfl
  · cases h

/-- The written form `source -> target`. -/
def text (m : Move) : String := m.source.text ++ " -> " ++ m.target.text

/-- The written form with the names of the fields. -/
def labelled (m : Move) : String :=
  "Move \x7b from: " ++ m.source.labelled ++ ", to: " ++ m.target.labelled ++ " \x7d"

end Move

end GridPuzzle
