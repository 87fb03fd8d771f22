import GridPuzzle.Decimal.Binary64
import GridPuzzle.Text.Decimal

/-!
# Shortest decimals

The decimal of a magnitude has the fewest digits that read back as it, and is the nearest of those.
The reals that read back as a magnitude form an interval around it, whose ends belong to it when
the mantissa is even. For one digit, then two, and so on, the two neighbours on that decimal grid
are tried in exact arithmetic.
-/

namespace GridPuzzle.Decimal

/-- Some digits, read as a natural number, times a power of ten. -/
structure Scaled where
  digits : Nat
  exponent : Int
  deriving DecidableEq, Repr

/-- The exponent of the first digit of a positive quotient. -/
def leadingExponent (num den : Nat) : Int :=
  if num ≥ den then
    ((Text.digits (num / den)).length : Int) - 1
  else
    -((Text.digits ((den + num - 1) / num - 1)).length : Int)

/-- The neighbour of a magnitude on the grid of one decimal exponent that reads back as it. The
nearer of two is taken, and of two equally near the even one. -/
def gridPoint? (b : Binary64) (grid : Int) : Option Nat :=
  -- four times the mantissa, so that the ends of the interval are whole
  let value := 4 * b.mantissa
  let low := if b.mantissa = 1 <<< 52 ∧ b.exponent > Binary64.leastExponent then value - 1
    else value - 2
  let high := value + 2
  let shift := b.exponent - 2
  let unit := Nat.pow 10 grid.toNat <<< (-shift).toNat
  let scale := Nat.pow 10 (-grid).toNat <<< shift.toNat
  let closed := b.mantissa % 2 == 0
  let inside (d : Nat) : Bool :=
    if closed then low * scale ≤ d * unit && d * unit ≤ high * scale
    else low * scale < d * unit && d * unit < high * scale
  let d := value * scale / unit
  let below := value * scale - d * unit
  let above := (d + 1) * unit - value * scale
  match inside d, inside (d + 1) with
  | true, true =>
    some (if below < above || (below == above && d % 2 == 0) then d else d + 1)
  | true, false => some d
  | false, true => some (d + 1)
  | false, false => none

/-- The first grid with a hit, from the given one on downwards; seventeen digits always suffice. -/
def firstHit (b : Binary64) (grid : Int) : Nat → Scaled
  | 0 => ⟨(gridPoint? b grid).getD 0, grid⟩
  | more + 1 =>
    match gridPoint? b grid with
    | some d => ⟨d, grid⟩
    | none => firstHit b (grid - 1) more

/-- The shortest decimal of a magnitude. -/
def shortest (b : Binary64) : Scaled :=
  if b.mantissa = 0 then ⟨0, 0⟩ else firstHit b (leadingExponent b.num b.den) 16

/-- How decimals are written. -/
structure Style where
  /-- The least leading exponent that is written positionally. -/
  least : Int
  /-- The greatest leading exponent that is written positionally. -/
  greatest : Int
  deriving DecidableEq, Repr

/-- The text of a decimal; at least one digit stands on each side of a point. -/
def Scaled.text (style : Style) (d : Scaled) : String :=
  let ds := ((Text.digits d.digits).reverse.dropWhile (· == '0')).reverse
  let leading : Int := d.exponent + (Text.digits d.digits).length - 1
  match ds with
  | [] => "0.0"
  | first :: rest =>
    if style.least ≤ leading ∧ leading ≤ style.greatest then
      if leading < 0 then
        "0." ++ String.ofList (List.replicate ((-leading).toNat - 1) '0' ++ ds)
      else
        let whole := leading.toNat + 1
        let padded := ds ++ List.replicate (whole - ds.length) '0'
        let fraction := match padded.drop whole with
          | [] => ['0']
          | part => part
        String.ofList (padded.take whole ++ '.' :: fraction)
    else
      let fraction := match rest with
        | [] => []
        | part => '.' :: part
      let sign := if leading < 0 then '-' else '+'
      String.ofList (first :: fraction ++ 'e' :: sign :: Text.digits leading.natAbs)

end GridPuzzle.Decimal
