import GridPuzzle.Json.Fault

/-!
# JSON numbers

A number is kept as its digits until somebody wants its value. Without point and exponent it is an
integer, as long as it fits the 64-bit words and is not a negative zero. Otherwise it is a
floating-point number: as many digits as fit a 64-bit word, rounded to a magnitude, are multiplied
or divided by a power of ten, rounded too.
-/

namespace GridPuzzle.Json

/-- A number as it is written. -/
structure Number where
  negative : Bool
  /-- The digits before the point. -/
  whole : List Char
  /-- The digits after the point, if there is one. -/
  fraction : Option (List Char)
  /-- The sign and the digits of the exponent, if there is one. -/
  exponent : Option (Bool × List Char)
  deriving DecidableEq, Repr

/-- The value of a number. -/
inductive NumberValue
  | integer (n : Int)
  | float (negative : Bool) (magnitude : Decimal.Binary64)
  deriving DecidableEq, Repr

namespace Number

open Decimal

/-- Append digits to a word as long as it does not overflow; the rest is left over. -/
def absorb (word : Nat) : List Char → Nat × List Char
  | [] => (word, [])
  | c :: cs =>
    let next := 10 * word + (c.toNat - 48)
    if next < UInt64.size then absorb next cs else (word, c :: cs)

/-- The greatest power of ten that has a magnitude. -/
def greatestPower : Nat := 308

/-- Divide a magnitude by a power of ten, in parts when the power has no magnitude; `greatest` is
the magnitude of the greatest power. -/
def scaleDown (greatest b : Binary64) (n : Nat) : Option Binary64 :=
  if n ≤ greatestPower then
    (Binary64.powerOfTen? n).bind b.div?
  else if b.mantissa = 0 then
    some b
  else
    match b.div? greatest with
    | some b => scaleDown greatest b (n - greatestPower)
    | none => none
  termination_by n
  decreasing_by
    have : 0 < greatestPower := by decide
    omega

/-- The magnitude of a word times a power of ten, if it is finite. -/
def magnitude? (word : Nat) (exponent : Int) : Option Binary64 :=
  (Binary64.ofQuotient? word 1).bind fun b =>
    if exponent < 0 then
      (Binary64.powerOfTen? greatestPower).bind fun greatest => scaleDown greatest b exponent.natAbs
    else if exponent ≤ greatestPower then
      (Binary64.powerOfTen? exponent.toNat).bind b.mul?
    else if word = 0 then
      some b
    else
      none

/-- The floating-point value of a number, if it is finite. -/
def float? (n : Number) : Option Binary64 :=
  let (word, beyond) := absorb 0 n.whole
  let fraction := n.fraction.getD []
  let (word, unused) := absorb word fraction
  let shift : Int := (beyond.length : Int) - ((fraction.length : Int) - unused.length)
  match n.exponent with
  | none => magnitude? word shift
  | some (down, ds) =>
    let size := Text.digitsValue ds
    if size < 1 <<< 31 then
      magnitude? word (if down then shift - size else shift + size)
    else if down || word = 0 then
      some Binary64.zero
    else
      none

/-- The integer that a number is, if it is one. -/
def integer? (n : Number) : Option Int :=
  if n.fraction.isNone && n.exponent.isNone then
    let size := Text.digitsValue n.whole
    if n.negative then
      if 0 < size ∧ size ≤ 1 <<< 63 then some (-(size : Int)) else none
    else
      if size < UInt64.size then some (size : Int) else none
  else
    none

/-- The value of a number. -/
def value (n : Number) : Except Fault NumberValue :=
  match n.integer? with
  | some i => .ok (.integer i)
  | none =>
    match n.float? with
    | some b => .ok (.float n.negative b)
    | none => .error .numberOutOfRange

end Number

end GridPuzzle.Json
