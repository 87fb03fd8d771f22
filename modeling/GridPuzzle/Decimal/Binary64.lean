/-!
# Binary floating-point magnitudes

A magnitude is a mantissa below 2 ^ 53 times a power of two, with the exponents of the 64-bit
format. Every quotient of natural numbers is rounded to the nearest magnitude, ties to the even
mantissa; what would be infinite has no magnitude. Products and quotients of magnitudes are the
exact ones, rounded once.
-/

namespace GridPuzzle.Decimal

/-- The quotient rounded to the nearest natural number, ties to the even one. -/
def roundQuotient (num den : Nat) : Nat :=
  let q := num / den
  let twice := 2 * (num % den)
  if twice > den || (twice == den && q % 2 == 1) then q + 1 else q

/-- The magnitude `mantissa * 2 ^ exponent`. -/
structure Binary64 where
  mantissa : Nat
  exponent : Int
  deriving DecidableEq, Repr

namespace Binary64

/-- The least exponent; the subnormal magnitudes have it. -/
def leastExponent : Int := -1074

/-- The greatest exponent of a finite magnitude. -/
def greatestExponent : Int := 971

def zero : Binary64 := ⟨0, leastExponent⟩

/-- The exponent at which a positive quotient has a mantissa of 53 bits, or the least one. -/
def exponentOf (num den : Nat) : Int :=
  let guess : Int := (num.log2 : Int) - den.log2 - 52
  let fits := num <<< (-guess).toNat ≥ den <<< (guess.toNat + 52)
  max leastExponent (if fits then guess else guess - 1)

/-- The magnitude nearest to a quotient, if it is finite. -/
def ofQuotient? (num den : Nat) : Option Binary64 :=
  if num = 0 then
    some zero
  else
    let e := exponentOf num den
    let m := roundQuotient (num <<< (-e).toNat) (den <<< e.toNat)
    let r : Binary64 := if m = 1 <<< 53 then ⟨1 <<< 52, e + 1⟩ else ⟨m, e⟩
    if r.exponent > greatestExponent then none else some r

/-- The numerator of a magnitude as an exact quotient. -/
def num (b : Binary64) : Nat := b.mantissa <<< b.exponent.toNat

/-- The denominator of a magnitude as an exact quotient. -/
def den (b : Binary64) : Nat := 1 <<< (-b.exponent).toNat

/-- The rounded product, if it is finite. -/
def mul? (a b : Binary64) : Option Binary64 := ofQuotient? (a.num * b.num) (a.den * b.den)

/-- The rounded quotient by a positive magnitude, if it is finite. -/
def div? (a b : Binary64) : Option Binary64 := ofQuotient? (a.num * b.den) (a.den * b.num)

/-- The magnitude nearest to a power of ten, if it is finite. -/
def powerOfTen? (n : Nat) : Option Binary64 := ofQuotient? (Nat.pow 10 n) 1

end Binary64

end GridPuzzle.Decimal
