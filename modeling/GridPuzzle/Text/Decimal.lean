/-!
# Decimal text of integers

The digits of a natural number are the shortest ones, without leading zeros; a negative integer has
one minus sign in front of them. The value of a digit string allows leading zeros. Main statement:
the value of a number's digits is the number.
-/

namespace GridPuzzle.Text

/-- The decimal digits of a natural number, most significant first. -/
def digits (n : Nat) : List Char := Nat.toDigits 10 n

/-- The number that a string of decimal digits denotes; the empty string denotes zero. -/
def digitsValue (ds : List Char) : Nat := Nat.ofDigitChars 10 ds 0

/-- Reading the digits of a number gives the number back. -/
theorem digitsValue_digits (n : Nat) : digitsValue (digits n) = n :=
  Nat.ofDigitChars_toDigits (by decide) (by decide)

/-- The decimal text of a natural number. -/
def natural (n : Nat) : String := String.ofList (digits n)

/-- The decimal text of an integer, with a minus sign when it is negative. -/
def integer : Int → String
  | .ofNat n => natural n
  | .negSucc n => "-" ++ natural (n + 1)

end GridPuzzle.Text
