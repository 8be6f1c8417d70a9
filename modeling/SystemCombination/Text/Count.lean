/-! Whole numbers in text: an optional sign and ASCII digits, at least one, with a value in the
range of the type that is read. A value out of range is no number. -/

namespace SystemCombination.Text

/-- The value of ASCII digits read from the left, unless it exceeds `bound`. -/
def digitsValue? (bound : Nat) (digits : List Char) : Option Nat :=
  digits.foldlM (fun value digit =>
    let next := 10 * value + (digit.toNat - '0'.toNat)
    if next ≤ bound then some next else none) 0

/-- Digits alone, with a value of at most `bound`. -/
def digits? (bound : Nat) (cs : List Char) : Option Nat :=
  if cs.isEmpty || !cs.all Char.isDigit then none else digitsValue? bound cs

/-- A whole number from 0 to `bound`: digits, with or without a `+` in front. -/
def natural? (bound : Nat) : List Char → Option Nat
  | '+' :: cs => digits? bound cs
  | cs => digits? bound cs

/-- A whole number from `-(bound + 1)` to `bound`: digits, with or without a sign in front. -/
def integer? (bound : Nat) : List Char → Option Int
  | '-' :: cs => (digits? (bound + 1) cs).map fun value => -(value : Int)
  | cs => (natural? bound cs).map Int.ofNat

end SystemCombination.Text
