import SystemCombination.Binary64.Basic
import SystemCombination.Rounding

/-! Binary64 numbers with a fixed number of decimal places. The exact size of a finite number is
multiplied by a power of ten and rounded to a whole number, a half to the even neighbour. -/

namespace SystemCombination.Decimal

/-- The finite number times ten to the power `places`, rounded, without its sign. -/
def scaled (value : Binary64) (places : Nat) : Nat :=
  roundHalfEven (value.units * Nat.pow 10 places) Binary64.unitsOfOne

/-- The digits of a number, with zeros in front up to the given width. -/
def padded (width value : Nat) : String :=
  let digits := Nat.toDigits 10 value
  String.ofList (List.replicate (width - digits.length) '0' ++ digits)

/-- The number with the given count of decimal places; the sign of a zero is kept. -/
def fixed (places : Nat) (value : Binary64) : String :=
  if value.isNaN then "NaN"
  else
    let sign := if value.negative then "-" else ""
    if value.isInfinite then sign ++ "inf"
    else
      let units := scaled value places
      let one := Nat.pow 10 places
      sign ++ toString (units / one) ++ "." ++ padded places (units % one)

end SystemCombination.Decimal
