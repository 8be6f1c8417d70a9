import SystemCombination.Binary64.Arithmetic

/-! Decimal numerals. A number in text is a sign, then `inf`, `infinity` or `nan` in any case, or
digits with an optional point and an optional exponent; at least one digit stands before or after
the point, and at least one in the exponent. `number?` gives the binary64 number nearest to it. -/

namespace SystemCombination.Decimal

/-- A numeral without its sign: the digits before and after the point, and the power of ten. -/
structure Numeral where
  whole : List Char
  fraction : List Char
  exponent : Int

/-- No exponent is read past a size of at least this. -/
def exponentLimit : Nat := 0x10000

/-- The size of an exponent, read from the left; digits that follow a size past the limit are
passed over. -/
def exponentSize (digits : List Char) : Nat :=
  digits.foldl (fun size digit =>
    if size < exponentLimit then 10 * size + (digit.toNat - '0'.toNat) else size) 0

/-- The exponent that stands after the digits; nothing at all is exponent 0. -/
def exponent? : List Char → Option Int
  | [] => some 0
  | mark :: cs =>
    if mark ≠ 'e' ∧ mark ≠ 'E' then none
    else
      let (negative, digits) := match cs with
        | '-' :: digits => (true, digits)
        | '+' :: digits => (false, digits)
        | digits => (false, digits)
      if digits.isEmpty || !digits.all Char.isDigit then none
      else
        let size := exponentSize digits
        some (if negative then -(size : Int) else size)

namespace Numeral

def read? (cs : List Char) : Option Numeral :=
  let whole := cs.takeWhile Char.isDigit
  let afterWhole := cs.dropWhile Char.isDigit
  let (fraction, rest) := match afterWhole with
    | '.' :: cs => (cs.takeWhile Char.isDigit, cs.dropWhile Char.isDigit)
    | cs => ([], cs)
  if whole.isEmpty && fraction.isEmpty then none
  else (exponent? rest).map fun exponent => ⟨whole, fraction, exponent⟩

/-- Numbers from ten to this power on round to infinity, and so do their opposites. -/
def largestPower : Int := 310

/-- Numbers below ten to this power round to zero. -/
def smallestPower : Int := -330

/-- How many digits, from the first that is not zero, settle where a numeral is rounded to: no
binary64 number has more, nor has the middle between two neighbours. -/
def decisiveDigits : Nat := 800

/-- The decisive digits, with a 1 behind them for further digits that are not all zero. -/
def decisive (digits : List Char) : List Char :=
  let kept := digits.take decisiveDigits
  if (digits.drop decisiveDigits).all (· == '0') then kept else kept ++ ['1']

/-- The binary64 number nearest to the numeral. The numeral is below ten to the power `size` and,
if it is not zero, at least a tenth of that, which settles the numerals far out of range. -/
def nearest (n : Numeral) : Binary64 :=
  let digits := (n.whole ++ n.fraction).dropWhile (· == '0')
  let size := n.exponent - n.fraction.length + digits.length
  if digits.isEmpty then 0
  else if largestPower < size then .infinity
  else if size < smallestPower then 0
  else
    let kept := decisive digits
    .ofDecimal (Nat.ofDigitChars 10 kept 0) (size - kept.length)

end Numeral

def magnitude? (cs : List Char) : Option Binary64 :=
  let lower := cs.map Char.toLower
  if lower = "inf".toList ∨ lower = "infinity".toList then some .infinity
  else if lower = "nan".toList then some .nan
  else (Numeral.read? cs).map Numeral.nearest

def number? : List Char → Option Binary64
  | '-' :: cs => (magnitude? cs).map fun value => -value
  | '+' :: cs => magnitude? cs
  | cs => magnitude? cs

/-- The number that a text denotes, if it denotes a finite one. -/
def finite? (cs : List Char) : Option Binary64 :=
  (number? cs).filter fun value => value.isFinite

end SystemCombination.Decimal
