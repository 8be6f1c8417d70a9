import SystemCombination.Binary64.Basic
import SystemCombination.Rounding

/-! Arithmetic on binary64 numbers. Every operation takes its exact result, counted in the smallest
positive number, to the nearest number, of two as near the one with the even magnitude. An operand
that is no number is handed on; an operation without a result yields `undefined`. -/

namespace SystemCombination.Binary64

/-- The magnitude of the number nearest to `num / den` units, infinite past the finite numbers.
Each of the binary places that a size has too many adds one to the exponent. -/
def nearestMagnitude (num den : Nat) : Nat :=
  let excess := (num / den).log2 - 52
  min infiniteMagnitude (excess * hiddenBit + roundHalfEven num (den <<< excess))

/-- The number nearest to `num / den` units, negated or not. -/
def nearest (negative : Bool) (num den : Nat) : Binary64 :=
  ofMagnitude negative (nearestMagnitude num den)

def ofNat (n : Nat) : Binary64 := nearest false (n * unitsOfOne) 1

instance (n : Nat) : OfNat Binary64 n := ⟨ofNat n⟩

/-- The number nearest to `digits` times ten to the power `power`. -/
def ofDecimal (digits : Nat) (power : Int) : Binary64 :=
  if 0 ≤ power then nearest false (digits * Nat.pow 10 power.toNat * unitsOfOne) 1
  else nearest false (digits * unitsOfOne) (Nat.pow 10 power.natAbs)

/-- What an operation without a result yields. -/
def undefined : Binary64 := -nan

/-- What an operation makes of an operand that is no number: the operand, with the highest bit of
its fraction set. -/
def handedOn (value : Binary64) : Binary64 := ⟨value.bits ||| 0x8000000000000⟩

/-- The result of an operation with an operand that is no number; the first such operand
counts. -/
def unordered? (a b : Binary64) : Option Binary64 :=
  if a.isNaN then some a.handedOn else if b.isNaN then some b.handedOn else none

/-- The magnitude of the number nearest to `num` shifted by `shift` places. -/
def shiftedMagnitude (num shift : Nat) : Nat :=
  let excess := num.log2 + shift - 52
  let rounded :=
    if excess ≤ shift then num <<< (shift - excess) else roundHalfEven num (1 <<< (excess - shift))
  min infiniteMagnitude (excess * hiddenBit + rounded)

/-- The sum of finite numbers, counted in the smallest unit of the two. Those of the same size and
of opposite signs add up to `0`. -/
def sum (a b : Binary64) : Binary64 :=
  let shift := min a.exponent b.exponent
  let left := a.significand <<< (a.exponent - shift)
  let right := b.significand <<< (b.exponent - shift)
  if a.negative = b.negative then ofMagnitude a.negative (shiftedMagnitude (left + right) shift)
  else if right < left then ofMagnitude a.negative (shiftedMagnitude (left - right) shift)
  else if left < right then ofMagnitude b.negative (shiftedMagnitude (right - left) shift)
  else ofMagnitude false 0

def add (a b : Binary64) : Binary64 :=
  match unordered? a b with
  | some result => result
  | none =>
    if a.isInfinite then
      if b.isInfinite && a.negative != b.negative then undefined else a
    else if b.isInfinite then b
    else sum a b

def mul (a b : Binary64) : Binary64 :=
  match unordered? a b with
  | some result => result
  | none =>
    let negative := a.negative != b.negative
    if a.isInfinite || b.isInfinite then
      if a.magnitude = 0 || b.magnitude = 0 then undefined
      else ofMagnitude negative infiniteMagnitude
    else nearest negative (a.units * b.units) unitsOfOne

instance : Add Binary64 := ⟨add⟩

instance : Mul Binary64 := ⟨mul⟩

def divide (value : Binary64) (count : Nat) : Binary64 :=
  if value.isNaN then value.handedOn
  else if value.isInfinite then value
  else nearest value.negative value.units count

instance : HDiv Binary64 Nat Binary64 := ⟨divide⟩

/-- `base` to the power `n`, by squaring: the factors for the bits of `n`, lowest first, are
multiplied onto `product`. -/
def powerOnto (product base : Binary64) (n : Nat) : Binary64 :=
  let product := if n % 2 = 1 then product * base else product
  if n < 2 then product else powerOnto product (base * base) (n / 2)

def power (base : Binary64) (n : Nat) : Binary64 := powerOnto 1 base n

/-- The number itself when it is finite, the nearest finite number to an infinity, and zero for
what is no number. -/
def clamp (value : Binary64) : Binary64 :=
  if value.isNaN then 0
  else if value.isInfinite then ofMagnitude value.negative (infiniteMagnitude - 1)
  else value

end SystemCombination.Binary64
