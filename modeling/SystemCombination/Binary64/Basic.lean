/-! Binary64 numbers as words of 64 bits: a sign, then a magnitude of 11 bits of exponent and 52 of
fraction. Words that stand for no number are kept apart by all their bits. Numbers are compared by
value; `totalKey` also ranks what is no number, and `totalKey_inj` says that it tells all words
apart. -/

namespace SystemCombination

/-- A binary64 number, or what stands in its place where there is no number. -/
structure Binary64 where
  bits : UInt64
deriving DecidableEq, Repr

namespace Binary64

/-- The bit that negates a number. -/
@[noinline] def signBit : Nat := 0x8000000000000000

/-- The bit above the stored fraction of a number, which stands for itself in most numbers. -/
@[noinline] def hiddenBit : Nat := 0x10000000000000

/-- The magnitude of the infinities. Greater magnitudes are those of no number. -/
@[noinline] def infiniteMagnitude : Nat := 0x7FF0000000000000

def negative (value : Binary64) : Bool := 0x8000000000000000 ≤ value.bits

/-- The bits below the sign. Their order is that of the sizes of numbers. -/
def magnitude (value : Binary64) : Nat := (value.bits % 0x8000000000000000).toNat

theorem negative_eq (value : Binary64) : value.negative = decide (signBit ≤ value.bits.toNat) :=
  decide_eq_decide.mpr UInt64.le_iff_toNat_le

theorem magnitude_eq (value : Binary64) : value.magnitude = value.bits.toNat % signBit :=
  UInt64.toNat_mod ..

def isNaN (value : Binary64) : Bool := infiniteMagnitude < value.magnitude

def isInfinite (value : Binary64) : Bool := value.magnitude = infiniteMagnitude

def isFinite (value : Binary64) : Bool := value.magnitude < infiniteMagnitude

def ofMagnitude (negative : Bool) (magnitude : Nat) : Binary64 :=
  ⟨UInt64.ofNat (if negative then signBit + magnitude else magnitude)⟩

def infinity : Binary64 := ofMagnitude false infiniteMagnitude

/-- What a text for no number denotes. -/
def nan : Binary64 := ⟨0x7FF8000000000000⟩

instance : Neg Binary64 := ⟨fun value => ⟨value.bits ^^^ 0x8000000000000000⟩⟩

/-- How many places the significand of a finite number is shifted by. -/
def exponent (value : Binary64) : Nat := value.magnitude / hiddenBit - 1

/-- The fraction of a finite number below its hidden bit, which the smallest numbers lack. -/
def significand (value : Binary64) : Nat :=
  let fraction := value.magnitude % hiddenBit
  if value.magnitude < hiddenBit then fraction else fraction + hiddenBit

/-- The size of a finite number, as a multiple of the smallest positive number. -/
def units (value : Binary64) : Nat := value.significand <<< value.exponent

/-- A finite number, as a multiple of the smallest positive number. -/
def signedUnits (value : Binary64) : Int := if value.negative then -value.units else value.units

@[noinline] def unitsOfOne : Nat := 1 <<< 1074

/-! The order of numbers. -/

/-- A key with the order of numbers, the same for both zeros. -/
def key (value : Binary64) : Int := if value.negative then -value.magnitude else value.magnitude

instance : LT Binary64 := ⟨fun a b => a.isNaN = false ∧ b.isNaN = false ∧ a.key < b.key⟩

instance : LE Binary64 := ⟨fun a b => a.isNaN = false ∧ b.isNaN = false ∧ a.key ≤ b.key⟩

instance (a b : Binary64) : Decidable (a < b) :=
  inferInstanceAs (Decidable (a.isNaN = false ∧ b.isNaN = false ∧ a.key < b.key))

instance (a b : Binary64) : Decidable (a ≤ b) :=
  inferInstanceAs (Decidable (a.isNaN = false ∧ b.isNaN = false ∧ a.key ≤ b.key))

/-- The larger of two numbers. Any number is larger than what is none; of two that compare equal
it is the first. -/
def larger (a b : Binary64) : Binary64 := if a.isNaN then b else if a < b then b else a

def largest? : List Binary64 → Option Binary64
  | [] => none
  | value :: values => some (values.foldl larger value)

/-! The total order. -/

/-- The place of a word in the total order: with a sign, from the greatest magnitude down to
`-0`, then without a sign from `0` up. What is no number stands beyond the infinities. -/
def totalKey (value : Binary64) : Int :=
  if value.negative then -value.magnitude - 1 else value.magnitude

/-- `a` does not come after `b` when words are listed from the greatest down. -/
def fallsTo (a b : Binary64) : Bool := b.totalKey ≤ a.totalKey

/-- No two words share a place in the total order. -/
theorem totalKey_inj {a b : Binary64} : a.totalKey = b.totalKey ↔ a = b := by
  refine ⟨fun h => ?_, fun h => h ▸ rfl⟩
  have bound := a.bits.toNat_lt
  have bound' := b.bits.toNat_lt
  suffices a.bits = b.bits by cases a; cases b; simp_all
  apply UInt64.toNat_inj.mp
  have place (value : Binary64) : value.totalKey =
      if signBit ≤ value.bits.toNat then -((value.bits.toNat % signBit : Nat) : Int) - 1
      else ((value.bits.toNat % signBit : Nat) : Int) := by
    simp [totalKey, negative_eq, magnitude_eq]
  rw [place, place] at h
  by_cases negated : signBit ≤ a.bits.toNat <;> by_cases negated' : signBit ≤ b.bits.toNat <;>
    simp only [negated, negated', if_true, if_false] at h <;> simp only [signBit] at * <;> omega

theorem fallsTo_total (a b : Binary64) : (fallsTo a b || fallsTo b a) = true := by
  simp only [fallsTo, Bool.or_eq_true, decide_eq_true_eq]; omega

theorem fallsTo_trans {a b c : Binary64} (h : fallsTo a b = true) (h' : fallsTo b c = true) :
    fallsTo a c = true := by
  simp only [fallsTo, decide_eq_true_eq] at *; omega

end Binary64

end SystemCombination
