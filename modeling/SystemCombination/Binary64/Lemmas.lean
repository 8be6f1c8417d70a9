import SystemCombination.Binary64.Arithmetic

/-! What rounding to binary64 numbers keeps. `nearestMagnitude_units` says that it changes no
finite number, and `sum_eq` that a sum is the exact sum, rounded. -/

namespace SystemCombination.Binary64

theorem log2_shiftLeft {n : Nat} (h : n ≠ 0) (k : Nat) : (n <<< k).log2 = n.log2 + k := by
  induction k with
  | zero => rfl
  | succ k ih =>
    have ne : n <<< k ≠ 0 := by
      rw [Nat.shiftLeft_eq]
      exact Nat.mul_ne_zero h (Nat.ne_of_gt (Nat.two_pow_pos k))
    rw [Nat.shiftLeft_succ, Nat.log2_two_mul ne, ih, Nat.add_assoc]

/-- Rounding changes no finite number. -/
theorem nearestMagnitude_units {value : Binary64} (h : value.isFinite = true) :
    nearestMagnitude value.units 1 = value.magnitude := by
  have finite : value.magnitude < infiniteMagnitude := by simpa [isFinite] using h
  have hidden : hiddenBit = 0x10000000000000 := rfl
  simp only [nearestMagnitude, Nat.div_one, units]
  by_cases small : value.magnitude < hiddenBit
  · have none : value.exponent = 0 := by simp [exponent, Nat.div_eq_of_lt small]
    have all : value.significand = value.magnitude := by
      simp [significand, small, Nat.mod_eq_of_lt small]
    rw [none, all, Nat.shiftLeft_zero]
    have short : value.magnitude.log2 - 52 = 0 := by
      by_cases zero : value.magnitude = 0
      · simp [zero]
      · have := (Nat.log2_lt (k := 53) zero).mpr (by omega)
        omega
    rw [short, Nat.zero_mul, Nat.zero_add]
    have := roundHalfEven_shiftLeft value.magnitude 0
    rw [Nat.shiftLeft_zero] at this
    omega
  · have sig : value.significand = value.magnitude % hiddenBit + hiddenBit := by
      simp [significand, small]
    have below := Nat.mod_lt value.magnitude (show 0 < hiddenBit by decide)
    have ne : value.significand ≠ 0 := by omega
    have places : value.significand.log2 = 52 := by
      rw [Nat.log2_eq_iff ne]; omega
    rw [log2_shiftLeft ne, places, Nat.add_sub_cancel_left, roundHalfEven_shiftLeft, sig]
    simp only [exponent, hidden, infiniteMagnitude] at *
    omega

/-- Shifting the places of a number is the same as counting more units. -/
theorem shiftedMagnitude_eq {num : Nat} (h : num ≠ 0) (shift : Nat) :
    shiftedMagnitude num shift = nearestMagnitude (num <<< shift) 1 := by
  simp only [shiftedMagnitude, nearestMagnitude, Nat.div_one, log2_shiftLeft h]
  generalize num.log2 + shift - 52 = excess
  congr 2
  split
  · next below =>
    obtain ⟨rest, rfl⟩ := Nat.exists_eq_add_of_le below
    rw [Nat.add_sub_cancel_left, Nat.add_comm, Nat.shiftLeft_add, roundHalfEven_shiftLeft]
  · next above =>
    obtain ⟨rest, rfl⟩ := Nat.exists_eq_add_of_le (Nat.le_of_not_le above)
    rw [Nat.add_sub_cancel_left, Nat.add_comm, Nat.shiftLeft_add, roundHalfEven_shift]

/-- The magnitude of a count of units with shifted places is that of the count. -/
theorem nearest_shiftLeft (negative : Bool) {num shift : Nat} (h : num = 0 → shift = 0) :
    nearest negative (num <<< shift) 1 = ofMagnitude negative (shiftedMagnitude num shift) := by
  by_cases zero : num = 0
  · rw [zero, h zero]
    rfl
  · rw [nearest, shiftedMagnitude_eq zero]

theorem exponent_of_significand_eq_zero {value : Binary64} (h : value.significand = 0) :
    value.exponent = 0 := by
  have hidden : hiddenBit = 0x10000000000000 := rfl
  simp only [significand] at h
  split at h
  · next small => simp [exponent, Nat.div_eq_of_lt small]
  · omega

/-- The sum is the exact sum, rounded. -/
theorem sum_eq (a b : Binary64) :
    sum a b =
      let total := a.signedUnits + b.signedUnits
      let negative := if total = 0 then a.negative && b.negative else decide (total < 0)
      nearest negative total.natAbs 1 := by
  simp only [sum]
  generalize place : min a.exponent b.exponent = shift
  generalize inA : a.significand <<< (a.exponent - shift) = left
  generalize inB : b.significand <<< (b.exponent - shift) = right
  have sizeA : a.units = left <<< shift := by
    rw [← inA, ← Nat.shiftLeft_add, Nat.sub_add_cancel (by omega), units]
  have sizeB : b.units = right <<< shift := by
    rw [← inB, ← Nat.shiftLeft_add, Nat.sub_add_cancel (by omega), units]
  have none : left + right = 0 → shift = 0 := by
    intro zero
    have zeroA : left = 0 := by omega
    rw [zeroA, Nat.shiftLeft_eq] at inA
    have := exponent_of_significand_eq_zero
      ((Nat.mul_eq_zero.mp inA).resolve_right (Nat.ne_of_gt (Nat.two_pow_pos _)))
    omega
  have unit := Nat.two_pow_pos shift
  have joined : (left + right) <<< shift = left <<< shift + right <<< shift := by
    simp only [Nat.shiftLeft_eq, Nat.add_mul]
  have less (m n : Nat) : (m - n) <<< shift = m <<< shift - n <<< shift := by
    simp only [Nat.shiftLeft_eq, Nat.sub_mul]
  have grows (m n : Nat) : m < n ↔ m <<< shift < n <<< shift := by
    simp only [Nat.shiftLeft_eq, Nat.mul_lt_mul_right unit]
  have same (negative : Bool) : ofMagnitude negative (shiftedMagnitude (left + right) shift) =
      nearest negative (left <<< shift + right <<< shift) 1 := by
    rw [← joined, nearest_shiftLeft _ none]
  have onlyLeft (h : right < left) (negative : Bool) :
      ofMagnitude negative (shiftedMagnitude (left - right) shift) =
        nearest negative (left <<< shift - right <<< shift) 1 := by
    rw [← less, nearest_shiftLeft _ (by omega)]
  have onlyRight (h : left < right) (negative : Bool) :
      ofMagnitude negative (shiftedMagnitude (right - left) shift) =
        nearest negative (right <<< shift - left <<< shift) 1 := by
    rw [← less, nearest_shiftLeft _ (by omega)]
  have first := grows left right
  have second := grows right left
  simp only [signedUnits, sizeA, sizeB]
  clear sizeA sizeB inA inB place none joined less grows unit
  generalize left <<< shift = sizeLeft at *
  generalize right <<< shift = sizeRight at *
  by_cases signs : a.negative = b.negative
  · rw [if_pos signs, same, ← signs]
    cases a.negative <;> congr 1 <;> simp <;> omega
  · have opposite : b.negative = !a.negative := by
      cases signA : a.negative <;> cases signB : b.negative <;> simp_all
    rw [if_neg signs, opposite]
    rcases Nat.lt_trichotomy left right with below | equal | above
    · rw [if_neg (by omega), if_pos below, onlyRight below]
      cases a.negative <;> congr 1 <;> simp <;> omega
    · have cancelled : sizeLeft = sizeRight := by omega
      rw [if_neg (by omega), if_neg (by omega), cancelled]
      cases a.negative
      · simp only [Bool.not_false, Bool.false_eq_true, if_true, if_false, Int.add_right_neg]
        rfl
      · simp only [Bool.not_true, Bool.false_eq_true, if_true, if_false, Int.add_left_neg]
        rfl
    · rw [if_pos above, onlyLeft above]
      cases a.negative <;> congr 1 <;> simp <;> omega

end SystemCombination.Binary64
