/-! Rounding a fraction to a whole number, a half to the even neighbour. `isNearest_roundHalfEven`
says that the rounding is off by at most a half, `roundHalfEven_mul` that it changes no whole
number. -/

namespace SystemCombination

/-- The whole number nearest to `num / den`; of two as near, the even one. -/
def roundHalfEven (num den : Nat) : Nat :=
  let quotient := num / den
  let twice := 2 * (num % den)
  if twice < den then quotient
  else if den < twice then quotient + 1
  else quotient + quotient % 2

/-- A whole number as near to `num / den` as any, and even where another is as near. -/
structure IsNearest (num den n : Nat) : Prop where
  above : 2 * num ≤ 2 * (n * den) + den
  below : 2 * (n * den) ≤ 2 * num + den
  even : 2 * num = 2 * (n * den) + den ∨ 2 * (n * den) = 2 * num + den → n % 2 = 0

theorem isNearest_roundHalfEven (num : Nat) {den : Nat} (h : 0 < den) :
    IsNearest num den (roundHalfEven num den) := by
  have split := Nat.div_add_mod num den
  have rest := Nat.mod_lt num h
  have step : (num / den + 1) * den = den * (num / den) + den := by
    rw [Nat.add_mul, Nat.mul_comm, Nat.one_mul]
  have same : num / den * den = den * (num / den) := Nat.mul_comm ..
  simp only [roundHalfEven]
  split
  · exact ⟨by omega, by omega, by omega⟩
  · split
    · exact ⟨by omega, by omega, by omega⟩
    · rcases Nat.mod_two_eq_zero_or_one (num / den) with even | odd
      · simp only [even, Nat.add_zero]
        exact ⟨by omega, by omega, fun _ => even⟩
      · simp only [odd]
        exact ⟨by omega, by omega, by omega⟩

/-- A whole number is rounded to itself. -/
@[simp] theorem roundHalfEven_mul (n : Nat) {den : Nat} (h : 0 < den) :
    roundHalfEven (n * den) den = n := by
  simp [roundHalfEven, Nat.mul_div_cancel n h, h]

/-- A whole number of shifted places is rounded to itself. -/
theorem roundHalfEven_shiftLeft (n k : Nat) : roundHalfEven (n <<< k) (1 <<< k) = n := by
  have pos : 0 < 1 <<< k := Nat.one_shiftLeft k ▸ Nat.two_pow_pos k
  rw [show n <<< k = n * (1 <<< k) by simp [Nat.shiftLeft_eq], roundHalfEven_mul n pos]

/-- Shifting both parts of a fraction does not change what it is rounded to. -/
theorem roundHalfEven_shift (num den k : Nat) :
    roundHalfEven (num <<< k) (den <<< k) = roundHalfEven num den := by
  have pos := Nat.two_pow_pos k
  simp only [roundHalfEven, Nat.shiftLeft_eq, Nat.mul_div_mul_right _ _ pos,
    Nat.mul_mod_mul_right, ← Nat.mul_assoc, Nat.mul_lt_mul_right pos]

end SystemCombination
