import Mathlib.Data.Nat.Digits.Defs
import SystemCombination.Decimal.Fixed

/-! What is printed of a number with a fixed number of decimal places. `prints_fixed` says that the
digits of a finite number, taken together, are the number times a power of ten, rounded to a whole
number. -/

namespace SystemCombination.Decimal

/-- The text of a finite number: its sign, a whole number, and a digit for each place behind the
point. All digits together are the size of the number as nearly as they can be. -/
inductive Prints (places : Nat) (value : Binary64) : String → Prop
  | mk (whole : Nat) {fraction : List Char} (digits : ∀ c ∈ fraction, c.isDigit = true)
      (length : fraction.length = places)
      (nearest : IsNearest (value.units * 10 ^ places) Binary64.unitsOfOne
        (whole * 10 ^ places + Nat.ofDigitChars 10 fraction 0)) :
      Prints places value
        ((if value.negative then "-" else "") ++ toString whole ++ "." ++ String.ofList fraction)

theorem isDigit_of_mem_padded {width value : Nat} {c : Char}
    (h : c ∈ (padded width value).toList) : c.isDigit = true := by
  rw [padded, String.toList_ofList] at h
  rcases List.mem_append.mp h with zero | digit
  · rw [List.eq_of_mem_replicate zero]
    decide
  · exact Nat.isDigit_of_mem_toDigits (by decide) (by decide) digit

theorem padded_digits {width value : Nat} (some : 0 < width) (fits : value < 10 ^ width) :
    ∃ digits, padded width value = String.ofList digits ∧ digits.length = width ∧
      Nat.ofDigitChars 10 digits 0 = value := by
  refine ⟨_, rfl, ?_, ?_⟩
  · have short := (Nat.length_toDigits_le_iff (b := 10) (by decide) some).mpr fits
    rw [List.length_append, List.length_replicate]
    omega
  · rw [Nat.ofDigitChars_append, Nat.ofDigitChars_replicate_zero, Nat.mul_zero]
    exact Nat.ofDigitChars_toDigits (by decide) (by decide)

theorem isNearest_scaled (value : Binary64) (places : Nat) :
    IsNearest (value.units * 10 ^ places) Binary64.unitsOfOne (scaled value places) := by
  have positive : 0 < Binary64.unitsOfOne := by
    rw [Binary64.unitsOfOne, Nat.one_shiftLeft]
    exact Nat.two_pow_pos 1074
  exact isNearest_roundHalfEven _ positive

theorem prints_fixed {value : Binary64} (finite : value.isFinite = true) {places : Nat}
    (some : 0 < places) : Prints places value (fixed places value) := by
  simp only [Binary64.isFinite, decide_eq_true_eq] at finite
  have ordered : value.isNaN = false := by simp [Binary64.isNaN]; omega
  have bounded : value.isInfinite = false := by simp [Binary64.isInfinite]; omega
  let units := scaled value places
  have below : units % 10 ^ places < 10 ^ places := Nat.mod_lt _ (Nat.pow_pos (by decide))
  obtain ⟨fraction, printed, length, same⟩ := padded_digits some below
  have split : units / 10 ^ places * 10 ^ places + Nat.ofDigitChars 10 fraction 0 = units := by
    rw [same]
    exact Nat.div_add_mod' ..
  have whole : fixed places value = (if value.negative then "-" else "") ++
      toString (units / 10 ^ places) ++ "." ++ padded places (units % 10 ^ places) := by
    simp only [fixed, ordered, bounded, Bool.false_eq_true, if_false]
    rfl
  rw [whole, printed]
  refine .mk _ (fun c member => ?_) length ?_
  · apply isDigit_of_mem_padded
    rwa [printed, String.toList_ofList]
  · rw [split]
    exact isNearest_scaled value places

example : fixed 6 ⟨0xBFF0000000000001⟩ = "-1.000000" := by decide +kernel

end SystemCombination.Decimal
