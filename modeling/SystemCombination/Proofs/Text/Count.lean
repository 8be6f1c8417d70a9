import SystemCombination.Text.Count

/-! Whole numbers in decimal notation. `natural?_eq_some_iff` says which texts are read as which
numbers. -/

namespace SystemCombination.Text

/-- Digits of ASCII, at least one, with or without a `+` in front, and the number that they
stand for. -/
def Denotes (cs : List Char) (n : Nat) : Prop :=
  ∃ digits, (cs = digits ∨ cs = '+' :: digits) ∧ digits ≠ [] ∧
    (∀ c ∈ digits, c.isDigit = true) ∧ Nat.ofDigitChars 10 digits 0 = n

theorem le_ofDigitChars (digits : List Char) (value : Nat) :
    value ≤ Nat.ofDigitChars 10 digits value := by
  induction digits generalizing value with
  | nil => simp
  | cons c digits ih =>
    rw [Nat.ofDigitChars_cons]
    have later := ih (10 * value + (c.toNat - '0'.toNat))
    omega

theorem foldlM_digit_eq_some_iff {bound value n : Nat} {digits : List Char} (h : value ≤ bound) :
    digits.foldlM (fun value digit =>
      let next := 10 * value + (digit.toNat - '0'.toNat)
      if next ≤ bound then some next else none) value = some n ↔
      Nat.ofDigitChars 10 digits value = n ∧ n ≤ bound := by
  induction digits generalizing value with
  | nil =>
    simp only [List.foldlM_nil, Nat.ofDigitChars_nil]
    constructor
    · intro same
      obtain rfl := Option.some.inj same
      exact ⟨rfl, h⟩
    · rintro ⟨rfl, -⟩
      rfl
  | cons c digits ih =>
    have grows := le_ofDigitChars digits (10 * value + (c.toNat - '0'.toNat))
    rw [List.foldlM_cons, Nat.ofDigitChars_cons]
    by_cases fits : 10 * value + (c.toNat - '0'.toNat) ≤ bound
    · simp only [fits, if_true, Option.bind_eq_bind, Option.bind_some]
      exact ih fits
    · -- The value never falls again, so it ends past the bound too.
      simp only [fits, if_false, Option.bind_eq_bind, Option.bind_none, reduceCtorEq, false_iff]
      omega

theorem digits?_eq_some_iff {bound n : Nat} {cs : List Char} :
    digits? bound cs = some n ↔
      cs ≠ [] ∧ (∀ c ∈ cs, c.isDigit = true) ∧ Nat.ofDigitChars 10 cs 0 = n ∧ n ≤ bound := by
  rw [← foldlM_digit_eq_some_iff (Nat.zero_le bound)]
  unfold digits? digitsValue?
  by_cases empty : cs = []
  · simp [empty]
  · by_cases digits : ∀ c ∈ cs, c.isDigit = true
    · have read : (cs.isEmpty || !cs.all Char.isDigit) = false := by simpa [empty] using digits
      rw [read]
      exact ⟨fun value => ⟨empty, digits, value⟩, fun ⟨_, _, value⟩ => value⟩
    · have other : cs.all Char.isDigit = false := by
        rw [← Bool.not_eq_true, List.all_eq_true]
        exact digits
      simp [other, digits]

theorem natural?_eq_some_iff {bound n : Nat} {cs : List Char} :
    natural? bound cs = some n ↔ Denotes cs n ∧ n ≤ bound := by
  have unsigned {digits : List Char} (h : ∀ c ∈ '+' :: digits, c.isDigit = true) : False :=
    absurd (h '+' List.mem_cons_self) (by decide)
  unfold natural? Denotes
  split
  · next rest =>
    rw [digits?_eq_some_iff]
    constructor
    · rintro ⟨nonempty, digits, value, fits⟩
      exact ⟨⟨rest, .inr rfl, nonempty, digits, value⟩, fits⟩
    · rintro ⟨⟨digits, rfl | same, nonempty, all, value⟩, fits⟩
      · exact (unsigned all).elim
      · obtain rfl := List.tail_eq_of_cons_eq same
        exact ⟨nonempty, all, value, fits⟩
  · next plain =>
    rw [digits?_eq_some_iff]
    constructor
    · rintro ⟨nonempty, digits, value, fits⟩
      exact ⟨⟨cs, .inl rfl, nonempty, digits, value⟩, fits⟩
    · rintro ⟨⟨digits, rfl | rfl, nonempty, all, value⟩, fits⟩
      · exact ⟨nonempty, all, value, fits⟩
      · exact (plain digits rfl).elim

end SystemCombination.Text
