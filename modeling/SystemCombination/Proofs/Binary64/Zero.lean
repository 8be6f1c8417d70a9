import SystemCombination.Proofs.Binary64.Exact

/-! Adding zero. It takes the sign off `-0` and marks what is no number, and changes nothing else.
Neither can come up in a sum that starts from zero, so there a zero may be added or left out. -/

namespace SystemCombination.Binary64

theorem toNat_handedOn (value : Binary64) :
    value.handedOn.bits.toNat = value.bits.toNat ||| 2 ^ 51 :=
  UInt64.toNat_or ..

theorem handedOn_handedOn (value : Binary64) : value.handedOn.handedOn = value.handedOn := by
  have same : value.handedOn.handedOn.bits = value.handedOn.bits := by
    apply UInt64.toNat_inj.mp
    rw [toNat_handedOn, toNat_handedOn, Nat.or_assoc, Nat.or_self]
  exact congrArg Binary64.mk same

theorem magnitude_le_handedOn (value : Binary64) : value.magnitude ≤ value.handedOn.magnitude := by
  have place : signBit = 2 ^ 63 := rfl
  rw [magnitude_eq, magnitude_eq, toNat_handedOn, place, Nat.or_mod_two_pow]
  exact Nat.left_le_or

theorem isNaN_handedOn {value : Binary64} (h : value.isNaN = true) :
    value.handedOn.isNaN = true := by
  simp only [isNaN, decide_eq_true_eq] at h ⊢
  exact Nat.lt_of_lt_of_le h (magnitude_le_handedOn value)

/-! ### What adding yields -/

section Add

variable {a b : Binary64}

theorem add_of_isNaN (h : a.isNaN = true) : a + b = a.handedOn := by
  show add a b = _
  simp [add, unordered?, h]

theorem add_of_isNaN_right (h : a.isNaN = false) (h' : b.isNaN = true) : a + b = b.handedOn := by
  show add a b = _
  simp [add, unordered?, h, h']

theorem isNaN_of_isInfinite (h : a.isInfinite = true) : a.isNaN = false := by
  simp only [isInfinite, decide_eq_true_eq] at h
  simp [isNaN, h]

theorem isFinite_of_not (h : a.isNaN = false) (h' : a.isInfinite = false) : a.isFinite = true := by
  simp only [isNaN, isInfinite, decide_eq_false_iff_not] at h h'
  simp only [isFinite, decide_eq_true_eq]
  omega

theorem add_of_isInfinite (h : a.isInfinite = true) (h' : b.isNaN = false) :
    a + b = if b.isInfinite && a.negative != b.negative then undefined else a := by
  show add a b = _
  simp [add, unordered?, isNaN_of_isInfinite h, h, h']

theorem add_of_isInfinite_right (h : a.isFinite = true) (h' : b.isInfinite = true) :
    a + b = b := by
  have below : a.magnitude < infiniteMagnitude := by simpa [isFinite] using h
  have bounded : a.isInfinite = false := by simp [isInfinite, Nat.ne_of_lt below]
  have ordered : a.isNaN = false := by simp [isNaN, Nat.not_lt_of_lt below]
  show add a b = b
  simp [add, unordered?, ordered, bounded, isNaN_of_isInfinite h', h']

end Add

theorem isFinite_zero : (0 : Binary64).isFinite = true := by decide

theorem add_zero_of_isInfinite {value : Binary64} (h : value.isInfinite = true) :
    value + 0 = value := by
  rw [add_of_isInfinite h (by decide)]
  rfl

theorem ofMagnitude_magnitude (value : Binary64) :
    ofMagnitude value.negative value.magnitude = value := by
  have bound := value.bits.toNat_lt
  have size : value.magnitude = value.bits.toNat % 2 ^ 63 := magnitude_eq value
  have sign : value.negative = decide (2 ^ 63 ≤ value.bits.toNat) := negative_eq value
  have small : value.magnitude < signBit := size ▸ Nat.mod_lt _ (by decide)
  have same : (ofMagnitude value.negative value.magnitude).bits = value.bits := by
    apply UInt64.toNat_inj.mp
    rw [toNat_ofMagnitude _ small, sign, size, show signBit = 2 ^ 63 from rfl]
    by_cases signed : 2 ^ 63 ≤ value.bits.toNat
    · rw [decide_eq_true signed, if_pos rfl]
      omega
    · rw [decide_eq_false signed, if_neg Bool.false_ne_true]
      omega
  exact congrArg Binary64.mk same

theorem units_eq_zero {value : Binary64} (h : value.units = 0) : value.magnitude = 0 := by
  have hidden : hiddenBit = 0x10000000000000 := rfl
  rw [units, Nat.shiftLeft_eq, Nat.mul_eq_zero] at h
  have none := h.resolve_right (Nat.ne_of_gt (Nat.two_pow_pos _))
  simp only [significand] at none
  split at none
  · next small => rwa [Nat.mod_eq_of_lt small] at none
  · omega

theorem eq_negZero {value : Binary64} (signed : value.negative = true) (h : value.units = 0) :
    value = -0 := by
  rw [← ofMagnitude_magnitude value, signed, units_eq_zero h]
  decide +kernel

/-- Zero changes no finite number but `-0`. -/
theorem add_zero_of_isFinite {value : Binary64} (h : value.isFinite = true) (signed : value ≠ -0) :
    value + 0 = value := by
  have sign : (if value.signedUnits = 0 then value.negative && false
      else decide (value.signedUnits < 0)) = value.negative := by
    by_cases none : value.signedUnits = 0
    · -- Of the two numbers without units, the one with a sign is excluded.
      rw [if_pos none, Bool.and_false]
      cases negated : value.negative with
      | false => rfl
      | true => exact absurd (eq_negZero negated (units_of_signedUnits none)) signed
    · rw [if_neg none]
      cases negated : value.negative with
      | false => simp [signedUnits, negated]
      | true => simp [signedUnits, negated] at none ⊢; omega
  have size : value.signedUnits.natAbs = value.units := (units_of_signedUnits rfl).symm
  rw [add_of_isFinite h isFinite_zero, sum_eq]
  show nearest (if value.signedUnits + 0 = 0 then value.negative && false
    else decide (value.signedUnits + 0 < 0)) (value.signedUnits + 0).natAbs 1 = value
  rw [Int.add_zero, sign, size, nearest, nearestMagnitude_units h, ofMagnitude_magnitude]

theorem nearestMagnitude_le (num den : Nat) : nearestMagnitude num den ≤ infiniteMagnitude :=
  Nat.min_le_left ..

theorem isNaN_nearest (negative : Bool) (num den : Nat) :
    (nearest negative num den).isNaN = false := by
  have least := nearestMagnitude_le num den
  have bound : nearestMagnitude num den < signBit := Nat.lt_of_le_of_lt least (by decide)
  rw [isNaN, nearest, magnitude_ofMagnitude negative bound]
  exact decide_eq_false (Nat.not_lt_of_le least)

/-- Only zero is so near to zero that it is rounded to it. -/
theorem eq_zero_of_nearestMagnitude {num : Nat} (h : nearestMagnitude num 1 = 0) : num = 0 := by
  simp only [nearestMagnitude, Nat.div_one] at h
  by_cases short : num.log2 - 52 = 0
  · rw [short] at h
    have whole := roundHalfEven_shiftLeft num 0
    rw [Nat.shiftLeft_zero] at whole
    simp only [infiniteMagnitude] at h
    omega
  · have place : 0 < (num.log2 - 52) * hiddenBit := Nat.mul_pos (by omega) (by decide)
    simp only [infiniteMagnitude] at h
    omega

/-- A sum is `-0` only if both operands are. -/
theorem sum_ne_negZero {a : Binary64} (h : a ≠ -0) (b : Binary64) : sum a b ≠ -0 := by
  intro zero
  rw [sum_eq] at zero
  simp only [nearest] at zero
  have bound := Nat.lt_of_le_of_lt
    (nearestMagnitude_le (a.signedUnits + b.signedUnits).natAbs 1)
    (show infiniteMagnitude < signBit by decide)
  have empty := congrArg magnitude zero
  have signed := congrArg negative zero
  rw [magnitude_ofMagnitude _ bound] at empty
  rw [negative_ofMagnitude _ bound] at signed
  have total := eq_zero_of_nearestMagnitude (empty.trans (by decide))
  rw [if_pos (by omega)] at signed
  obtain ⟨negated, negated'⟩ : a.negative = true ∧ b.negative = true := by
    simpa using signed.trans (show (-0 : Binary64).negative = true by decide)
  simp only [signedUnits, negated, negated', if_true] at total
  exact h (eq_negZero negated (by omega))

/-- Zero changes no number but `-0`. -/
theorem add_zero_of_ne {value : Binary64} (h : value.isNaN = false) (signed : value ≠ -0) :
    value + 0 = value := by
  cases infinite : value.isInfinite with
  | true => exact add_zero_of_isInfinite infinite
  | false => exact add_zero_of_isFinite (isFinite_of_not h infinite) signed

theorem sum_add_zero {a : Binary64} (h : a ≠ -0) (b : Binary64) : sum a b + 0 = sum a b := by
  refine add_zero_of_ne ?_ (sum_ne_negZero h b)
  rw [sum_eq]
  exact isNaN_nearest ..

/-- Zero changes nothing that is added up from a start that it does not change. -/
theorem add_add_zero {a : Binary64} (h : a + 0 = a) (b : Binary64) : a + b + 0 = a + b := by
  cases none : a.isNaN with
  | true =>
    have same : a + b = a := by rw [add_of_isNaN none, ← add_of_isNaN none (b := 0), h]
    rw [same, h]
  | false =>
    cases none' : b.isNaN with
    | true => rw [add_of_isNaN_right none none', add_of_isNaN (isNaN_handedOn none'),
        handedOn_handedOn]
    | false =>
      cases infinite : a.isInfinite with
      | true =>
        rw [add_of_isInfinite infinite none']
        split
        · decide
        · exact h
      | false =>
        have finite := isFinite_of_not none infinite
        cases infinite' : b.isInfinite with
        | true => rw [add_of_isInfinite_right finite infinite', add_zero_of_isInfinite infinite']
        | false =>
          have signed : a ≠ -0 := by
            rintro rfl
            exact absurd h (by decide +kernel)
          rw [add_of_isFinite finite (isFinite_of_not none' infinite')]
          exact sum_add_zero signed b

/-- Numbers added up from the left, from zero. -/
def total (values : List Binary64) : Binary64 := values.foldl (· + ·) 0

theorem total_add_zero (values : List Binary64) : total values + 0 = total values := by
  have keeps {start : Binary64} (h : start + 0 = start) :
      values.foldl (· + ·) start + 0 = values.foldl (· + ·) start := by
    induction values generalizing start with
    | nil => exact h
    | cons value values ih => exact ih (add_add_zero h value)
  exact keeps (by decide)

/-- Zeros at the end of a sum may be left out. -/
theorem total_append_zeros (values : List Binary64) (count : Nat) :
    total (values ++ List.replicate count 0) = total values := by
  induction count with
  | zero => rw [List.replicate_zero, List.append_nil]
  | succ count ih =>
    rw [List.replicate_succ', ← List.append_assoc, total, List.foldl_append, ← total, ih]
    exact total_add_zero values

end SystemCombination.Binary64
