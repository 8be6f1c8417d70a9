import Mathlib.Algebra.BigOperators.Group.List.Basic
import Mathlib.Algebra.Ring.Int.Defs
import Mathlib.Data.List.Induction
import Mathlib.Data.List.Perm.Subperm
import Mathlib.Data.List.Sublists
import SystemCombination.Binary64.Lemmas

/-! Sums that rounding has no part in. Where the exact sum of every part of a list of numbers is
itself a number, adding up a part gives that number, so the order of adding does not matter. -/

namespace SystemCombination.Binary64

section OfMagnitude

variable {magnitude : Nat} (negative : Bool)

theorem toNat_ofMagnitude (h : magnitude < signBit) :
    (ofMagnitude negative magnitude).bits.toNat =
      if negative then signBit + magnitude else magnitude := by
  have place : signBit = 0x8000000000000000 := rfl
  have fits : (if negative then signBit + magnitude else magnitude) < 2 ^ 64 := by
    split <;> omega
  rw [ofMagnitude, UInt64.toNat_ofNat', Nat.mod_eq_of_lt fits]

theorem magnitude_ofMagnitude (h : magnitude < signBit) :
    (ofMagnitude negative magnitude).magnitude = magnitude := by
  rw [magnitude_eq, toNat_ofMagnitude negative h]
  cases negative <;> simp [Nat.mod_eq_of_lt h]

theorem negative_ofMagnitude (h : magnitude < signBit) :
    (ofMagnitude negative magnitude).negative = negative := by
  rw [negative_eq, toNat_ofMagnitude negative h]
  cases negative <;> simp [h]

end OfMagnitude

theorem add_of_isFinite {a b : Binary64} (finite : a.isFinite = true)
    (finite' : b.isFinite = true) : a + b = sum a b := by
  have below : a.magnitude < infiniteMagnitude := by simpa [isFinite] using finite
  have below' : b.magnitude < infiniteMagnitude := by simpa [isFinite] using finite'
  have ordered : unordered? a b = none := by
    simp [unordered?, isNaN, Nat.not_lt_of_lt below, Nat.not_lt_of_lt below']
  have bounded : a.isInfinite = false := by simp [isInfinite, Nat.ne_of_lt below]
  have bounded' : b.isInfinite = false := by simp [isInfinite, Nat.ne_of_lt below']
  show add a b = sum a b
  simp [add, ordered, bounded, bounded']

/-- A count of units that some number stands for. -/
def Representable (total : Int) : Prop :=
  ∃ value : Binary64, value.isFinite = true ∧ value.signedUnits = total

/-- The number nearest to a count of units, `0` without a sign. -/
def nearestTo (total : Int) : Binary64 := nearest (decide (total < 0)) total.natAbs 1

theorem units_of_signedUnits {value : Binary64} {total : Int} (h : value.signedUnits = total) :
    value.units = total.natAbs := by
  rw [signedUnits] at h
  split at h <;> omega

section Representable

variable {total : Int}

theorem nearestTo_of_representable (h : Representable total) :
    (nearestTo total).isFinite = true ∧ (nearestTo total).negative = decide (total < 0) ∧
      (nearestTo total).signedUnits = total := by
  obtain ⟨value, finite, stands⟩ := h
  have below : value.magnitude < infiniteMagnitude := by simpa [isFinite] using finite
  have bound : value.magnitude < signBit := Nat.lt_trans below (by decide)
  have size : value.units = total.natAbs := units_of_signedUnits stands
  have same : nearestTo total = ofMagnitude (decide (total < 0)) value.magnitude := by
    rw [nearestTo, nearest, ← size, nearestMagnitude_units finite]
  have magnitude := magnitude_ofMagnitude (decide (total < 0)) bound
  have units : (ofMagnitude (decide (total < 0)) value.magnitude).units = value.units := by
    simp only [units, significand, exponent, magnitude]
  have sign := negative_ofMagnitude (decide (total < 0)) bound
  rw [same]
  refine ⟨by simpa [isFinite, magnitude] using below, sign, ?_⟩
  rw [signedUnits, sign, units, size]
  by_cases less : total < 0
  · rw [decide_eq_true less, if_pos rfl]
    omega
  · rw [decide_eq_false less, if_neg Bool.false_ne_true]
    omega

instance (total : Int) : Decidable (Representable total) :=
  decidable_of_iff ((nearestTo total).isFinite = true ∧ (nearestTo total).signedUnits = total) <| by
    constructor
    · intro exact
      exact ⟨nearestTo total, exact⟩
    · intro exact
      obtain ⟨finite, _, stands⟩ := nearestTo_of_representable exact
      exact ⟨finite, stands⟩

/-- A number is added to an exact sum, and the result rounded once. -/
theorem nearestTo_add (h : Representable total) {value : Binary64}
    (finite : value.isFinite = true) :
    nearestTo total + value = nearestTo (total + value.signedUnits) := by
  obtain ⟨finite', sign, stands⟩ := nearestTo_of_representable h
  have unsigned : total + value.signedUnits = 0 →
      (decide (total < 0) && value.negative) = decide (total + value.signedUnits < 0) := by
    -- Of two numbers that cancel out, one has no sign.
    intro cancelled
    rw [cancelled]
    rw [signedUnits] at cancelled
    split at cancelled
    · next signed =>
      rw [signed, Bool.and_true]
      exact decide_eq_decide.mpr (by omega)
    · next unsigned => simp [unsigned]
  rw [add_of_isFinite finite' finite, sum_eq, stands, sign]
  simp only [nearestTo]
  split
  · next cancelled => rw [unsigned cancelled]
  · rfl

end Representable

/-- The exact sum of some numbers, in units. -/
def exactSum (values : List Binary64) : Int := (values.map signedUnits).sum

/-- All numbers are finite, and every selection of them adds up to a number exactly. -/
def ExactlyAddable (values : List Binary64) : Prop :=
  (∀ value ∈ values, value.isFinite = true) ∧
    ∀ part, part.Sublist values → Representable (exactSum part)

instance (values : List Binary64) : Decidable (ExactlyAddable values) :=
  decidable_of_iff ((∀ value ∈ values, value.isFinite = true) ∧
    ∀ part ∈ values.sublists, Representable (exactSum part)) <| by
      simp only [ExactlyAddable, List.mem_sublists]

theorem ExactlyAddable.of_subperm {values part : List Binary64} (exact : ExactlyAddable values)
    (h : part.Subperm values) : ExactlyAddable part := by
  refine ⟨fun value member => exact.1 value (h.subset member), fun smaller isPart => ?_⟩
  obtain ⟨ordered, sameValues, isOrdered⟩ := isPart.subperm.trans h
  rw [exactSum, (sameValues.map signedUnits).sum_eq.symm]
  exact exact.2 ordered isOrdered

theorem foldl_add_of_exactlyAddable {values : List Binary64} (exact : ExactlyAddable values) :
    values.foldl (· + ·) 0 = nearestTo (exactSum values) := by
  -- Each prefix is a part too, so what is added up so far is exact at every step.
  induction values using List.reverseRecOn with
  | nil => rfl
  | append_singleton values value ih =>
    have part : values.Sublist (values ++ [value]) := List.sublist_append_left ..
    have before : ExactlyAddable values := exact.of_subperm part.subperm
    have finite : value.isFinite = true := exact.1 value (by simp)
    rw [List.foldl_append, ih before]
    show nearestTo (exactSum values) + value = _
    rw [nearestTo_add (exact.2 values part) finite]
    simp [exactSum]

/-- Numbers that add up exactly add up to the same in every order. -/
theorem foldl_add_of_perm {values values' : List Binary64} (exact : ExactlyAddable values)
    (h : values'.Perm values) : values'.foldl (· + ·) 0 = values.foldl (· + ·) 0 := by
  rw [foldl_add_of_exactlyAddable exact,
    foldl_add_of_exactlyAddable (exact.of_subperm h.subperm)]
  congr 1
  exact (h.map signedUnits).sum_eq

end SystemCombination.Binary64
