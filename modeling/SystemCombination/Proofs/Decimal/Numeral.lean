import Mathlib.Data.List.TakeWhile
import SystemCombination.Decimal.Numeral

/-! The texts that denote finite numbers. `Denotes` is their grammar: a sign, digits with or without
a point among them, and a power of ten, with nothing before, between or behind.
`finite?_eq_some_iff` says that these texts are read, each as its number, and no others. -/

namespace SystemCombination

theorem Binary64.isFinite_neg (value : Binary64) : (-value).isFinite = value.isFinite := by
  have same : (-value).magnitude = value.magnitude := by
    have sign : (0x8000000000000000 : UInt64).toNat = 2 ^ 63 := rfl
    show ((value.bits ^^^ 0x8000000000000000) % 0x8000000000000000).toNat = _
    rw [UInt64.toNat_mod, UInt64.toNat_xor, sign, Nat.xor_mod_two_pow, Nat.mod_self, Nat.xor_zero]
    exact (magnitude_eq value).symm
  rw [isFinite, isFinite, same]

namespace Decimal

/-- Digits of ASCII and nothing else. -/
def AllDigits (cs : List Char) : Prop := ∀ c ∈ cs, c.isDigit = true

/-- A text, whether the sign that it begins with negates, and what follows. The sign may be left
out. -/
inductive Signed : List Char → Bool → List Char → Prop
  | absent {rest : List Char} (unsigned : ∀ c ∈ rest.head?, c ≠ '+' ∧ c ≠ '-') :
      Signed rest false rest
  | plus {rest : List Char} : Signed ('+' :: rest) false rest
  | minus {rest : List Char} : Signed ('-' :: rest) true rest

/-- A text, the digits behind the point that it begins with, and what follows. The point may be
left out, and the digits with it. -/
inductive Fraction : List Char → List Char → List Char → Prop
  | absent {rest : List Char} (noPoint : ∀ c ∈ rest.head?, c ≠ '.') : Fraction rest [] rest
  | point {digits rest : List Char} (all : AllDigits digits) :
      Fraction ('.' :: (digits ++ rest)) digits rest

/-- A power of ten and its exponent. It may be left out. -/
inductive Power : List Char → Int → Prop
  | absent : Power [] 0
  | marked {mark : Char} {rest digits : List Char} {negative : Bool}
      (isMark : mark = 'e' ∨ mark = 'E') (signed : Signed rest negative digits)
      (nonempty : digits ≠ []) (all : AllDigits digits) :
      Power (mark :: rest) (if negative then -(exponentSize digits : Int) else exponentSize digits)

/-- A numeral without its sign. It has a digit before its power of ten. -/
inductive Spells : List Char → Numeral → Prop
  | mk {whole rest fraction power : List Char} {exponent : Int} (all : AllDigits whole)
      (isFraction : Fraction rest fraction power) (nonempty : whole ≠ [] ∨ fraction ≠ [])
      (isPower : Power power exponent) : Spells (whole ++ rest) ⟨whole, fraction, exponent⟩

/-- The text of a finite number. -/
inductive Denotes : List Char → Binary64 → Prop
  | mk {cs digits : List Char} {negative : Bool} {numeral : Numeral}
      (signed : Signed cs negative digits) (spells : Spells digits numeral)
      (finite : numeral.nearest.isFinite = true) :
      Denotes cs (if negative then -numeral.nearest else numeral.nearest)

/-! ### Parts of a text -/

theorem exists_signed (cs : List Char) : ∃ negative rest, Signed cs negative rest := by
  cases cs with
  | nil => exact ⟨_, _, .absent (by simp)⟩
  | cons c rest =>
    by_cases plus : c = '+'
    · subst plus
      exact ⟨_, _, .plus⟩
    · by_cases minus : c = '-'
      · subst minus
        exact ⟨_, _, .minus⟩
      · exact ⟨_, _, .absent (by simp [plus, minus])⟩

/-- What follows digits does not go on with one. -/
def StopsDigits (cs : List Char) : Prop := ∀ c ∈ cs.head?, c.isDigit = false

theorem span_digits {digits rest : List Char} (all : AllDigits digits) (stops : StopsDigits rest) :
    (digits ++ rest).takeWhile Char.isDigit = digits ∧
      (digits ++ rest).dropWhile Char.isDigit = rest := by
  rw [List.takeWhile_append_of_pos all, List.dropWhile_append_of_pos all]
  cases rest with
  | nil => simp
  | cons c rest => simp [stops c rfl]

theorem exists_digits (cs : List Char) :
    ∃ digits rest, cs = digits ++ rest ∧ AllDigits digits ∧ StopsDigits rest := by
  refine ⟨_, _, (List.takeWhile_append_dropWhile (p := Char.isDigit)).symm,
    fun _ => List.mem_takeWhile_imp, fun c first => ?_⟩
  have h := List.head?_dropWhile_not Char.isDigit cs
  rw [Option.mem_def.mp first] at h
  exact h

theorem exists_fraction {cs : List Char} (stops : StopsDigits cs) :
    ∃ fraction rest, Fraction cs fraction rest ∧ StopsDigits rest := by
  cases cs with
  | nil => exact ⟨_, _, .absent (by simp), stops⟩
  | cons c rest =>
    by_cases point : c = '.'
    · subst point
      obtain ⟨digits, rest, rfl, all, stops⟩ := exists_digits rest
      exact ⟨_, _, .point all, stops⟩
    · exact ⟨_, _, .absent (by simp [point]), stops⟩

theorem Fraction.stopsDigits {cs fraction rest : List Char} (h : Fraction cs fraction rest)
    (stops : StopsDigits rest) : StopsDigits cs := by
  cases h with
  | absent => exact stops
  | point =>
    rintro _ ⟨⟩
    decide

/-! ### Powers of ten -/

theorem exponent?_marked {mark : Char} {cs digits : List Char} {negative : Bool}
    (isMark : mark = 'e' ∨ mark = 'E') (signed : Signed cs negative digits) :
    exponent? (mark :: cs) =
      if digits.isEmpty || !digits.all Char.isDigit then none
      else some (if negative then -(exponentSize digits : Int) else exponentSize digits) := by
  have marked : ¬ (mark ≠ 'e' ∧ mark ≠ 'E') := by
    rintro ⟨noSmall, noLarge⟩
    exact isMark.elim noSmall noLarge
  simp only [exponent?, if_neg marked]
  cases signed with
  | plus => rfl
  | minus => rfl
  | absent unsigned =>
    split
    · exact absurd rfl (unsigned '-' rfl).2
    · exact absurd rfl (unsigned '+' rfl).1
    · rfl

theorem exponent?_eq_some_iff {cs : List Char} {exponent : Int} :
    exponent? cs = some exponent ↔ Power cs exponent := by
  constructor
  · intro read
    cases cs with
    | nil =>
      obtain rfl := Option.some.inj read
      exact .absent
    | cons mark cs =>
      by_cases isMark : mark = 'e' ∨ mark = 'E'
      · obtain ⟨negative, digits, signed⟩ := exists_signed cs
        rw [exponent?_marked isMark signed] at read
        split at read
        · cases read
        · next proper =>
          obtain rfl := Option.some.inj read
          simp only [Bool.or_eq_true, Bool.not_eq_true', not_or, List.isEmpty_iff,
            Bool.not_eq_false, List.all_eq_true] at proper
          exact .marked isMark signed proper.1 proper.2
      · simp only [exponent?, if_pos (not_or.mp isMark)] at read
        cases read
  · rintro (_ | ⟨isMark, signed, nonempty, all⟩)
    · rfl
    · rw [exponent?_marked isMark signed, if_neg]
      simpa [nonempty, AllDigits] using all

theorem Power.stopsDigits {cs : List Char} {exponent : Int} (h : Power cs exponent) :
    StopsDigits cs := by
  cases h with
  | absent => simp [StopsDigits]
  | marked isMark =>
    rintro _ ⟨⟩
    rcases isMark with rfl | rfl <;> decide

/-! ### Numerals -/

/-- What is read of a text whose parts are known. -/
theorem read?_of_parts {whole rest fraction power : List Char} (all : AllDigits whole)
    (isFraction : Fraction rest fraction power) (stops : StopsDigits power) :
    Numeral.read? (whole ++ rest) =
      if whole.isEmpty && fraction.isEmpty then none
      else (exponent? power).map fun exponent => ⟨whole, fraction, exponent⟩ := by
  obtain ⟨taken, left⟩ := span_digits all (isFraction.stopsDigits stops)
  simp only [Numeral.read?, taken, left]
  cases isFraction with
  | point all =>
    obtain ⟨taken, left⟩ := span_digits all stops
    simp only [taken, left]
  | absent noPoint =>
    split
    · exact absurd rfl (noPoint '.' rfl)
    · rfl

theorem read?_eq_some_iff {cs : List Char} {numeral : Numeral} :
    Numeral.read? cs = some numeral ↔ Spells cs numeral := by
  constructor
  · intro read
    obtain ⟨whole, rest, rfl, all, stops⟩ := exists_digits cs
    obtain ⟨fraction, power, isFraction, stops⟩ := exists_fraction stops
    rw [read?_of_parts all isFraction stops] at read
    split at read
    · cases read
    · next digit =>
      obtain ⟨exponent, isPower, rfl⟩ := Option.map_eq_some_iff.mp read
      simp only [Bool.and_eq_true, List.isEmpty_iff, not_and_or] at digit
      exact .mk all isFraction digit (exponent?_eq_some_iff.mp isPower)
  · rintro (@⟨whole, _, fraction, _, _, all, isFraction, nonempty, isPower⟩)
    have digit : ¬ (whole.isEmpty && fraction.isEmpty) = true := by
      simpa [imp_iff_not_or] using nonempty
    rw [read?_of_parts all isFraction isPower.stopsDigits, if_neg digit,
      exponent?_eq_some_iff.mpr isPower]
    rfl

/-- A numeral begins with a digit or a point. -/
theorem Spells.exists_head {cs : List Char} {numeral : Numeral} (h : Spells cs numeral) :
    ∃ c rest, cs = c :: rest ∧ (c.isDigit = true ∨ c = '.') := by
  cases h with
  | @mk whole rest _ _ _ all isFraction nonempty _ =>
  cases whole with
  | cons c whole => exact ⟨c, whole ++ rest, rfl, .inl (all c List.mem_cons_self)⟩
  | nil =>
    cases isFraction with
    | absent => simp at nonempty
    | point => exact ⟨'.', _, rfl, .inr rfl⟩

theorem toLower_of_isDigit {c : Char} (digit : c.isDigit = true) : c.toLower = c := by
  have range : 48 ≤ c.toNat ∧ c.toNat ≤ 57 := Char.isDigit_iff_toNat.mp digit
  refine dif_neg ?_
  rintro ⟨upper, -⟩
  have large : 65 ≤ c.toNat := UInt32.le_iff_toNat_le.mp upper
  omega

/-- No numeral is a name. -/
theorem Spells.map_toLower_ne {cs : List Char} {numeral : Numeral} (h : Spells cs numeral)
    {initial : Char} (letter : initial = 'i' ∨ initial = 'n') (rest : List Char) :
    cs.map Char.toLower ≠ initial :: rest := by
  obtain ⟨c, others, rfl, first⟩ := h.exists_head
  intro same
  obtain ⟨lower, -⟩ := List.cons.inj same
  rcases first with digit | rfl
  · rw [toLower_of_isDigit digit] at lower
    rw [lower] at digit
    rcases letter with rfl | rfl <;> exact absurd digit (by decide)
  · rcases letter with rfl | rfl <;> exact absurd lower (by decide)

/-! ### Finite numbers -/

theorem magnitude?_iff {cs : List Char} {value : Binary64} (finite : value.isFinite = true) :
    magnitude? cs = some value ↔ ∃ numeral, Spells cs numeral ∧ numeral.nearest = value := by
  have noInfinity : ¬ some Binary64.infinity = some value := by
    rintro ⟨⟩
    exact absurd finite (by decide)
  have noNan : ¬ some Binary64.nan = some value := by
    rintro ⟨⟩
    exact absurd finite (by decide)
  simp only [magnitude?]
  split
  · next named =>
    refine iff_of_false noInfinity ?_
    rintro ⟨numeral, spells, -⟩
    exact named.elim (spells.map_toLower_ne (.inl rfl) _) (spells.map_toLower_ne (.inl rfl) _)
  · split
    · next named =>
      refine iff_of_false noNan ?_
      rintro ⟨numeral, spells, -⟩
      exact spells.map_toLower_ne (.inr rfl) _ named
    · simp only [Option.map_eq_some_iff, read?_eq_some_iff]

theorem number?_signed {cs rest : List Char} {negative : Bool} (signed : Signed cs negative rest) :
    number? cs = (magnitude? rest).map fun value => if negative then -value else value := by
  cases signed with
  | minus => rfl
  | plus => simp [number?]
  | absent unsigned =>
    unfold number?
    split
    · exact absurd rfl (unsigned '-' rfl).2
    · exact absurd rfl (unsigned '+' rfl).1
    · simp

theorem finite?_eq_some_iff {cs : List Char} {value : Binary64} :
    finite? cs = some value ↔ Denotes cs value := by
  rw [finite?, Option.filter_eq_some_iff]
  constructor
  · rintro ⟨read, finite⟩
    obtain ⟨negative, rest, signed⟩ := exists_signed cs
    rw [number?_signed signed] at read
    obtain ⟨size, isSize, rfl⟩ := Option.map_eq_some_iff.mp read
    have finite' : size.isFinite = true := by
      cases negative with
      | false => exact finite
      | true => rwa [← Binary64.isFinite_neg]
    obtain ⟨numeral, spells, rfl⟩ := (magnitude?_iff finite').mp isSize
    exact .mk signed spells finite'
  · rintro ⟨signed, spells, finite⟩
    rw [number?_signed signed, (magnitude?_iff finite).mpr ⟨_, spells, rfl⟩]
    refine ⟨rfl, ?_⟩
    split
    · rwa [Binary64.isFinite_neg]
    · exact finite

end Decimal

end SystemCombination
