import Std.Data.HashMap

/-! Numbers for keys. A numbering has a number for each of its keys, as `mem_numbering` says, and
no two keys have the same one, as `numbering_inj` says. -/

namespace SystemCombination

variable {α : Type} [BEq α] [Hashable α]

/-- A number for each of the keys, in the order in which they first come. -/
def numbering (keys : List α) : Std.HashMap α Nat :=
  keys.foldl (fun numbers key => numbers.insertIfNew key numbers.size) ∅

/-- Numbers are below the size, and no two keys have the same one. -/
structure Numbered (numbers : Std.HashMap α Nat) : Prop where
  below : ∀ (key : α) (number : Nat), numbers[key]? = some number → number < numbers.size
  inj : ∀ (key other : α) (number : Nat), numbers[key]? = some number →
    numbers[other]? = some number → key = other

variable [LawfulBEq α] [LawfulHashable α]

/-- A new key gets a number that no key has. -/
theorem Numbered.insertIfNew {numbers : Std.HashMap α Nat} (h : Numbered numbers) (key : α) :
    Numbered (numbers.insertIfNew key numbers.size) := by
  by_cases known : key ∈ numbers
  · have same (other : α) : (numbers.insertIfNew key numbers.size)[other]? = numbers[other]? := by
      simp [Std.HashMap.getElem?_insertIfNew, known]
    constructor
    · intro other number found
      rw [same] at found
      rw [Std.HashMap.size_insertIfNew, if_pos known]
      exact h.below other number found
    · intro one other number found found'
      rw [same] at found found'
      exact h.inj one other number found found'
  · have split (other : α) (number : Nat)
        (found : (numbers.insertIfNew key numbers.size)[other]? = some number) :
        (key = other ∧ numbers.size = number) ∨ numbers[other]? = some number := by
      rw [Std.HashMap.getElem?_insertIfNew] at found
      by_cases same : key = other
      · rw [if_pos ⟨beq_iff_eq.mpr same, known⟩] at found
        exact .inl ⟨same, Option.some.inj found⟩
      · rw [if_neg fun new => same (beq_iff_eq.mp new.1)] at found
        exact .inr found
    constructor
    · intro other number found
      rw [Std.HashMap.size_insertIfNew, if_neg known]
      rcases split other number found with ⟨_, rfl⟩ | old
      · exact Nat.lt_succ_self _
      · exact Nat.lt_succ_of_lt (h.below other number old)
    · intro one other number found found'
      rcases split one number found with ⟨rfl, rfl⟩ | old
      · rcases split other _ found' with ⟨rfl, _⟩ | old'
        · rfl
        · exact absurd (h.below _ _ old') (Nat.lt_irrefl _)
      · rcases split other _ found' with ⟨rfl, size⟩ | old'
        · exact absurd (size ▸ h.below _ _ old) (Nat.lt_irrefl _)
        · exact h.inj _ _ _ old old'

theorem numbered_numbering (keys : List α) : Numbered (numbering keys) := by
  suffices ∀ numbers : Std.HashMap α Nat, Numbered numbers →
      Numbered (keys.foldl (fun numbers key => numbers.insertIfNew key numbers.size) numbers) from
    this ∅ ⟨by simp, by simp⟩
  induction keys with
  | nil => exact fun _ h => h
  | cons key keys ih => exact fun numbers h => ih _ (h.insertIfNew key)

/-- No two keys have the same number. -/
theorem numbering_inj {keys : List α} {key other : α} {number : Nat}
    (h : (numbering keys)[key]? = some number) (h' : (numbering keys)[other]? = some number) :
    key = other :=
  (numbered_numbering keys).inj key other number h h'

/-- The keys are those of the list. -/
theorem mem_numbering {keys : List α} {key : α} : key ∈ numbering keys ↔ key ∈ keys := by
  suffices ∀ numbers : Std.HashMap α Nat,
      key ∈ keys.foldl (fun numbers key => numbers.insertIfNew key numbers.size) numbers ↔
        key ∈ keys ∨ key ∈ numbers by
    simpa [numbering] using this ∅
  induction keys with
  | nil => simp
  | cons first keys ih =>
    intro numbers
    rw [List.foldl_cons, ih, Std.HashMap.mem_insertIfNew, List.mem_cons, beq_iff_eq]
    constructor
    · rintro (later | rfl | old)
      · exact .inl (.inr later)
      · exact .inl (.inl rfl)
      · exact .inr old
    · rintro ((rfl | later) | old)
      · exact .inr (.inl rfl)
      · exact .inl later
      · exact .inr (.inr old)

end SystemCombination
