/-! Lists that are cut at an element: before the first that is equal to a given one, and at the
first or the last that has a property. -/

namespace SystemCombination

/-- The run of elements before the first that is equal to `x` is found by `takeWhile`. -/
theorem takeWhile_ne_append {α : Type} [DecidableEq α] {x : α} {before after : List α}
    (fresh : x ∉ before) (first : ∀ y ∈ after.head?, y = x) :
    (before ++ after).takeWhile (· ≠ x) = before ∧ (before ++ after).dropWhile (· ≠ x) = after := by
  have passed : ∀ y ∈ before, decide (y ≠ x) = true := fun y member =>
    decide_eq_true fun same => fresh (same ▸ member)
  rw [List.takeWhile_append_of_pos passed, List.dropWhile_append_of_pos passed]
  cases after with
  | nil => simp
  | cons y after =>
    have same : y = x := first y rfl
    simp [same]

/-- The first element with a property cuts a list in one way. -/
theorem cut_first_unique {α : Type} {p : α → Prop} {x x' : α} {before before' after after' : List α}
    (cut : before ++ x :: after = before' ++ x' :: after') (hx : p x) (hx' : p x')
    (none : ∀ y ∈ before, ¬ p y) (none' : ∀ y ∈ before', ¬ p y) :
    before = before' ∧ x = x' ∧ after = after' := by
  rcases List.append_eq_append_iff.mp cut with ⟨middle, rfl, eq⟩ | ⟨middle, rfl, eq⟩
  · cases middle with
    | nil => simpa using eq
    | cons y middle =>
      obtain ⟨rfl, -⟩ := List.cons.inj eq
      exact absurd hx (none' x (by simp))
  · cases middle with
    | nil => simpa [eq_comm] using eq
    | cons y middle =>
      obtain ⟨rfl, -⟩ := List.cons.inj eq
      exact absurd hx' (none x' (by simp))

theorem cut_last_unique {α : Type} {p : α → Prop} {x x' : α} {before before' after after' : List α}
    (cut : before ++ x :: after = before' ++ x' :: after') (hx : p x) (hx' : p x')
    (none : ∀ y ∈ after, ¬ p y) (none' : ∀ y ∈ after', ¬ p y) :
    before = before' ∧ x = x' ∧ after = after' := by
  have turned : after.reverse ++ x :: before.reverse = after'.reverse ++ x' :: before'.reverse := by
    simpa using congrArg List.reverse cut
  obtain ⟨later, same, earlier⟩ := cut_first_unique turned hx hx' (by simpa using none)
    (by simpa using none')
  exact ⟨List.reverse_inj.mp earlier, same, List.reverse_inj.mp later⟩

end SystemCombination
