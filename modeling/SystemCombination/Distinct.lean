import Std.Data.HashSet

/-! The elements of a list that have a key of their own: of those that share a key, the first. -/

namespace SystemCombination

variable {α β : Type} [BEq β] [Hashable β] [LawfulBEq β] [LawfulHashable β]

/-- The elements with a key that is not in `seen` and that no earlier element has. -/
def distinct (key : α → β) (seen : Std.HashSet β) : List α → List α
  | [] => []
  | x :: xs =>
    if seen.contains (key x) then distinct key seen xs
    else x :: distinct key (seen.insert (key x)) xs

omit [LawfulBEq β] [LawfulHashable β] in
theorem distinct_sublist (key : α → β) (seen : Std.HashSet β) (xs : List α) :
    List.Sublist (distinct key seen xs) xs := by
  induction xs generalizing seen with
  | nil => exact .slnil
  | cons x xs ih =>
    unfold distinct
    split
    · exact (ih seen).cons x
    · exact (ih _).cons_cons x

/-- The keys of the distinct elements are those that are new. -/
theorem mem_map_distinct {key : α → β} {seen : Std.HashSet β} {xs : List α} {k : β} :
    k ∈ (distinct key seen xs).map key ↔ k ∈ xs.map key ∧ k ∉ seen := by
  induction xs generalizing seen with
  | nil => simp [distinct]
  | cons x xs ih =>
    unfold distinct
    by_cases old : key x ∈ seen
    · rw [if_pos (by simpa using old), ih, List.map_cons, List.mem_cons]
      constructor
      · rintro ⟨found, fresh⟩
        exact ⟨.inr found, fresh⟩
      · rintro ⟨rfl | found, fresh⟩
        · exact absurd old fresh
        · exact ⟨found, fresh⟩
    · rw [if_neg (by simpa using old), List.map_cons, List.mem_cons, ih, List.map_cons,
        List.mem_cons, Std.HashSet.mem_insert, beq_iff_eq]
      constructor
      · rintro (rfl | ⟨found, fresh⟩)
        · exact ⟨.inl rfl, old⟩
        · exact ⟨.inr found, fun known => fresh (.inr known)⟩
      · rintro ⟨rfl | found, fresh⟩
        · exact .inl rfl
        · by_cases same : key x = k
          · exact .inl same.symm
          · exact .inr ⟨found, fun known => known.elim same fresh⟩

/-- Of the elements that share a new key, the distinct one is the first. -/
theorem mem_distinct {key : α → β} {seen : Std.HashSet β} {xs : List α} {x : α} :
    x ∈ distinct key seen xs ↔
      key x ∉ seen ∧ xs.find? (fun other => key other == key x) = some x := by
  induction xs generalizing seen with
  | nil => simp [distinct]
  | cons other xs ih =>
    unfold distinct
    by_cases same : key other = key x
    · rw [List.find?_cons_of_pos (by simpa using same), Option.some.injEq, ← same]
      by_cases old : key other ∈ seen
      · rw [if_pos (by simpa using old), ih]
        simp [← same, old]
      · rw [if_neg (by simpa using old), List.mem_cons, ih]
        simp [← same, old, eq_comm]
    · rw [List.find?_cons_of_neg (by simpa using same)]
      by_cases old : key other ∈ seen
      · rw [if_pos (by simpa using old), ih]
      · have differs : x ≠ other := fun h => same (congrArg key h.symm)
        rw [if_neg (by simpa using old), List.mem_cons, ih]
        simp [same, differs]

/-- No two distinct elements share a key. -/
theorem nodup_map_distinct (key : α → β) (seen : Std.HashSet β) (xs : List α) :
    ((distinct key seen xs).map key).Nodup := by
  induction xs generalizing seen with
  | nil => simp [distinct]
  | cons x xs ih =>
    unfold distinct
    split
    · exact ih seen
    · rw [List.map_cons, List.nodup_cons]
      exact ⟨fun found => (mem_map_distinct.mp found).2 Std.HashSet.mem_insert_self, ih _⟩

end SystemCombination
