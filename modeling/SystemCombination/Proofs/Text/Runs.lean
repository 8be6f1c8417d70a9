import Mathlib.Data.List.TakeWhile
import SystemCombination.Proofs.Text.Words

/-! The words of a text as they stand in it. `Runs` reads a text from the left: blanks are passed
over, and a word goes on for as long as no blank comes. `words_eq_iff` says that `words` finds these
words and no others. Blanks between two texts keep their words apart. -/

namespace SystemCombination.Text

/-- The text consists of the words, in this order, and of blanks; each word ends at a blank or at
the end of the text. -/
inductive Runs : List Char → List (List Char) → Prop
  | nil : Runs [] []
  | blank {c : Char} {rest : List Char} {runs : List (List Char)} (blank : isBlank c = true)
      (later : Runs rest runs) : Runs (c :: rest) runs
  | word {word rest : List Char} {runs : List (List Char)} (nonempty : word ≠ [])
      (content : ∀ c ∈ word, isBlank c = false) (ends : ∀ c ∈ rest.head?, isBlank c = true)
      (later : Runs rest runs) : Runs (word ++ rest) (word :: runs)

/-! ### Words of texts that are put together -/

theorem words_of_content {word : List Char} (nonempty : word ≠ [])
    (content : ∀ c ∈ word, isBlank c = false) : words word = [word] := by
  rw [words, List.splitOnP_eq_singleton content]
  simp [nonempty]

/-- The last word of a text ends with it when a blank or nothing follows. -/
theorem words_append_of_head (left : List Char) {right : List Char}
    (ends : ∀ c ∈ right.head?, isBlank c = true) :
    words (left ++ right) = words left ++ words right := by
  cases right with
  | nil => simp [words]
  | cons c right => rw [words_append left right (ends c rfl), words_cons_blank (ends c rfl)]

theorem words_blank_append {gap : List Char} (blank : AllBlank gap) (cs : List Char) :
    words (gap ++ cs) = words cs := by
  induction gap with
  | nil => rfl
  | cons c gap ih =>
    obtain ⟨first, others⟩ := List.forall_mem_cons.mp blank
    rw [List.cons_append, words_cons_blank first, ih others]

theorem words_append_blank {gap : List Char} (blank : AllBlank gap) (cs : List Char) :
    words (cs ++ gap) = words cs := by
  have ends : ∀ c ∈ gap.head?, isBlank c = true := fun c first =>
    blank c (List.mem_of_mem_head? first)
  rw [words_append_of_head cs ends, words_eq_nil_iff.mpr blank, List.append_nil]

/-- Blanks between two texts, at least one, keep their words apart. -/
theorem words_append_gap (left : List Char) {gap : List Char} (nonempty : gap ≠ [])
    (blank : AllBlank gap) (right : List Char) :
    words (left ++ gap ++ right) = words left ++ words right := by
  have ends : ∀ c ∈ (gap ++ right).head?, isBlank c = true := by
    obtain ⟨c, gap, rfl⟩ := List.exists_cons_of_ne_nil nonempty
    rintro _ ⟨⟩
    exact blank c List.mem_cons_self
  rw [List.append_assoc, words_append_of_head left ends, words_blank_append blank]

/-! ### The words that stand in a text -/

theorem Runs.words_eq {cs : List Char} {runs : List (List Char)} (h : Runs cs runs) :
    words cs = runs := by
  induction h with
  | nil => rfl
  | blank blank _ ih => rw [words_cons_blank blank, ih]
  | word nonempty content ends _ ih =>
    rw [words_append_of_head _ ends, words_of_content nonempty content, ih]
    rfl

theorem exists_runs (cs : List Char) : ∃ runs, Runs cs runs := by
  induction size : cs.length using Nat.strongRecOn generalizing cs with
  | ind size ih =>
  cases cs with
  | nil => exact ⟨[], .nil⟩
  | cons c cs =>
    have shorter {rest : List Char} (h : rest.length ≤ cs.length) : ∃ runs, Runs rest runs :=
      ih rest.length (by rw [← size]; exact Nat.lt_succ_of_le h) rest rfl
    cases blank : isBlank c with
    | true =>
      obtain ⟨runs, later⟩ := shorter (Nat.le_refl _)
      exact ⟨runs, .blank blank later⟩
    | false =>
      -- The word is all that stands before the first blank.
      let word := c :: cs.takeWhile fun c => !isBlank c
      let rest := cs.dropWhile fun c => !isBlank c
      have content : ∀ d ∈ word, isBlank d = false :=
        List.forall_mem_cons.mpr ⟨blank, fun d inside => by
          simpa using List.mem_takeWhile_imp inside⟩
      have ends : ∀ d ∈ rest.head?, isBlank d = true := by
        intro d first
        have stopped := List.head?_dropWhile_not (fun c => !isBlank c) cs
        rw [Option.mem_def.mp first] at stopped
        simpa using stopped
      obtain ⟨runs, later⟩ := shorter (List.dropWhile_suffix _).length_le
      have cut : Runs (word ++ rest) (word :: runs) :=
        .word (List.cons_ne_nil _ _) content ends later
      rw [List.cons_append, List.takeWhile_append_dropWhile] at cut
      exact ⟨_, cut⟩

theorem words_eq_iff {cs : List Char} {runs : List (List Char)} :
    words cs = runs ↔ Runs cs runs := by
  refine ⟨fun same => ?_, Runs.words_eq⟩
  obtain ⟨found, h⟩ := exists_runs cs
  rwa [← same, h.words_eq]

end SystemCombination.Text
