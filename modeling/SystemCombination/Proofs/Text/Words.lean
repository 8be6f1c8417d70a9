import SystemCombination.Text.Blank

/-! Words and what they make. A word has a character and no blank, a text without words is blank,
and the words of a line with single spaces between them are a line again, blank only if the first
one was. -/

namespace SystemCombination.Text

theorem mem_splitOnP {α : Type} {separates : α → Bool} {run xs : List α}
    (h : run ∈ xs.splitOnP separates) : (∀ x ∈ run, separates x = false) ∧ run ⊆ xs := by
  induction xs generalizing run with
  | nil =>
    rw [List.splitOnP_nil, List.mem_singleton] at h
    subst h
    simp
  | cons x xs ih =>
    rw [List.splitOnP_cons_eq_if_modifyHead] at h
    split at h
    · rcases List.mem_cons.mp h with rfl | later
      · simp
      · exact ⟨(ih later).1, List.subset_cons_of_subset x (ih later).2⟩
    · next differs =>
      obtain ⟨first, others, cut⟩ :=
        List.exists_cons_of_ne_nil (List.splitOnP_ne_nil separates xs)
      rw [cut, List.modifyHead_cons] at h
      rw [cut] at ih
      rcases List.mem_cons.mp h with rfl | later
      · have ⟨fresh, inside⟩ := ih List.mem_cons_self
        exact ⟨List.forall_mem_cons.mpr ⟨Bool.not_eq_true _ ▸ differs, fresh⟩,
          List.cons_subset_cons x inside⟩
      · have ⟨fresh, inside⟩ := ih (List.mem_cons_of_mem first later)
        exact ⟨fresh, List.subset_cons_of_subset x inside⟩

theorem mem_words {word cs : List Char} (h : word ∈ words cs) :
    word ≠ [] ∧ ∀ c ∈ word, isBlank c = false := by
  have ⟨run, nonempty⟩ := List.mem_filter.mp h
  exact ⟨by simpa using nonempty, (mem_splitOnP run).1⟩

theorem words_cons_blank {c : Char} (blank : isBlank c = true) (cs : List Char) :
    words (c :: cs) = words cs := words_append [] cs blank

theorem words_cons {c : Char} (content : isBlank c = false) (cs : List Char) :
    words (c :: cs) ≠ [] := by
  obtain ⟨first, others, cut⟩ := List.exists_cons_of_ne_nil (List.splitOnP_ne_nil isBlank cs)
  rw [words, List.splitOnP_cons_eq_if_modifyHead, content, cut]
  simp

theorem words_eq_nil_iff {cs : List Char} : words cs = [] ↔ AllBlank cs := by
  induction cs with
  | nil => simp [words, AllBlank]
  | cons c cs ih =>
    cases blank : isBlank c with
    | true =>
      rw [words_cons_blank blank, ih]
      simp [AllBlank, blank]
    | false =>
      refine iff_of_false (words_cons blank cs) fun all => ?_
      simp [all c List.mem_cons_self] at blank

theorem mem_intercalate {α : Type} {x : α} {separator : List α} {runs : List (List α)}
    (h : x ∈ separator.intercalate runs) : x ∈ separator ∨ ∃ run ∈ runs, x ∈ run := by
  induction runs with
  | nil => simp at h
  | cons run runs ih =>
    by_cases last : runs = []
    · subst last
      rw [List.intercalate_singleton] at h
      exact .inr ⟨run, List.mem_cons_self, h⟩
    · rw [List.intercalate_cons_of_ne_nil last, List.mem_append, List.mem_append] at h
      rcases h with (here | between) | later
      · exact .inr ⟨run, List.mem_cons_self, here⟩
      · exact .inl between
      · refine (ih later).imp_right ?_
        rintro ⟨other, member, inside⟩
        exact ⟨other, List.mem_cons_of_mem run member, inside⟩

theorem head_subset_intercalate {α : Type} (separator run : List α) (runs : List (List α)) :
    run ⊆ separator.intercalate (run :: runs) := by
  cases runs with
  | nil => simp
  | cons other runs =>
    rw [List.intercalate_cons_cons, List.append_assoc]
    exact List.subset_append_left _ _

/-- The words of a line with a single space between them. -/
def respaced (line : String) : String :=
  " ".intercalate ((words line.toList).map String.ofList)

theorem toList_respaced (line : String) :
    (respaced line).toList = [' '].intercalate (words line.toList) := by
  rw [respaced, String.toList_intercalate, List.map_map]
  congr 1
  exact (List.map_congr_left fun word _ => String.toList_ofList).trans (List.map_id _)

/-- A text whose only blank is the space. -/
def Inline (text : String) : Prop := ∀ c ∈ text.toList, isBlank c = true → c = ' '

instance (text : String) : Decidable (Inline text) :=
  List.decidableBAll (fun c => isBlank c = true → c = ' ') text.toList

theorem Inline.not_mem {text : String} (h : Inline text) {c : Char} (blank : isBlank c = true)
    (other : c ≠ ' ') : c ∉ text.toList :=
  fun member => other (h c member blank)

theorem Inline.append {left right : String} (h : Inline left) (h' : Inline right) :
    Inline (left ++ right) := by
  intro c member
  rw [String.toList_append, List.mem_append] at member
  exact member.elim (h c) (h' c)

theorem isBlank_of_isDigit {c : Char} (h : c.isDigit = true) : isBlank c = false := by
  have digit : 48 ≤ c.toNat ∧ c.toNat ≤ 57 := Char.isDigit_iff_toNat.mp h
  simp only [isBlank, blankRanges, List.any_cons, List.any_nil, Bool.or_false, Bool.or_eq_false_iff,
    Bool.and_eq_false_iff, decide_eq_false_iff_not]
  omega

theorem inline_ofList {cs : List Char} (h : ∀ c ∈ cs, c.isDigit = true) :
    Inline (String.ofList cs) := by
  intro c member blank
  rw [String.toList_ofList] at member
  rw [isBlank_of_isDigit (h c member)] at blank
  cases blank

theorem inline_toString (n : Nat) : Inline (toString n) := by
  rw [Nat.toString_eq_repr, Nat.repr_eq_ofList_toDigits]
  exact inline_ofList fun c member => Nat.isDigit_of_mem_toDigits (by decide) (by decide) member

theorem inline_respaced (line : String) : Inline (respaced line) := by
  intro c member blank
  rw [toList_respaced] at member
  rcases mem_intercalate member with space | ⟨word, isWord, inside⟩
  · exact List.mem_singleton.mp space
  · rw [(mem_words isWord).2 c inside] at blank
    cases blank

theorem newline_not_mem_respaced (line : String) : '\n' ∉ (respaced line).toList :=
  (inline_respaced line).not_mem blank_newline (by decide)

theorem not_allBlank_respaced {line : String} (content : ¬AllBlank line.toList) :
    ¬AllBlank (respaced line).toList := by
  obtain ⟨word, others, cut⟩ := List.exists_cons_of_ne_nil (mt words_eq_nil_iff.mp content)
  have ⟨nonempty, fresh⟩ := mem_words (cut ▸ List.mem_cons_self : word ∈ words line.toList)
  obtain ⟨c, cs, rfl⟩ := List.exists_cons_of_ne_nil nonempty
  intro blank
  rw [toList_respaced, cut] at blank
  have isBlank := blank c (head_subset_intercalate _ _ _ List.mem_cons_self)
  rw [fresh c List.mem_cons_self] at isBlank
  cases isBlank

end SystemCombination.Text
