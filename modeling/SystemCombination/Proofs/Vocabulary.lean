import Mathlib.Algebra.Group.Nat.Defs
import Mathlib.Data.List.Induction
import SystemCombination.Vocabulary

/-! The words of a vocabulary and their numbers. A word is known when it is among the words, its
number is its place, and the words that were inserted stand in the order in which they first
came. -/

namespace SystemCombination.Vocabulary

variable {v : Vocabulary} {word : String} {place : Nat}

theorem isSome_index?_iff : (v.index? word).isSome = true ↔ word ∈ v.words := by
  rw [index?, Option.isSome_map, Option.isSome_iff_exists, Array.mem_iff_getElem?]
  simp only [v.places_iff]

theorem index?_of_word (h : v.words[place]? = some word) :
    v.index? word = some (numberAt place) := by
  rw [index?, (v.places_iff word place).mpr h]
  rfl

/-- A word that is known already stays where it is; another goes behind the others. -/
theorem toList_words_insert (v : Vocabulary) (word : String) :
    (v.insert word).2.words.toList =
      if word ∈ v.words.toList then v.words.toList else v.words.toList ++ [word] := by
  cases found : v.places[word]? with
  | some place =>
    have stands := (v.places_iff word place).mp found
    rw [insert_of_known found, if_pos (Array.mem_of_getElem? stands).val]
  | none =>
    have absent : word ∉ v.words.toList := by
      intro member
      obtain ⟨place, stands⟩ := Array.mem_iff_getElem?.mp (Array.mem_toList_iff.mp member)
      exact word_ne_of_no_place found place stands
    rw [insert_of_unknown found, if_neg absent, push, Array.toList_push]

theorem ofList_append (words : List String) (word : String) :
    ofList (words ++ [word]) = ((ofList words).insert word).2 := by
  rw [ofList, ofList, insertAll, insertAll, List.foldl_append]
  rfl

/-- The words stand in the order in which they first came, each once. -/
theorem toList_words_ofList (words : List String) :
    (ofList words).words.toList = words.eraseDups := by
  induction words using List.reverseRecOn with
  | nil => rfl
  | append_singleton words word ih =>
    rw [ofList_append, toList_words_insert, ih, List.eraseDups_append]
    by_cases known : word ∈ words <;> simp [List.removeAll, List.eraseDups_cons, known]

theorem isEmpty_ofList (words : List String) : (ofList words).isEmpty = words.isEmpty := by
  rw [isEmpty, ← Array.isEmpty_toList, toList_words_ofList]
  cases words with
  | nil => rfl
  | cons word words => rw [List.eraseDups_cons, List.isEmpty_cons, List.isEmpty_cons]

/-! ### The numbers of the words -/

theorem numberAt_of_lt (h : place < 2 ^ 32) : numberAt place = place := by
  have last : (2 ^ 32 - 1 : Nat) = largestNumber := rfl
  exact Nat.min_eq_left (by omega)

theorem numberAt_of_ge (h : 2 ^ 32 ≤ place) : numberAt place = 2 ^ 32 - 1 := by
  have last : (2 ^ 32 - 1 : Nat) = largestNumber := rfl
  exact Nat.min_eq_right (by omega)

/-- The words of a list are known, and no others. They are numbered from 0 in the order in which
they first come; past the `2 ^ 32` numbers that there are, words share the last one. -/
structure Numbers (v : Vocabulary) (words : List String) : Prop where
  known : ∀ word, (v.index? word).isSome = true ↔ word ∈ words
  number : ∀ place < 2 ^ 32, ∀ word, words.eraseDups[place]? = some word →
    v.index? word = some place
  last : ∀ place ≥ 2 ^ 32, ∀ word, words.eraseDups[place]? = some word →
    v.index? word = some (2 ^ 32 - 1)

theorem numbers_ofList (words : List String) : (ofList words).Numbers words := by
  have index (place : Nat) (word : String) (stands : words.eraseDups[place]? = some word) :
      (ofList words).index? word = some (numberAt place) := by
    apply index?_of_word
    rw [← Array.getElem?_toList, toList_words_ofList, stands]
  refine ⟨fun word => ?_, fun place fits word stands => ?_, fun place past word stands => ?_⟩
  · rw [isSome_index?_iff, ← Array.mem_toList_iff, toList_words_ofList, List.mem_eraseDups]
  · rw [index place word stands, numberAt_of_lt fits]
  · rw [index place word stands, numberAt_of_ge past]

/-! ### Words that come in addition -/

theorem prefix_words_insert (v : Vocabulary) (word : String) :
    v.words.toList <+: (v.insert word).2.words.toList := by
  rw [toList_words_insert]
  split
  · exact List.prefix_rfl
  · exact List.prefix_append ..

/-- More words go behind those that are known. -/
theorem prefix_words_insertAll (v : Vocabulary) (words : List String) :
    v.words.toList <+: (v.insertAll words).words.toList := by
  induction words generalizing v with
  | nil => exact List.prefix_rfl
  | cons word words ih => exact (prefix_words_insert v word).trans (ih (v.insert word).2)

/-- Words keep their numbers when more words go behind them. -/
theorem index?_of_prefix {v v' : Vocabulary} (h : v.words.toList <+: v'.words.toList)
    {word : String} {number : WordNumber} (found : v.index? word = some number) :
    v'.index? word = some number := by
  obtain ⟨place, stands, rfl⟩ := Option.map_eq_some_iff.mp found
  have stands := (v.places_iff word place).mp stands
  rw [← Array.getElem?_toList] at stands
  obtain ⟨more, rest⟩ := h
  have inside : place < v.words.toList.length := (List.getElem?_eq_some_iff.mp stands).1
  apply index?_of_word
  rw [← Array.getElem?_toList, ← rest, List.getElem?_append_left inside, stands]

end SystemCombination.Vocabulary
