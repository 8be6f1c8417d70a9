import Mathlib.Algebra.Group.Nat.Defs
import Mathlib.Data.Finset.Card
import Mathlib.Data.List.Basic
import SystemCombination.Proofs.Vocabulary

/-! The numbers that a sequence of insertions gives. As long as there are no more words than
numbers, every word has the number of its place, so that looking up a word and looking up its number
are inverse to each other. The words stand in the order in which they were first inserted, and a
later insertion moves none of them. -/

namespace SystemCombination.Vocabulary

variable {v : Vocabulary} {word other : String} {words : List String} {number : WordNumber}

/-! ### One insertion -/

/-- The number that an insertion gives is the one that the word has from then on. -/
theorem index?_insert (v : Vocabulary) (word : String) :
    (v.insert word).2.index? word = some (v.insert word).1 := by
  cases found : v.places[word]? with
  | some place =>
    rw [insert_of_known found]
    exact index?_of_word ((v.places_iff word place).mp found)
  | none =>
    rw [insert_of_unknown found]
    exact index?_of_word Array.getElem?_push_size

theorem insert_of_mem (known : word ∈ v.words.toList) : (v.insert word).2 = v := by
  obtain ⟨place, stands⟩ := Array.mem_iff_getElem?.mp (Array.mem_toList_iff.mp known)
  rw [insert_of_known ((v.places_iff word place).mpr stands)]

theorem index?_insert_of_index? (found : v.index? other = some number) (word : String) :
    (v.insert word).2.index? other = some number :=
  index?_of_prefix (prefix_words_insert v word) found

/-! ### The words of a sequence -/

theorem mem_words_ofList : word ∈ (ofList words).words.toList ↔ word ∈ words := by
  rw [toList_words_ofList, List.mem_eraseDups]

/-- The words stand in the order of their first insertions. -/
theorem pairwise_words_ofList (words : List String) :
    (ofList words).words.toList.Pairwise fun word other =>
      words.idxOf word < words.idxOf other := by
  induction words using List.reverseRecOn with
  | nil => exact .nil
  | append_singleton words last ih =>
    have earlier : (ofList words).words.toList.Pairwise fun word other =>
        (words ++ [last]).idxOf word < (words ++ [last]).idxOf other := by
      refine ih.imp_of_mem fun {word other} isWord isOther before => ?_
      rwa [List.idxOf_append_of_mem (mem_words_ofList.mp isWord),
        List.idxOf_append_of_mem (mem_words_ofList.mp isOther)]
    rw [ofList_append, toList_words_insert]
    split
    · exact earlier
    · next new =>
      refine List.pairwise_append.mpr ⟨earlier, List.pairwise_singleton .., ?_⟩
      intro word isWord other isLast
      obtain rfl := List.mem_singleton.mp isLast
      rw [mem_words_ofList] at isWord new
      rw [List.idxOf_append_of_mem isWord, List.idxOf_append_of_notMem new]
      exact Nat.lt_add_right _ (List.idxOf_lt_length_of_mem isWord)

theorem nodup_words_ofList (words : List String) : (ofList words).words.toList.Nodup :=
  (pairwise_words_ofList words).imp fun {word other} before same => by
    rw [same] at before
    exact Nat.lt_irrefl _ before

theorem size_ofList (words : List String) : (ofList words).size = words.toFinset.card := by
  have same : (ofList words).words.toList.toFinset = words.toFinset := by
    ext word
    rw [List.mem_toFinset, List.mem_toFinset, mem_words_ofList]
  rw [← same, List.toFinset_card_of_nodup (nodup_words_ofList words), Array.length_toList, size]

theorem prefix_words_ofList (before after : List String) :
    (ofList before).words.toList <+: (ofList (before ++ after)).words.toList := by
  have later : ofList (before ++ after) = (ofList before).insertAll after := List.foldl_append
  rw [later]
  exact prefix_words_insertAll _ after

/-! ### Words and numbers -/

theorem lt_size_of_word? (stands : v.word? number = some word) : number < v.size :=
  (Array.getElem?_eq_some_iff.mp stands).1

/-- Where there are no more words than numbers, no two places share a number. -/
theorem numberAt_of_lt_size (fits : v.size ≤ 2 ^ 32) {place : Nat} (inside : place < v.size) :
    numberAt place = place :=
  numberAt_of_lt (Nat.lt_of_lt_of_le inside fits)

theorem index?_eq_some_iff (fits : v.size ≤ 2 ^ 32) :
    v.index? word = some number ↔ v.word? number = some word := by
  constructor
  · intro found
    obtain ⟨place, stands, rfl⟩ := Option.map_eq_some_iff.mp found
    have isWord := (v.places_iff word place).mp stands
    rwa [numberAt_of_lt_size fits (lt_size_of_word? isWord)]
  · intro stands
    rw [index?_of_word stands, numberAt_of_lt_size fits (lt_size_of_word? stands)]

theorem idxOf_lt_iff {number' : WordNumber} (isWord : (ofList words).word? number = some word)
    (isOther : (ofList words).word? number' = some other) :
    number < number' ↔ words.idxOf word < words.idxOf other := by
  have rising {place place' : Nat} {word word' : String}
      (stands : (ofList words).words.toList[place]? = some word)
      (stands' : (ofList words).words.toList[place']? = some word') (before : place < place') :
      words.idxOf word < words.idxOf word' := by
    obtain ⟨_, rfl⟩ := List.getElem?_eq_some_iff.mp stands
    obtain ⟨_, rfl⟩ := List.getElem?_eq_some_iff.mp stands'
    exact List.pairwise_iff_getElem.mp (pairwise_words_ofList words) _ _ _ _ before
  rw [word?, ← Array.getElem?_toList] at isWord isOther
  refine ⟨rising isWord isOther, fun first => ?_⟩
  rcases Nat.lt_trichotomy number number' with before | rfl | after
  · exact before
  · rw [Option.some.inj (isWord.symm.trans isOther)] at first
    exact absurd first (Nat.lt_irrefl _)
  · exact absurd (rising isOther isWord after) (Nat.lt_asymm first)

/-- After insertions of no more different words than there are numbers, looking up a word and
looking up a number are inverse to each other, the numbers in use are those below the count of the
words, and they rise in the order of the first insertions. Each insertion gave the number that its
word has from then on, moved no word that was known, and changed nothing if its own was. -/
theorem numbers_of_insertions {words : List String} (fits : words.toFinset.card ≤ 2 ^ 32) :
    let v := ofList words
    v.size = words.toFinset.card ∧
    (∀ word number, v.index? word = some number ↔ v.word? number = some word) ∧
    (∀ number, (∃ word, v.index? word = some number) ↔ number < v.size) ∧
    (∀ word, (v.index? word).isSome = true ↔ word ∈ words) ∧
    (∀ word word' number number', v.index? word = some number → v.index? word' = some number' →
      (number < number' ↔ words.idxOf word < words.idxOf word')) ∧
    ∀ before word after, words = before ++ word :: after →
      let inserted := (ofList before).insert word
      inserted.2 = ofList (before ++ [word]) ∧
      inserted.2.index? word = some inserted.1 ∧ v.index? word = some inserted.1 ∧
      (∀ other number, (ofList before).index? other = some number →
        inserted.2.index? other = some number) ∧
      (word ∈ before → inserted.2 = ofList before) := by
  intro v
  have fits' : v.size ≤ 2 ^ 32 := by rwa [size_ofList]
  have inverse (word : String) (number : WordNumber) :
      v.index? word = some number ↔ v.word? number = some word := index?_eq_some_iff fits'
  refine ⟨size_ofList words, inverse, fun number => ?inUse, fun word => ?known,
    fun word word' number number' isNumber isNumber' => ?order,
    fun before word after whole => ?each⟩
  case inUse =>
    simp only [inverse]
    constructor
    · rintro ⟨word, stands⟩
      exact lt_size_of_word? stands
    · intro inside
      exact ⟨_, Array.getElem?_eq_getElem inside⟩
  case known =>
    rw [isSome_index?_iff, ← Array.mem_toList_iff]
    exact mem_words_ofList
  case order => exact idxOf_lt_iff ((inverse _ _).mp isNumber) ((inverse _ _).mp isNumber')
  case each =>
    intro inserted
    have next : inserted.2 = ofList (before ++ [word]) := (ofList_append before word).symm
    have numbered : inserted.2.index? word = some inserted.1 := index?_insert _ word
    have longer : (ofList (before ++ [word])).words.toList <+: v.words.toList := by
      have later := prefix_words_ofList (before ++ [word]) after
      rwa [List.append_assoc, List.singleton_append, ← whole] at later
    exact ⟨next, numbered, index?_of_prefix longer (next ▸ numbered),
      fun other number found => index?_insert_of_index? found word,
      fun known => insert_of_mem (mem_words_ofList.mpr known)⟩

/-- Three words of which the first comes again. -/
theorem numbers_of_insertions_of_repeated_word :
    ∃ words : List String, words.toFinset.card ≤ 2 ^ 32 ∧ (ofList words).size = 3 ∧
      (ofList words).index? "the" = some 0 ∧ (ofList words).word? 0 = some "the" ∧
      (ofList words).index? "sat" = some 2 ∧ (ofList words).index? "dog" = none ∧
      ((ofList ["the", "cat"]).insert "the").2 = ofList ["the", "cat"] := by
  let words := ["the", "cat", "the", "sat"]
  have fits : words.toFinset.card ≤ 2 ^ 32 := by decide
  obtain ⟨count, inverse, -, known, -, each⟩ := numbers_of_insertions fits
  have place (number : WordNumber) :
      (ofList words).word? number = ["the", "cat", "sat"][number]? := by
    rw [word?, ← Array.getElem?_toList, toList_words_ofList]
    rfl
  obtain ⟨-, -, -, -, again⟩ := each ["the", "cat"] "the" ["sat"] rfl
  refine ⟨words, fits, count, ?_, place 0, ?_, ?_, again (by decide)⟩
  · exact (inverse "the" 0).mpr (place 0)
  · exact (inverse "sat" 2).mpr (place 2)
  · have absent := mt (known "dog").mp (by decide)
    rwa [Bool.not_eq_true, Option.isSome_eq_false_iff, Option.isNone_iff_eq_none] at absent

/-- With one word more, two words share the last number. -/
theorem exists_shared_number {words : List String} (more : 2 ^ 32 < words.toFinset.card) :
    ∃ word other, word ≠ other ∧ (ofList words).index? word = some largestNumber ∧
      (ofList words).index? other = some largestNumber := by
  have inside : 2 ^ 32 < (ofList words).words.size := by
    rw [← size_ofList] at more
    exact more
  have shares {place : Nat} (past : 2 ^ 32 - 1 ≤ place) (h : place < (ofList words).words.size) :
      (ofList words).index? (ofList words).words[place] = some largestNumber := by
    have number : numberAt place = largestNumber := Nat.min_eq_right past
    rw [index?_of_word (Array.getElem?_eq_getElem h), number]
  have before : 2 ^ 32 - 1 < (ofList words).words.size := by omega
  refine ⟨_, _, fun same => ?_, shares (Nat.le_refl _) before, shares (by omega) inside⟩
  rw [← Array.getElem_toList, ← Array.getElem_toList] at same
  have places : 2 ^ 32 - 1 = 2 ^ 32 := (nodup_words_ofList words).getElem_inj_iff.mp same
  omega

end SystemCombination.Vocabulary
