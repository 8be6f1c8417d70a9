import SystemCombination.Model.Corpus
import SystemCombination.Proofs.Text.Lines
import SystemCombination.Proofs.Text.Runs
import SystemCombination.Proofs.Vocabulary.Insertions

/-! A corpus and the text that it is read from. A line end separates words like any other blank, so
reading line by line finds the words of the whole text: `ofLines_encode` says what a text comes to.
Texts that follow each other on lines of their own add up. -/

namespace SystemCombination.Text

theorem words_dropEnd (line : List Char) : words (dropEnd '\r' line) = words line := by
  rcases List.eq_nil_or_concat line with rfl | ⟨line, c, rfl⟩
  · rfl
  · rw [List.concat_eq_append, dropEnd_concat]
    split
    · next carriageReturn =>
      obtain rfl := eq_of_beq carriageReturn
      exact (words_append_blank (by decide) line).symm
    · rfl

theorem words_intercalate_newline (lines : List (List Char)) :
    words (['\n'].intercalate lines) = lines.flatMap words := by
  induction lines with
  | nil => rfl
  | cons line lines ih =>
    cases lines with
    | nil => simp
    | cons next lines =>
      rw [List.intercalate_cons_cons, List.append_assoc, List.singleton_append,
        words_append _ _ blank_newline, ih, ← List.flatMap_cons]

/-- The words of a text are those of its lines, one line after the other. -/
theorem flatMap_words_splitOn (cs : List Char) : (cs.splitOn '\n').flatMap words = words cs := by
  rw [← words_intercalate_newline, List.intercalate_splitOn]

/-- The words of each line that has any. -/
def sentencesOf (lines : List (List Char)) : List (List (List Char)) :=
  (lines.map words).filter fun sentence => !sentence.isEmpty

theorem flatten_sentencesOf (lines : List (List Char)) :
    (sentencesOf lines).flatten = lines.flatMap words := by
  rw [sentencesOf, List.flatten_filter_not_isEmpty, List.flatMap]

theorem length_sentencesOf (lines : List (List Char)) :
    (sentencesOf lines).length = lines.countP fun line => ¬ AllBlank line := by
  rw [sentencesOf, ← List.countP_eq_length_filter, List.countP_map]
  refine List.countP_congr fun line _ => ?_
  simp [words_eq_nil_iff]

/-- Neither a carriage return at the end of a line nor an empty last line makes a difference. -/
theorem sentencesOf_lines (cs : List Char) :
    sentencesOf (lines '\r' '\n' cs) = sentencesOf (cs.splitOn '\n') := by
  have same : words ∘ dropEnd '\r' = words := funext words_dropEnd
  have ne := List.splitOn_ne_nil '\n' cs
  obtain ⟨before, last, cut⟩ := (List.eq_nil_or_concat (cs.splitOn '\n')).resolve_left ne
  simp only [sentencesOf, lines, cut, List.concat_eq_append, List.dropLast_concat,
    List.getLast?_concat, List.map_append, List.map_map, same, List.filter_append]
  cases last with
  | nil => rfl
  | cons => rfl

end SystemCombination.Text

namespace SystemCombination.Model.Corpus

open Text

/-- The corpus with sentences added. -/
def addSentences (corpus : Corpus) (sentences : List (List (List Char))) : Corpus where
  vocabulary := corpus.vocabulary.insertAll (sentences.flatten.map String.ofList)
  sentences := corpus.sentences + sentences.length
  tokens := corpus.tokens + sentences.flatten.length

theorem addSentences_append (corpus : Corpus) (before after : List (List (List Char))) :
    (corpus.addSentences before).addSentences after = corpus.addSentences (before ++ after) := by
  simp only [addSentences, Vocabulary.insertAll, List.flatten_append, List.map_append,
    List.foldl_append, List.length_append, Nat.add_assoc]

theorem addLine_eq (corpus : Corpus) (line : List Char) :
    corpus.addLine line = corpus.addSentences (sentencesOf [line]) := by
  cases found : words line with
  | nil => simp [addLine, found, sentencesOf, addSentences, Vocabulary.insertAll]
  | cons word others => simp [addLine, found, sentencesOf, addSentences]

theorem addLines_texts (corpus : Corpus) (lines : List (List Char)) :
    corpus.addLines (lines.map fun line => .ok (String.ofList line)) =
      .ok (corpus.addSentences (sentencesOf lines)) := by
  induction lines generalizing corpus with
  | nil => simp [addLines, sentencesOf, addSentences, Vocabulary.insertAll]
  | cons line lines ih =>
    have split : sentencesOf (line :: lines) = sentencesOf [line] ++ sentencesOf lines := by
      rw [sentencesOf, sentencesOf, sentencesOf, ← List.filter_append, ← List.map_append]
      rfl
    rw [List.map_cons, addLines, String.toList_ofList, ih, addLine_eq, addSentences_append, split]

/-! ### Texts -/

/-- The words of a text. -/
def wordsOf (text : String) : List String := (words text.toList).map String.ofList

/-- What a text with a word comes to. -/
def ofText (text : String) : Corpus where
  vocabulary := .ofList (wordsOf text)
  sentences := (text.toList.splitOn '\n').countP fun line => ¬ AllBlank line
  tokens := (wordsOf text).length

/-- Reading a text line by line comes to the same as taking it as a whole. -/
theorem ofLines_encode (text : String) :
    ofLines (linesOfBytes (encode text)) =
      if AllBlank text.toList then .error .empty else .ok (ofText text) := by
  have whole : (⟨.empty, 0, 0⟩ : Corpus).addLines (linesOfBytes (encode text)) =
      .ok (ofText text) := by
    rw [linesOfBytes_encode, addLines_texts, linesOfText, sentencesOf_lines, addSentences,
      flatten_sentencesOf, flatMap_words_splitOn, length_sentencesOf, Nat.zero_add, Nat.zero_add,
      ofText, wordsOf, List.length_map, Vocabulary.ofList]
  have silent : (ofText text).tokens = 0 ↔ AllBlank text.toList := by
    rw [ofText, List.length_eq_zero_iff, wordsOf, List.map_eq_nil_iff, words_eq_nil_iff]
  simp only [ofLines, whole, bind, Except.bind, silent]

/-- The corpus has the counts of the text, and the words of the text have numbers in the order in
which they first come in it. -/
structure Surveys (text : String) (corpus : Corpus) : Prop where
  tokens : corpus.tokens = (wordsOf text).length
  sentences : corpus.sentences = (text.toList.splitOn '\n').countP fun line => ¬ AllBlank line
  index : corpus.vocabulary.Numbers (wordsOf text)
  word : ∀ number, corpus.vocabulary.word? number = (wordsOf text).eraseDups[number]?

theorem surveys_ofText (text : String) : Surveys text (ofText text) where
  tokens := rfl
  sentences := rfl
  index := Vocabulary.numbers_ofList (wordsOf text)
  word number := by
    rw [Vocabulary.word?, ← Array.getElem?_toList, ofText, Vocabulary.toList_words_ofList]

theorem ofLines_eq_ok_iff {text : String} {corpus : Corpus} :
    ofLines (linesOfBytes (encode text)) = .ok corpus ↔
      ¬ AllBlank text.toList ∧ corpus = ofText text := by
  rw [ofLines_encode]
  split
  · next blank => simp [blank]
  · next content => simp [content, eq_comm]

section NewLine

variable {text : String} (ended : text.toList.getLast? = some '\n') (other : String)

include ended

theorem wordsOf_append : wordsOf (text ++ other) = wordsOf text ++ wordsOf other := by
  obtain ⟨start, whole⟩ := List.getLast?_eq_some_iff.mp ended
  have alone : words text.toList = words start := by
    rw [whole, words_append start [] blank_newline]
    exact List.append_nil _
  rw [wordsOf, wordsOf, wordsOf, alone, String.toList_append, whole, List.append_assoc,
    List.singleton_append, words_append start _ blank_newline, List.map_append]

theorem sentences_append :
    (ofText (text ++ other)).sentences = (ofText text).sentences + (ofText other).sentences := by
  obtain ⟨start, whole⟩ := List.getLast?_eq_some_iff.mp ended
  have alone : text.toList.splitOn '\n' = start.splitOn '\n' ++ [[]] := by
    rw [whole, List.splitOn_append_cons_self, List.splitOn_nil]
  have both : (text ++ other).toList.splitOn '\n' =
      start.splitOn '\n' ++ other.toList.splitOn '\n' := by
    rw [String.toList_append, whole, List.append_assoc, List.singleton_append,
      List.splitOn_append_cons_self]
  simp only [ofText, alone, both, List.countP_append]
  rfl

/-- Where the second text begins on a new line, the corpora add up: the words of the first keep
their numbers, and the other words of the second come behind them. -/
theorem ofLines_append {first second : Corpus}
    (isFirst : ofLines (linesOfBytes (encode text)) = .ok first)
    (isSecond : ofLines (linesOfBytes (encode other)) = .ok second) :
    ∃ both, ofLines (linesOfBytes (encode (text ++ other))) = .ok both ∧
      both.sentences = first.sentences + second.sentences ∧
      both.tokens = first.tokens + second.tokens ∧
      first.vocabulary.words.toList <+: both.vocabulary.words.toList ∧
      ∀ word, word ∈ both.vocabulary.words.toList ↔
        word ∈ first.vocabulary.words.toList ∨ word ∈ second.vocabulary.words.toList := by
  obtain ⟨content, rfl⟩ := ofLines_eq_ok_iff.mp isFirst
  obtain ⟨-, rfl⟩ := ofLines_eq_ok_iff.mp isSecond
  have content' : ¬ AllBlank (text ++ other).toList := fun blank => content fun c member =>
    blank c (by simp [member])
  refine ⟨_, ofLines_eq_ok_iff.mpr ⟨content', rfl⟩, sentences_append ended other, ?_, ?_, ?_⟩
  · simp only [ofText, wordsOf_append ended, List.length_append]
  · simp only [ofText, wordsOf_append ended]
    exact Vocabulary.prefix_words_ofList _ _
  · intro word
    simp only [ofText, wordsOf_append ended, Vocabulary.mem_words_ofList, List.mem_append]

end NewLine

/-- Reading a text line by line agrees with taking it as a whole: it is refused if it is blank, and
otherwise gives the corpus of all its words and of its lines that are not blank. A text that begins
on a new line behind another adds its counts to those of the other, moves none of its words, and
adds no words but its own. -/
theorem ofLines_surveys (text : String) :
    let read (text : String) := ofLines (linesOfBytes (encode text))
    (read text = .error .empty ↔ AllBlank text.toList) ∧
    (¬ AllBlank text.toList → ∃ corpus, read text = .ok corpus ∧ Surveys text corpus) ∧
    ∀ other first second, text.toList.getLast? = some '\n' →
      read text = .ok first → read other = .ok second →
      ∃ both, read (text ++ other) = .ok both ∧
        both.sentences = first.sentences + second.sentences ∧
        both.tokens = first.tokens + second.tokens ∧
        (∀ word number, first.vocabulary.index? word = some number →
          both.vocabulary.index? word = some number) ∧
        ∀ word, (both.vocabulary.index? word).isSome = true ↔
          (first.vocabulary.index? word).isSome = true ∨
            (second.vocabulary.index? word).isSome = true := by
  intro read
  refine ⟨?empty, fun content => ?corpus, fun other first second ended isFirst isSecond => ?both⟩
  case empty =>
    simp only [read, ofLines_encode]
    split
    · next blank => simp [blank]
    · next content => simp [content]
  case corpus => exact ⟨_, ofLines_eq_ok_iff.mpr ⟨content, rfl⟩, surveys_ofText text⟩
  case both =>
    obtain ⟨both, isBoth, sentences, tokens, kept, union⟩ :=
      ofLines_append ended other isFirst isSecond
    refine ⟨both, isBoth, sentences, tokens, fun word number found => ?_, fun word => ?_⟩
    · exact Vocabulary.index?_of_prefix kept found
    · simp only [Vocabulary.isSome_index?_iff, ← Array.mem_toList_iff]
      exact union word

/-- Two words on one line, with a line separator between them, and two on a line of their own. -/
theorem ofLines_surveys_of_line_separator :
    ∃ first second both : Corpus,
      ofLines (linesOfBytes (encode "the\u2028cat\r\n\n")) = .ok first ∧
      first.sentences = 1 ∧ first.tokens = 2 ∧ first.vocabulary.index? "cat" = some 1 ∧
      ofLines (linesOfBytes (encode "the dog")) = .ok second ∧
      ofLines (linesOfBytes (encode "the\u2028cat\r\n\nthe dog")) = .ok both ∧
      both.sentences = 2 ∧ both.tokens = 4 ∧ both.vocabulary.index? "cat" = some 1 ∧
      (both.vocabulary.index? "dog").isSome = true ∧
      ofLines (linesOfBytes (encode "\u2028\r\n")) = .error .empty := by
  obtain ⟨-, accepted, adds⟩ := ofLines_surveys "the\u2028cat\r\n\n"
  obtain ⟨first, isFirst, surveys⟩ := accepted (by decide)
  obtain ⟨second, isSecond, surveys'⟩ := (ofLines_surveys "the dog").2.1 (by decide)
  obtain ⟨both, isBoth, sentences, tokens, kept, union⟩ :=
    adds "the dog" first second (by decide) isFirst isSecond
  have cat : first.vocabulary.index? "cat" = some 1 :=
    surveys.index.number 1 (by decide) "cat" (by decide)
  have dog : second.vocabulary.index? "dog" = some 1 :=
    surveys'.index.number 1 (by decide) "dog" (by decide)
  have one : first.sentences = 1 := surveys.sentences.trans (by decide)
  have two : first.tokens = 2 := surveys.tokens.trans (by decide)
  have one' : second.sentences = 1 := surveys'.sentences.trans (by decide)
  have two' : second.tokens = 2 := surveys'.tokens.trans (by decide)
  refine ⟨first, second, both, isFirst, one, two, cat, isSecond, isBoth, ?_, ?_,
    kept "cat" 1 cat, (union "dog").mpr (.inr ?_), (ofLines_surveys "\u2028\r\n").1.mpr (by decide)⟩
  · rw [sentences, one, one']
  · rw [tokens, two, two']
  · rw [dog]
    rfl

end SystemCombination.Model.Corpus
