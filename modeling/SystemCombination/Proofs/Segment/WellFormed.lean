import SystemCombination.Proofs.Decoder.Alike
import SystemCombination.Proofs.Decoder.NgramMatch
import SystemCombination.Proofs.Segment.AllMatches
import SystemCombination.Proofs.Segment.Calls
import SystemCombination.Proofs.Text.Words

/-! Segments that are well formed. Whatever the lines are, every segment that a reader yields is, so
the decoder finds a token in each of its lines, divides by no zero, and counts no more of anything
than there are tokens. -/

namespace SystemCombination

/-- A text with a character and without blanks. -/
def Text.IsWord (text : String) : Prop := text ≠ "" ∧ ∀ c ∈ text.toList, isBlank c = false

theorem Text.isWord_of_mem_words {word cs : List Char} (h : word ∈ words cs) :
    IsWord (String.ofList word) := by
  have ⟨nonempty, content⟩ := mem_words h
  refine ⟨fun empty => nonempty ?_, by simpa using content⟩
  simpa using congrArg String.toList empty

namespace Segment

/-- The word at a token, if its system has a line and the line such a position. -/
def wordAt? (segment : Segment) (token : TokenRef) : Option String :=
  segment.systems[token.system]?.bind fun line => line.tokens[token.position]?

theorem wordAt?_eq (segment : Segment) (token : TokenRef) :
    segment.wordAt? token =
      Alignment.wordAt? (segment.systems.map Rendition.tokens) token := by
  rw [wordAt?, Alignment.wordAt?, List.getElem?_map, Option.bind_map]
  rfl

/-- The alignments have a cell for each token. -/
def Filled (segment : Segment) : Prop :=
  ∀ (system : Nat) (line : Rendition), segment.systems[system]? = some line →
    (segment.alignments.row system).length = line.tokens.length

/-- A line for each confidence, with words that have been looked up, and a cell for each word that
names the same word in lines of other systems. -/
structure WellFormed (settings : InputSettings) (vocabulary : Vocabulary) (segment : Segment) :
    Prop where
  count : segment.systems.length = settings.confidences.length
  nonempty : segment.systems ≠ []
  tokens : ∀ line ∈ segment.systems, line.tokens ≠ []
  words : ∀ line ∈ segment.systems, ∀ token ∈ line.tokens, Text.IsWord token
  numbers : ∀ line ∈ segment.systems, line.numbers = line.tokens.map vocabulary.index?
  rows : segment.alignments.length = segment.systems.length
  cells : segment.Filled
  aligned : ∀ place, ∀ other ∈ segment.alignments.at place, other.system ≠ place.system ∧
    ∃ word, segment.wordAt? place = some word ∧ segment.wordAt? other = some word

section Paragraph

variable {settings : InputSettings} {vocabulary : Vocabulary} {index : Nat} {run : List String}
  {segment : Segment} (fits : run.length = settings.confidences.length)
  (isSegment : IsSegment settings vocabulary index run segment)

include fits isSegment

theorem exists_text {line : Rendition} (member : line ∈ segment.systems) :
    ∃ text ∈ run, ∃ confidence, line = Reader.rendition vocabulary text confidence := by
  obtain ⟨system, stands⟩ := List.mem_iff_getElem?.mp member
  exact isSegment.exists_line fits stands

/-- A paragraph with a line for each confidence makes a segment that is well formed. -/
theorem wellFormed_of_paragraph (formed : (Piece.paragraph run).Formed) :
    segment.WellFormed settings vocabulary where
  count := isSegment.count.trans fits
  nonempty := by
    have some_line := List.length_pos_iff.mpr formed.1
    exact List.ne_nil_of_length_pos (isSegment.count ▸ some_line)
  tokens line member := by
    obtain ⟨text, isText, _, rfl⟩ := exists_text fits isSegment member
    simpa [Reader.rendition, Text.words_eq_nil_iff] using formed.2 text isText
  words line member token isToken := by
    obtain ⟨text, _, _, rfl⟩ := exists_text fits isSegment member
    obtain ⟨word, isWord, rfl⟩ := List.mem_map.mp isToken
    exact Text.isWord_of_mem_words isWord
  numbers line member := by
    obtain ⟨text, _, _, rfl⟩ := exists_text fits isSegment member
    rfl
  rows := by rw [isSegment.alignments, Alignment.length_table, List.length_map]
  cells system line stands := by
    rw [isSegment.alignments, Alignment.length_row_table, List.getElem?_map, stands]
    rfl
  aligned place other member := by
    rw [isSegment.alignments] at member
    refine ⟨?_, ?_⟩
    · rcases Alignment.reached_of_mem_at_table member with isMatch | ⟨_, apart, _⟩
      · exact isMatch.apart
      · exact apart
    · simp only [wordAt?_eq]
      exact (Alignment.sameWord_of_mem_at_table member).word

end Paragraph

end Segment

/-- The induction is on the pieces: only a paragraph makes a segment. -/
theorem Yields.wellFormed {settings : InputSettings} {vocabulary : Vocabulary} {path : String}
    {index : Nat} {pieces : List Piece} {results : List (Except DecodeFailure Segment)}
    (yields : Yields settings vocabulary path index pieces results)
    (formed : ∀ piece ∈ pieces, piece.Formed) {segment : Segment}
    (member : .ok segment ∈ results) : segment.WellFormed settings vocabulary := by
  induction yields with
  | done => cases member
  | gap _ ih => exact ih (List.forall_mem_cons.mp formed).2 member
  | segment fits isSegment _ ih =>
    have ⟨first, formed⟩ := List.forall_mem_cons.mp formed
    rcases List.mem_cons.mp member with same | later
    · obtain rfl := Except.ok.inj same
      exact Segment.wellFormed_of_paragraph fits isSegment first
    · exact ih formed later
  | shape _ _ ih | broken _ ih =>
    have later := (List.mem_cons.mp member).resolve_left (fun same => nomatch same)
    exact ih (List.forall_mem_cons.mp formed).2 later

namespace Reader

variable {settings : InputSettings} {vocabulary : Vocabulary} {path : String}

theorem wellFormed_of_call {reader : Reader} {n : Nat} {segment : Segment}
    (yields : reader.call settings vocabulary path n = .ok (some segment)) :
    segment.WellFormed settings vocabulary := by
  rw [call_eq] at yields
  have stands : (reader.results settings vocabulary path)[n]? = some (.ok segment) :=
    answer_injective yields
  have isCut := isCut_cut reader.lines
  exact (yields_results isCut reader.nextIndex).wellFormed isCut.formed
    (List.mem_of_getElem? stands)

end Reader

/-! ### What the decoder makes of it -/

namespace Decoder

/-- What the features but the known rate are divided by. -/
def divisor (settings : DecoderSettings) (line : Rendition) : Nat :=
  if settings.lengthNormalize then line.tokens.length else 1

/-- The features of a line are quotients by counts that are not zero, and what is counted of the
line is no more than its tokens. -/
structure Measured (arrangement : Arrangement) (order : Nat) (settings : DecoderSettings)
    (segment : Segment) (eligible : List Bool) (system : Nat) (line : Rendition) : Prop where
  tokens : 0 < line.tokens.length
  nonzero : 0 < divisor settings line
  quotients :
    let others := (segment.others system).map Rendition.tokens
    features arrangement order settings segment eligible system line =
      { knownRate := Binary64.ofNat (line.numbers.countP Option.isSome) / line.tokens.length
        support := support arrangement segment eligible system line / divisor settings line
        ngramMatch := ngramMatch order settings.weights.ngramBase others line.tokens /
          divisor settings line
        overlap := Binary64.ofNat (overlap others line.tokens) / divisor settings line }
  known : line.numbers.countP Option.isSome ≤ line.tokens.length
  overlapping : overlap ((segment.others system).map Rendition.tokens) line.tokens ≤
    line.tokens.length
  shared : ∀ n, (SharedRuns.ofLength ((segment.others system).map Rendition.tokens)
    line.tokens n).line.length ≤ line.tokens.length

/-- A longer run is shared at no more places. -/
theorem length_ofLength_le (others : List (List String)) (line : List String) (n : Nat) :
    (SharedRuns.ofLength others line n).line.length ≤ line.length := by
  induction n with
  | zero => simp [SharedRuns.ofLength, SharedRuns.empty, suffixes_eq]
  | succ n ih => exact Nat.le_trans (List.length_filterMap_le ..) ih

theorem divisor_pos (settings : DecoderSettings) {line : Rendition}
    (length : 0 < line.tokens.length) : 0 < divisor settings line := by
  unfold divisor
  split
  · exact length
  · exact Nat.one_pos

variable {settings : InputSettings} {vocabulary : Vocabulary} {segment : Segment}

theorem measured_of_wellFormed (wellFormed : segment.WellFormed settings vocabulary)
    (arrangement : Arrangement) (order : Nat) (settings : DecoderSettings) (eligible : List Bool)
    {system : Nat} {line : Rendition} (stands : segment.systems[system]? = some line) :
    Measured arrangement order settings segment eligible system line := by
  have member := List.mem_of_getElem? stands
  have tokens := wellFormed.tokens line member
  have length := List.length_pos_iff.mpr tokens
  refine ⟨length, divisor_pos settings length, ?_, ?_, List.countP_le_length,
    length_ofLength_le _ _⟩
  · have some_token : ¬line.tokens.isEmpty = true := by simpa using tokens
    simp only [features, if_neg some_token, divisor]
  · have parallel : line.numbers.length = line.tokens.length := by
      rw [wellFormed.numbers line member, List.length_map]
    exact parallel ▸ List.countP_le_length

end Decoder

/-- Whatever the lines of a file are, each segment that is read is well formed, its features are
taken of tokens that are there, and a decoder that keeps any hypothesis finds one. -/
theorem Reader.segments_wellFormed {settings : InputSettings} {vocabulary : Vocabulary}
    {path : String} {reader : Reader} {n : Nat} {segment : Segment}
    (yields : reader.call settings vocabulary path n = .ok (some segment)) :
    segment.WellFormed settings vocabulary ∧
    (∀ arrangement order decoder eligible system line, segment.systems[system]? = some line →
      Decoder.Measured arrangement order decoder segment eligible system line) ∧
    ∀ order (decoder : DecoderSettings), 1 ≤ decoder.beamSize → 1 ≤ decoder.nbestSize →
      Decoder.nbest order decoder segment ≠ [] := by
  have wellFormed := wellFormed_of_call yields
  refine ⟨wellFormed, fun arrangement order decoder eligible system line stands => ?_,
    fun order decoder beamSize nbestSize => ?_⟩
  · exact Decoder.measured_of_wellFormed wellFormed arrangement order decoder eligible stands
  · exact Decoder.nbestIn_ne_nil beamSize nbestSize wellFormed.nonempty

/-- Behind a paragraph that lacks a line stand two lines, one with an ideographic space. -/
theorem Reader.segments_wellFormed_of_second_paragraph :
    ∃ (settings : InputSettings) (vocabulary : Vocabulary) (lines : List Text.Line)
      (segment : Segment),
      Reader.call settings vocabulary "m" { lines } 1 = .ok (some segment) ∧
      segment.systems.map Rendition.tokens = [["a", "b"], ["b"]] ∧
      segment.WellFormed settings vocabulary ∧
      ∀ order (decoder : DecoderSettings), 1 ≤ decoder.beamSize → 1 ≤ decoder.nbestSize →
        Decoder.nbest order decoder segment ≠ [] := by
  let settings : InputSettings := ⟨[1, 1], 1, false, true⟩
  let vocabulary : Vocabulary := .ofList ["a"]
  let lines : List Text.Line := [.ok "c", .ok " ", .ok "a\u3000b", .ok "\tb"]
  have read : (Reader.call settings vocabulary "m" { lines } 1).toOption.map
      (Option.map fun segment => segment.systems.map Rendition.tokens) =
        some (some [["a", "b"], ["b"]]) := by
    decide +kernel
  match yields : Reader.call settings vocabulary "m" { lines } 1 with
  | .error _ | .ok none =>
    rw [yields] at read
    cases read
  | .ok (some segment) =>
    obtain ⟨wellFormed, -, decoded⟩ := segments_wellFormed yields
    rw [yields] at read
    have tokens := Option.some.inj (Option.some.inj read)
    exact ⟨settings, vocabulary, lines, segment, yields, tokens, wellFormed, decoded⟩

end SystemCombination
