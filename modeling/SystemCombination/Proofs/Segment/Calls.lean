import SystemCombination.Proofs.Segment.Cut
import SystemCombination.Proofs.Text.Runs
import SystemCombination.Segment.Reader

/-! What the calls of a reader yield. `Yields` goes through the pieces of the lines and numbers the
paragraphs; every call yields what stands in its place there, whether or not calls before it
failed, and nothing once the pieces are used up. -/

namespace SystemCombination

/-- What a line makes: the words that stand in it, each with its number if it is known, and the
confidence. -/
structure IsRendition (vocabulary : Vocabulary) (line : String) (confidence : Binary64)
    (rendition : Rendition) : Prop where
  tokens : Text.Runs line.toList (rendition.tokens.map String.toList)
  numbers : rendition.numbers = rendition.tokens.map vocabulary.index?
  confidence : rendition.confidence = confidence

/-- What a paragraph with a line for each confidence makes. -/
structure IsSegment (settings : InputSettings) (vocabulary : Vocabulary) (index : Nat)
    (run : List String) (segment : Segment) : Prop where
  index : segment.index = index
  count : segment.systems.length = run.length
  system : ∀ (i : Nat) (line : String) (confidence : Binary64),
    run[i]? = some line → settings.confidences[i]? = some confidence →
      ∃ rendition, segment.systems[i]? = some rendition ∧
        IsRendition vocabulary line confidence rendition
  alignments : segment.alignments =
    Alignment.table settings (segment.systems.map Rendition.tokens)

/-- What the pieces yield, in order, when the first paragraph has the number `index`. -/
inductive Yields (settings : InputSettings) (vocabulary : Vocabulary) (path : String) :
    Nat → List Piece → List (Except DecodeFailure Segment) → Prop
  | done {index : Nat} : Yields settings vocabulary path index [] []
  | gap {index : Nat} {line : String} {pieces : List Piece}
      {results : List (Except DecodeFailure Segment)}
      (later : Yields settings vocabulary path index pieces results) :
      Yields settings vocabulary path index (.gap line :: pieces) results
  | segment {index : Nat} {run : List String} {segment : Segment} {pieces : List Piece}
      {results : List (Except DecodeFailure Segment)}
      (fits : run.length = settings.confidences.length)
      (isSegment : IsSegment settings vocabulary index run segment)
      (later : Yields settings vocabulary path (index + 1) pieces results) :
      Yields settings vocabulary path index (.paragraph run :: pieces) (.ok segment :: results)
  | shape {index : Nat} {run : List String} {pieces : List Piece}
      {results : List (Except DecodeFailure Segment)}
      (misfits : run.length ≠ settings.confidences.length)
      (later : Yields settings vocabulary path (index + 1) pieces results) :
      Yields settings vocabulary path index (.paragraph run :: pieces)
        (.error (.inputShape index settings.confidences.length run.length) :: results)
  | broken {index : Nat} {run : List String} {error : IoError} {pieces : List Piece}
      {results : List (Except DecodeFailure Segment)}
      (later : Yields settings vocabulary path index pieces results) :
      Yields settings vocabulary path index (.broken run error :: pieces)
        (.error (.read path error) :: results)

variable {settings : InputSettings} {vocabulary : Vocabulary} {path : String}

theorem isRendition_iff {line : String} {confidence : Binary64} {rendition : Rendition} :
    IsRendition vocabulary line confidence rendition ↔
      rendition = Reader.rendition vocabulary line confidence := by
  constructor
  · rintro ⟨runs, numbers, rfl⟩
    have tokens : rendition.tokens = (Text.words line.toList).map String.ofList := by
      rw [runs.words_eq, List.map_map]
      simp [Function.comp_def]
    obtain ⟨_, _, _⟩ := rendition
    dsimp only at tokens numbers
    subst tokens numbers
    rfl
  · rintro rfl
    refine ⟨Text.words_eq_iff.mp ?_, rfl, rfl⟩
    simp [Reader.rendition, Function.comp_def]

theorem isSegment_iff {index : Nat} {run : List String} {segment : Segment}
    (fits : run.length = settings.confidences.length) :
    IsSegment settings vocabulary index run segment ↔
      segment = Reader.segmentOf settings vocabulary index run := by
  constructor
  · rintro ⟨sameIndex, count, system, alignments⟩
    have systems :
        segment.systems = run.zipWith (Reader.rendition vocabulary) settings.confidences := by
      apply List.ext_getElem
      · rw [count, List.length_zipWith, ← fits, Nat.min_self]
      · intro i inside _
        have place : i < run.length := count ▸ inside
        have place' : i < settings.confidences.length := fits ▸ place
        obtain ⟨rendition, stands, isRendition⟩ := system i _ _ (List.getElem?_eq_getElem place)
          (List.getElem?_eq_getElem place')
        rw [List.getElem?_eq_getElem inside, Option.some.injEq] at stands
        rw [stands, List.getElem_zipWith, isRendition_iff.mp isRendition]
    rw [systems] at alignments
    obtain ⟨segmentIndex, segmentSystems, segmentAlignments⟩ := segment
    dsimp only at sameIndex systems alignments
    subst sameIndex systems alignments
    rfl
  · rintro rfl
    refine ⟨rfl, ?_, ?_, rfl⟩
    · rw [Reader.segmentOf, List.length_zipWith, ← fits, Nat.min_self]
    · intro i line confidence isLine isConfidence
      refine ⟨Reader.rendition vocabulary line confidence, ?_, isRendition_iff.mpr rfl⟩
      rw [Reader.segmentOf, List.getElem?_zipWith_eq_some]
      exact ⟨line, confidence, isLine, isConfidence, rfl⟩

/-- The lines of the systems come from the paragraph. -/
theorem IsSegment.exists_line {index : Nat} {run : List String} {segment : Segment}
    (h : IsSegment settings vocabulary index run segment)
    (fits : run.length = settings.confidences.length) {i : Nat} {rendition : Rendition}
    (stands : segment.systems[i]? = some rendition) :
    ∃ line ∈ run, ∃ confidence, rendition = Reader.rendition vocabulary line confidence := by
  rw [(isSegment_iff fits).mp h] at stands
  obtain ⟨line, confidence, isLine, _, rfl⟩ := List.getElem?_zipWith_eq_some.mp stands
  exact ⟨line, List.mem_of_getElem? isLine, confidence, rfl⟩

theorem Yields.unique {index : Nat} {pieces : List Piece}
    {results others : List (Except DecodeFailure Segment)}
    (h : Yields settings vocabulary path index pieces results)
    (h' : Yields settings vocabulary path index pieces others) : results = others := by
  induction h generalizing others with
  | done => cases h'; rfl
  | gap _ ih =>
    cases h' with
    | gap later => exact ih later
  | segment fits isSegment _ ih =>
    cases h' with
    | segment _ isSegment' later =>
      rw [(isSegment_iff fits).mp isSegment, (isSegment_iff fits).mp isSegment', ih later]
    | shape misfits => exact absurd fits misfits
  | shape misfits _ ih =>
    cases h' with
    | segment fits => exact absurd fits misfits
    | shape _ later => rw [ih later]
  | broken _ ih =>
    cases h' with
    | broken later => rw [ih later]

/-- Up to the first failure the segments are numbered without a gap. -/
theorem Yields.numbered {index : Nat} {pieces : List Piece}
    {results later : List (Except DecodeFailure Segment)} {units : List Segment}
    (h : Yields settings vocabulary path index pieces results)
    (same : results = units.map .ok ++ later) :
    units.map Segment.index = List.range' index units.length := by
  induction h generalizing units with
  | done =>
    obtain rfl := List.map_eq_nil_iff.mp (List.append_eq_nil_iff.mp same.symm).1
    rfl
  | gap _ ih => exact ih same
  | segment _ isSegment _ ih =>
    cases units with
    | nil => rfl
    | cons unit units =>
      obtain ⟨first, others⟩ := List.cons.inj same
      obtain rfl := Except.ok.inj first
      rw [List.map_cons, isSegment.index, ih others]
      rfl
  | shape _ _ _ | broken _ _ =>
    cases units with
    | nil => rfl
    | cons unit units => cases (List.cons.inj same).1

namespace Reader

/-- What the call after `n` others yields. -/
def call (settings : InputSettings) (vocabulary : Vocabulary) (path : String) (reader : Reader) :
    Nat → Except DecodeFailure (Option Segment)
  | 0 => (reader.next settings vocabulary path).1
  | n + 1 => call settings vocabulary path (reader.next settings vocabulary path).2 n

/-- The answer to a call in whose place a result stands, or none. -/
def answer : Option (Except DecodeFailure Segment) → Except DecodeFailure (Option Segment)
  | some (.ok segment) => .ok (some segment)
  | some (.error failure) => .error failure
  | none => .ok none

/-! ### One call -/

/-- Lines that are not blank are gathered. -/
theorem paragraph_run {run : List String} (contents : ∀ line ∈ run, ¬Text.AllBlank line.toList)
    (found : List String) (lines : List Text.Line) :
    paragraph found (run.map .ok ++ lines) = paragraph (run.reverse ++ found) lines := by
  induction run generalizing found with
  | nil => rfl
  | cons line run ih =>
    have ⟨content, contents⟩ := List.forall_mem_cons.mp contents
    have gathered : paragraph found (.ok line :: (run.map .ok ++ lines)) =
        paragraph (line :: found) (run.map .ok ++ lines) := by
      cases found <;> rw [paragraph, if_neg content]
    rw [List.map_cons, List.cons_append, gathered, ih contents, List.reverse_cons,
      List.append_assoc, List.singleton_append]

/-- Lines that are gathered alike are read alike. -/
theorem next_congr {reader other : Reader} (sameIndex : reader.nextIndex = other.nextIndex)
    (read : paragraph [] reader.lines = paragraph [] other.lines) :
    reader.next settings vocabulary path = other.next settings vocabulary path := by
  unfold next
  rw [read, sameIndex]

theorem next_gap {line : String} (blank : Text.AllBlank line.toList) (lines : List Text.Line)
    (nextIndex : Nat) :
    next settings vocabulary path { lines := .ok line :: lines, nextIndex } =
      next settings vocabulary path { lines, nextIndex } := by
  have passed : paragraph [] (.ok line :: lines) = paragraph [] lines := by
    rw [paragraph, if_pos blank]
  exact next_congr rfl passed

theorem next_end (nextIndex : Nat) :
    next settings vocabulary path { lines := [], nextIndex } =
      (.ok none, { lines := [], nextIndex }) := by
  simp [next, paragraph]

theorem next_broken {run : List String} {error : IoError}
    (formed : (Piece.broken run error).Formed) (lines : List Text.Line) (nextIndex : Nat) :
    next settings vocabulary path
        { lines := (Piece.broken run error).lines ++ lines, nextIndex } =
      (.error (.read path error), { lines, nextIndex }) := by
  have read : paragraph [] ((Piece.broken run error).lines ++ lines) = (.error error, lines) := by
    rw [Piece.lines, List.append_assoc, paragraph_run formed]
    rfl
  simp only [next, read]

/-- What a paragraph yields. -/
def resultOf (settings : InputSettings) (vocabulary : Vocabulary) (index : Nat)
    (run : List String) : Except DecodeFailure Segment :=
  if run.length = settings.confidences.length then .ok (segmentOf settings vocabulary index run)
  else .error (.inputShape index settings.confidences.length run.length)

theorem next_of_paragraph {run : List String} {lines rest : List Text.Line} (nonempty : run ≠ [])
    (read : paragraph [] lines = (.ok run, rest)) (nextIndex : Nat) :
    next settings vocabulary path { lines, nextIndex } =
      (answer (some (resultOf settings vocabulary nextIndex run)),
        { lines := rest, nextIndex := nextIndex + 1 }) := by
  obtain ⟨line, others, rfl⟩ := List.exists_cons_of_ne_nil nonempty
  simp only [next, read, resultOf]
  split <;> rfl

/-! ### All calls -/

theorem results_eq (reader : Reader) :
    reader.results settings vocabulary path =
      match reader.next settings vocabulary path with
      | (.error failure, rest) => .error failure :: rest.results settings vocabulary path
      | (.ok (some segment), rest) => .ok segment :: rest.results settings vocabulary path
      | (.ok none, _) => [] := by
  rw [results]
  split <;> simp [*]

theorem results_of_answer {reader rest : Reader} (result : Except DecodeFailure Segment)
    (h : reader.next settings vocabulary path = (answer (some result), rest)) :
    reader.results settings vocabulary path = result :: rest.results settings vocabulary path := by
  rw [results_eq, h]
  cases result <;> rfl

theorem results_congr {reader other : Reader}
    (same : reader.next settings vocabulary path = other.next settings vocabulary path) :
    reader.results settings vocabulary path = other.results settings vocabulary path := by
  rw [results_eq, same, ← results_eq]

theorem results_paragraph {run : List String} {lines : List Text.Line}
    (formed : (Piece.paragraph run).Formed)
    (ends : lines = [] ∨ ∃ blank rest, lines = .ok blank :: rest ∧ Text.AllBlank blank.toList)
    (index : Nat) :
    results settings vocabulary path
        { lines := (Piece.paragraph run).lines ++ lines, nextIndex := index } =
      resultOf settings vocabulary index run ::
        results settings vocabulary path { lines, nextIndex := index + 1 } := by
  obtain ⟨nonempty, contents⟩ := formed
  have gathered := paragraph_run contents []
  rw [List.append_nil] at gathered
  rcases ends with rfl | ⟨blank, rest, rfl, isBlank⟩
  · have read : paragraph [] ((Piece.paragraph run).lines ++ []) = (.ok run, []) := by
      rw [Piece.lines, gathered, paragraph, List.reverse_reverse]
    exact results_of_answer _ (next_of_paragraph nonempty read index)
  · have read : paragraph [] ((Piece.paragraph run).lines ++ .ok blank :: rest) =
        (.ok run, rest) := by
      obtain ⟨last, others, reversed⟩ :=
        List.exists_cons_of_ne_nil (List.reverse_ne_nil_iff.mpr nonempty)
      rw [Piece.lines, gathered, reversed, paragraph, if_pos isBlank, ← reversed,
        List.reverse_reverse]
    rw [results_of_answer _ (next_of_paragraph nonempty read index),
      results_congr (next_gap isBlank rest (index + 1))]

/-- A paragraph by itself is one segment. -/
theorem results_alone {run : List String} (formed : (Piece.paragraph run).Formed)
    (fits : run.length = settings.confidences.length) :
    results settings vocabulary path { lines := (Piece.paragraph run).lines } =
      [.ok (segmentOf settings vocabulary 0 run)] := by
  have read : results settings vocabulary path
      { lines := (Piece.paragraph run).lines ++ [], nextIndex := 0 } = _ :=
    results_paragraph formed (.inl rfl) 0
  rw [List.append_nil, resultOf, if_pos fits, results_eq { lines := [], nextIndex := 0 + 1 },
    next_end] at read
  exact read

/-- A file that cannot be read yields that failure alone. -/
theorem results_unread (error : IoError) :
    results settings vocabulary path { lines := Text.linesOfSource (.error error) } =
      [.error (.read path error)] := by
  have refused : next settings vocabulary path
      { lines := (Piece.broken [] error).lines ++ [], nextIndex := 0 } = _ :=
    next_broken (List.forall_mem_nil _) [] 0
  have read := results_of_answer (.error (.read path error)) refused
  rw [results_eq { lines := [], nextIndex := 0 }, next_end] at read
  exact read

/-- The induction is on the pieces: a gap is passed over, any other piece is one call. -/
theorem yields_results {lines : List Text.Line} {pieces : List Piece} (h : IsCut lines pieces)
    (index : Nat) :
    Yields settings vocabulary path index pieces
      (results settings vocabulary path { lines, nextIndex := index }) := by
  induction pieces generalizing lines index with
  | nil =>
    obtain rfl : lines = [] := h.whole.symm
    rw [results_eq, next_end]
    exact .done
  | cons piece pieces ih =>
    obtain ⟨rest, rfl, inner⟩ := h.tail
    have ⟨formed, apart⟩ := h.head
    cases piece with
    | gap line =>
      have passed : results settings vocabulary path
          { lines := .ok line :: rest, nextIndex := index } =
          results settings vocabulary path { lines := rest, nextIndex := index } :=
        results_congr (next_gap formed rest index)
      rw [Piece.lines, List.singleton_append, passed]
      exact .gap (ih inner index)
    | paragraph run =>
      rw [results_paragraph formed (inner.ends apart) index, resultOf]
      split
      · next fits => exact .segment fits ((isSegment_iff fits).mpr rfl) (ih inner (index + 1))
      · next misfits => exact .shape misfits (ih inner (index + 1))
    | broken run error =>
      rw [results_of_answer (.error (.read path error)) (next_broken formed rest index)]
      exact .broken (ih inner index)

/-- A paragraph is empty only at the end of the lines. -/
theorem paragraph_empty {found : List String} {lines rest : List Text.Line}
    (h : paragraph found lines = (.ok [], rest)) : rest = [] := by
  induction lines generalizing found with
  | nil => exact (Prod.mk.inj h).2.symm
  | cons line lines ih =>
    rcases line with error | line
    · simp [paragraph] at h
    · cases found with
      | nil =>
        rw [paragraph] at h
        split at h
        · exact ih h
        · exact ih h
      | cons last found =>
        rw [paragraph] at h
        split at h
        · simp at h
        · exact ih h

theorem lines_of_next_none {reader rest : Reader}
    (h : reader.next settings vocabulary path = (.ok none, rest)) : rest.lines = [] := by
  unfold next at h
  split at h
  · cases h
  · next read =>
    cases h
    exact paragraph_empty read
  · dsimp only at h
    split at h <;> cases h

theorem call_end {reader : Reader} (isEnd : reader.lines = []) (n : Nat) :
    reader.call settings vocabulary path n = .ok none := by
  obtain ⟨lines, nextIndex⟩ := reader
  subst isEnd
  induction n with
  | zero => rw [call, next_end]
  | succ n ih => rw [call, next_end, ih]

/-- Every call answers from its place in the results. -/
theorem call_eq (reader : Reader) (n : Nat) :
    reader.call settings vocabulary path n =
      answer (reader.results settings vocabulary path)[n]? := by
  induction n generalizing reader with
  | zero =>
    rw [call, results_eq]
    split <;> rename_i h <;> rw [h] <;> rfl
  | succ n ih =>
    rw [call, results_eq]
    split
    · next h => rw [h, ih, List.getElem?_cons_succ]
    · next h => rw [h, ih, List.getElem?_cons_succ]
    · next h => rw [h, call_end (lines_of_next_none h) n, List.getElem?_nil, answer]

/-- Segments that stand before a failure are what the calls before it yield. -/
theorem calls_before_failure {reader : Reader} {segments : List Segment} {failure : DecodeFailure}
    {later : List (Except DecodeFailure Segment)}
    (h : reader.results settings vocabulary path =
      segments.map .ok ++ .error failure :: later) :
    (∀ n < segments.length, ∃ segment,
      reader.call settings vocabulary path n = .ok (some segment)) ∧
      reader.call settings vocabulary path segments.length = .error failure := by
  constructor
  · intro n inside
    refine ⟨segments[n], ?_⟩
    rw [call_eq, h, List.getElem?_append_left (by simpa using inside), List.getElem?_map,
      List.getElem?_eq_getElem inside]
    rfl
  · rw [call_eq, h, List.getElem?_append_right (by simp), List.length_map, Nat.sub_self]
    rfl

theorem answer_injective : Function.Injective answer := by
  rintro (_ | _ | _) (_ | _ | _) same <;> simp_all [answer]

theorem answer_eq_none {result : Option (Except DecodeFailure Segment)}
    (h : answer result = .ok none) : result = none :=
  answer_injective h

/-- What any number of calls yield is fixed by the one cut of the lines. -/
theorem calls_follow_cut (settings : InputSettings) (vocabulary : Vocabulary) (path : String)
    (bytes : List UInt8) :
    let reader : Reader := { lines := Text.linesOfBytes bytes }
    (∃! pieces, IsCut (Text.linesOfBytes bytes) pieces) ∧
      (∀ pieces, IsCut (Text.linesOfBytes bytes) pieces →
        (∃! results, Yields settings vocabulary path 0 pieces results) ∧
          ∀ results, Yields settings vocabulary path 0 pieces results →
            ∀ n, reader.call settings vocabulary path n = answer results[n]?) ∧
      ∀ n, reader.call settings vocabulary path n = .ok none →
        ∀ later ≥ n, reader.call settings vocabulary path later = .ok none := by
  intro reader
  refine ⟨⟨Piece.cut _, isCut_cut _, fun _ => IsCut.eq_cut⟩, ?_, ?_⟩
  · intro pieces isCut
    have yields : Yields settings vocabulary path 0 pieces
        (results settings vocabulary path reader) := yields_results isCut 0
    refine ⟨⟨_, yields, fun _ other => other.unique yields⟩, ?_⟩
    intro results other n
    rw [other.unique yields]
    exact call_eq reader n
  · intro n isNone later after
    rw [call_eq] at isNone ⊢
    have past := List.getElem?_eq_none_iff.mp (answer_eq_none isNone)
    rw [List.getElem?_eq_none_iff.mpr (Nat.le_trans past after), answer]

end Reader

end SystemCombination
