import SystemCombination.Proofs.Pipeline.OneBest

/-! The two outputs of a decode side by side. The oracle holds a record for every hypothesis of
every segment and nothing else; its records of rank 0 say what the one-best lines say. -/

namespace SystemCombination

variable {σ τ : Type}

/-- A stream on the first of two states. -/
def Stream.onFirst (stream : Stream σ) : Stream (σ × τ) where
  write bytes := ExceptT.mk fun (state, other) =>
    let (result, state) := stream.write bytes state
    (result, state, other)
  flush := ExceptT.mk fun (state, other) =>
    let (result, state) := stream.flush state
    (result, state, other)

/-- A stream on the second of two states. -/
def Stream.onSecond (stream : Stream τ) : Stream (σ × τ) where
  write bytes := ExceptT.mk fun (other, state) =>
    let (result, state) := stream.write bytes state
    (result, other, state)
  flush := ExceptT.mk fun (other, state) =>
    let (result, state) := stream.flush state
    (result, other, state)

theorem Stream.Faithful.onFirst {stream : Stream σ} {Written : σ → List UInt8 → Prop}
    (h : stream.Faithful Written) (Other : τ → Prop) :
    (stream.onFirst : Stream (σ × τ)).Faithful fun both bytes =>
      Written both.1 bytes ∧ Other both.2 where
  write bytes written := by
    obtain ⟨after, run, now⟩ := h.write bytes written.1
    exact ⟨(after, _), by simp [Stream.onFirst, ExceptT.mk, run], now, written.2⟩
  flush written := by
    obtain ⟨after, run, now⟩ := h.flush written.1
    exact ⟨(after, _), by simp [Stream.onFirst, ExceptT.mk, run], now, written.2⟩

theorem Stream.Faithful.onSecond {stream : Stream τ} {Written : τ → List UInt8 → Prop}
    (h : stream.Faithful Written) (Other : σ → Prop) :
    (stream.onSecond : Stream (σ × τ)).Faithful fun both bytes =>
      Other both.1 ∧ Written both.2 bytes where
  write bytes written := by
    obtain ⟨after, run, now⟩ := h.write bytes written.2
    exact ⟨(_, after), by simp [Stream.onSecond, ExceptT.mk, run], written.1, now⟩
  flush written := by
    obtain ⟨after, run, now⟩ := h.flush written.2
    exact ⟨(_, after), by simp [Stream.onSecond, ExceptT.mk, run], written.1, now⟩

namespace Partners

/-! ### The records of segments -/

/-- What an oracle says when it is cut into lines and cells, and how the one-best output agrees
with it. -/
structure Agree (nbest : Segment → List Hypothesis) (units : List Segment)
    (oneBest oracle : List UInt8) : Prop where
  table : cells oracle = Record.table (records nbest units)
  only : ∀ others, cells oracle = Record.table others → others = records nbest units
  numbers : ((records nbest units).filter fun record => record.rank = 0).map Record.segment =
    List.range units.length
  ranks : ∀ index segment, units[index]? = some segment →
    ((records nbest units).filter fun record => record.segment = index).map Record.rank =
      List.range (nbest segment).length
  systems : ∀ index,
    (((records nbest units).filter fun record => record.segment = index).map
      Record.system).Nodup
  best : oneBest.splitOn 10 =
    ((records nbest units).filter fun record => record.rank = 0).map
      (fun record => Text.encode record.text) ++ [[]]

variable {nbest : Segment → List Hypothesis} {units : List Segment}

theorem records_cons (segment : Segment) (units : List Segment) :
    records nbest (segment :: units) =
      Output.records segment.index 0 (nbest segment) ++ records nbest units := rfl

theorem segment_mem_of_mem_records {record : Record} (h : record ∈ records nbest units) :
    record.segment ∈ units.map Segment.index := by
  obtain ⟨segment, member, inside⟩ := List.mem_flatMap.mp h
  rw [Output.segment_of_mem_records inside]
  exact List.mem_map_of_mem member

theorem filter_segment_eq_nil {index : Nat} (absent : index ∉ units.map Segment.index) :
    (records nbest units).filter (fun record => record.segment = index) = [] := by
  rw [List.filter_eq_nil_iff]
  intro record member
  have place := segment_mem_of_mem_records member
  simp only [decide_eq_true_eq]
  rintro rfl
  exact absent place

/-- The records of a segment stand together. -/
theorem filter_segment (nbest : Segment → List Hypothesis) {start : Nat}
    (numbered : units.map Segment.index = List.range' start units.length) {index : Nat}
    {segment : Segment} (stands : units[index]? = some segment) :
    (records nbest units).filter (fun record => record.segment = start + index) =
      Output.records (start + index) 0 (nbest segment) := by
  induction units generalizing start index with
  | nil => simp at stands
  | cons first units ih =>
    rw [List.map_cons, List.length_cons, List.range'_succ] at numbered
    obtain ⟨isStart, others⟩ := List.cons.inj numbered
    rw [records_cons, List.filter_append, isStart]
    cases index with
    | zero =>
      obtain rfl : first = segment := by simpa using stands
      have absent : start ∉ units.map Segment.index := by
        rw [others, List.mem_range'_1]
        omega
      have own : (Output.records start 0 (nbest first)).filter
          (fun record => record.segment = start) = Output.records start 0 (nbest first) := by
        rw [List.filter_eq_self]
        intro record member
        simp [Output.segment_of_mem_records member]
      rw [Nat.add_zero, filter_segment_eq_nil absent, own, List.append_nil]
    | succ index =>
      have foreign : (Output.records start 0 (nbest first)).filter
          (fun record => record.segment = start + (index + 1)) = [] := by
        rw [List.filter_eq_nil_iff]
        intro record member
        simp [Output.segment_of_mem_records member]
      have place : start + (index + 1) = start + 1 + index := by omega
      rw [foreign, List.nil_append, place]
      exact ih others (by simpa using stands)

theorem filter_rank_of_segment {index : Nat} {nbest : List Hypothesis} (nonempty : nbest ≠ []) :
    ((Output.records index 0 nbest).filter fun record => record.rank = 0).map
        (fun record => (record.segment, record.text)) = [(index, Output.bestOf nbest)] := by
  obtain ⟨hypothesis, others, rfl⟩ := List.exists_cons_of_ne_nil nonempty
  have later : (Output.records index 1 others).filter (fun record => record.rank = 0) = [] := by
    rw [List.filter_eq_nil_iff]
    intro record member
    have rank : record.rank ∈ (Output.records index 1 others).map Record.rank :=
      List.mem_map_of_mem member
    rw [Output.map_rank_records, List.mem_range'_1] at rank
    simp only [decide_eq_true_eq]
    omega
  show ((_ :: Output.records index 1 others).filter _).map _ = _
  rw [List.filter_cons_of_pos (by simp), later]
  rfl

/-- There is one record of rank 0 for each segment, and it says what its one-best line says. -/
theorem filter_rank (decoded : ∀ segment ∈ units, nbest segment ≠ []) :
    ((records nbest units).filter fun record => record.rank = 0).map
        (fun record => (record.segment, record.text)) =
      units.map fun segment => (segment.index, Output.bestOf (nbest segment)) := by
  induction units with
  | nil => rfl
  | cons segment units ih =>
    have ⟨nonempty, decoded⟩ := List.forall_mem_cons.mp decoded
    rw [records_cons, List.filter_append, List.map_append, filter_rank_of_segment nonempty,
      ih decoded]
    rfl

/-- Hypotheses that can be told apart make outputs that agree. -/
theorem agree_bytes (decoded : ∀ segment ∈ units, nbest segment ≠ [])
    (inline : ∀ segment ∈ units, ∀ hypothesis ∈ nbest segment, Text.Inline hypothesis.text)
    (distinct : ∀ segment ∈ units, ((nbest segment).map Hypothesis.system).Nodup)
    (numbered : units.map Segment.index = List.range units.length) :
    Agree nbest units (oneBestBytes nbest units) (oracleBytes true nbest units) := by
  rw [List.range_eq_range'] at numbered
  have tabular : ∀ record ∈ records nbest units, record.Tabular := by
    intro record member
    obtain ⟨segment, isUnit, inside⟩ := List.mem_flatMap.mp member
    obtain ⟨⟨hypothesis, rank⟩, stands, rfl⟩ := List.mem_map.mp inside
    have isHypothesis := (List.mem_zipIdx' stands).2 ▸ List.getElem_mem _
    exact ⟨Decimal.inline_fixed _ _, inline segment isUnit hypothesis isHypothesis⟩
  have table : cells (oracleBytes true nbest units) = Record.table (records nbest units) :=
    Record.cells_bytes tabular
  have best := filter_rank decoded
  refine ⟨table, fun others same => ?only, ?numbers, fun index segment stands => ?ranks,
    fun index => ?systems, ?best⟩
  case only => exact Record.table_injective (same.symm.trans table)
  case numbers =>
    have first := congrArg (List.map Prod.fst) best
    rw [List.map_map, List.map_map] at first
    rw [List.range_eq_range', ← numbered]
    exact first
  case ranks =>
    have own := filter_segment nbest numbered stands
    rw [Nat.zero_add] at own
    rw [own, Output.map_rank_records, List.range_eq_range']
  case systems =>
    by_cases inside : index < units.length
    · have own := filter_segment nbest numbered (List.getElem?_eq_getElem inside)
      rw [Nat.zero_add] at own
      rw [own, Output.map_system_records]
      exact distinct _ (List.getElem_mem inside)
    · have absent : index ∉ units.map Segment.index := by
        rw [numbered, List.mem_range'_1]
        omega
      rw [filter_segment_eq_nil absent]
      exact List.nodup_nil
  case best =>
    have texts := congrArg (List.map fun entry => Text.encode entry.2) best
    rw [List.map_map, List.map_map] at texts
    have single : ∀ text ∈ units.map fun segment => Output.bestOf (nbest segment),
        '\n' ∉ text.toList := by
      intro text member
      obtain ⟨segment, isUnit, rfl⟩ := List.mem_map.mp member
      obtain ⟨hypothesis, others, kept⟩ := List.exists_cons_of_ne_nil (decoded segment isUnit)
      have isHypothesis : hypothesis ∈ nbest segment := kept ▸ List.mem_cons_self
      rw [Output.bestOf, kept]
      exact (inline segment isUnit hypothesis isHypothesis).not_mem Text.blank_newline (by decide)
    rw [oneBestBytes, Text.splitOn_encodeLines single, List.map_map]
    exact congrArg (· ++ [[]]) texts.symm

end Partners

namespace Pipeline

variable {model : Model} {request : Request}

theorem exists_isSegment {settings : InputSettings} {vocabulary : Vocabulary}
    {runs : List (List String)} {units : List Segment}
    (alike : List.Forall₂ (fun run segment => ∃ index, IsSegment settings vocabulary index run
      segment) runs units) (fit : ∀ run ∈ runs, run.length = settings.confidences.length) :
    ∀ segment ∈ units, ∃ index run, run.length = settings.confidences.length ∧
      IsSegment settings vocabulary index run segment := by
  induction alike with
  | nil => simp
  | cons made _ ih =>
    obtain ⟨index, isSegment⟩ := made
    have ⟨fits, fit⟩ := List.forall_mem_cons.mp fit
    exact List.forall_mem_cons.mpr ⟨⟨index, _, fits, isSegment⟩, ih fit⟩

theorem formed_of_fit {pieces : List Piece} (formed : ∀ piece ∈ pieces, piece.Formed)
    (fit : ∀ piece ∈ pieces, Fits request.input.confidences.length piece) :
    ∀ run ∈ paragraphs pieces, (Piece.paragraph run).Formed ∧
      run.length = request.input.confidences.length := by
  intro run member
  have place := mem_paragraphs.mp member
  exact ⟨formed _ place, fit _ place⟩

/-- Where every result is a segment, the paragraphs of the lines make the segments. -/
theorem yields_of_results {settings : InputSettings} {vocabulary : Vocabulary} {path : String}
    {lines : List Text.Line} {units : List Segment}
    (read : Reader.results settings vocabulary path { lines } = units.map .ok) :
    Yields settings vocabulary path 0 (Piece.cut lines) (units.map .ok) :=
  read ▸ Reader.yields_results (isCut_cut lines) 0

section Accepted

variable {body : List UInt8} (accepted : Request.parse body = .ok request) {path : String}
  {lines : List Text.Line} {units : List Segment}
  (read : Reader.results request.input model.vocabulary path { lines } = units.map .ok)

include accepted read

/-- The segments of an accepted request all have a hypothesis, and the one-best output has a line
for each paragraph. -/
theorem holds_of_results :
    (∀ segment ∈ units, nbestOf model request segment ≠ []) ∧
      ∃ pieces, IsCut lines pieces ∧
        (∀ piece ∈ pieces, Fits request.input.confidences.length piece) ∧
        Holds model request (paragraphs pieces)
          (Partners.oneBestBytes (nbestOf model request) units) := by
  have isCut := isCut_cut lines
  obtain ⟨fit, alike⟩ := alike_of_yields (yields_of_results read)
  have ⟨decoded, best⟩ := best_of_alike (Request.one_le_beamSize accepted)
    (Request.one_le_nbestSize accepted) (formed_of_fit isCut.formed fit) alike
  exact ⟨decoded, _, isCut, fit, holds_encodeLines best⟩

theorem agree_of_results :
    Partners.Agree (nbestOf model request) units
      (Partners.oneBestBytes (nbestOf model request) units)
      (Partners.oracleBytes true (nbestOf model request) units) := by
  have decoded := (holds_of_results accepted read).1
  have yields := yields_of_results read
  obtain ⟨fit, alike⟩ := alike_of_yields yields
  have segments := exists_isSegment alike fun run member =>
    (formed_of_fit (isCut_cut lines).formed fit run member).2
  have numbered := yields.numbered (List.append_nil _).symm
  refine Partners.agree_bytes decoded ?_ ?_ (List.range_eq_range' ▸ numbered)
  · intro segment isUnit hypothesis member
    obtain ⟨_, _, fits, isSegment⟩ := segments segment isUnit
    obtain ⟨line, _, text⟩ := exists_line_of_mem_nbestOf fits isSegment member
    exact text ▸ Text.inline_respaced line
  · exact fun segment _ => Decoder.nodup_system_nbestIn _ _ _ segment

end Accepted

/-- A decode that completes has read every segment. -/
theorem results_of_decodeAll {σ : Type} {partners : Partners (ExceptT DecodeFailure (StateM σ))}
    {Written : σ → List UInt8 → List UInt8 → Prop}
    (faithful : partners.Faithful (nbestOf model request) Written) {body : List UInt8}
    (accepted : Request.parse body = .ok request) {state after : σ} {lines : List Text.Line}
    {summary : Summary} (unwritten : Written state [] [])
    (run : partners.decodeAll (segments model request lines) state = (.ok summary, after)) :
    ∃ units : List Segment, Reader.results request.input model.vocabulary request.matchedFile
      { lines } = units.map .ok := by
  have isCut := isCut_cut lines
  have yields : Yields request.input model.vocabulary request.matchedFile 0 _ _ :=
    Reader.yields_results isCut 0
  obtain ⟨before, rest, units, later, whole, results, fit, alike, remains⟩ := split_yields yields
  have formed : ∀ piece ∈ before, piece.Formed := fun piece member =>
    isCut.formed piece (whole ▸ List.mem_append_left rest member)
  have ⟨decoded, _⟩ := best_of_alike (Request.one_le_beamSize accepted)
    (Request.one_le_nbestSize accepted) (formed_of_fit formed fit) alike
  cases remains with
  | nothing => exact ⟨units, by rw [results, List.append_nil]⟩
  | @failure _ _ failure results' _ =>
    obtain ⟨between, run', _⟩ := faithful.decodeFrom {} decoded
      (ask (.error failure) :: results'.map ask) unwritten
    rw [segments_eq request.matchedFile, results, List.map_append, map_ask, List.map_cons,
      Partners.decodeAll, run', ask,
      Partners.decodeFrom_throw] at run
    cases run

/-- The partners of a decode onto two streams in memory, the second for the oracle. -/
def partnersInMemories (model : Model) (request : Request) :
    Partners (ExceptT DecodeFailure (StateM (Memory × Memory))) :=
  { partners model request Memory.stream.onFirst Memory.stream.onSecond with
    oracle := some (Output.oracleSink request.oraclePath Memory.stream.onSecond) }

/-- Decode an input onto two empty memories. -/
def runInMemories (model : Model) (request : Request) (input : List UInt8) :
    Except DecodeFailure Summary × Memory × Memory :=
  (partnersInMemories model request).decodeAll
    (segments model request (Text.linesOfBytes input)) ({}, {})

theorem faithful_inMemories :
    (partnersInMemories model request).Faithful (nbestOf model request) fun both oneBest oracle =>
      both.1 = Memory.append {} oneBest ∧ both.2 = Memory.append {} oracle where
  decode _ := rfl
  oneBest oracle := Output.oneBestSink_takes _
    ((@Memory.stream_faithful {} ⟨rfl, rfl⟩).onFirst (· = Memory.append {} oracle))
  oracle sink isOracle oneBest := by
    obtain rfl := Option.some.inj isOracle
    exact Output.oracleSink_takes _
      ((@Memory.stream_faithful {} ⟨rfl, rfl⟩).onSecond (· = Memory.append {} oneBest))

/-- An accepted request whose segments all read well leaves outputs that agree. -/
theorem runInMemories_agree (model : Model) {body : List UInt8} {request : Request}
    (accepted : Request.parse body = .ok request) {input : List UInt8} {units : List Segment}
    (read : Reader.results request.input model.vocabulary request.matchedFile
      { lines := Text.linesOfBytes input } = units.map .ok) :
    (runInMemories model request input).1 = .ok ⟨units.length, units.length⟩ ∧
      Partners.Agree (nbestOf model request) units
        (runInMemories model request input).2.1.written.toList
        (runInMemories model request input).2.2.written.toList := by
  have decoded := (holds_of_results accepted read).1
  have asked : segments model request (Text.linesOfBytes input) =
      units.map fun segment => (pure (some segment) :
        Attempt DecodeFailure (Memory × Memory) (Option Segment)) := by
    rw [segments_eq request.matchedFile, read, map_ask]
  have unwritten : (({}, {}) : Memory × Memory).1 = Memory.append {} [] ∧
      (({}, {}) : Memory × Memory).2 = Memory.append {} [] := by simp
  obtain ⟨after, run, written⟩ := faithful_inMemories.decodeAll decoded unwritten
  have whole : runInMemories model request input = (.ok ⟨units.length, units.length⟩, after) := by
    rw [runInMemories, asked, run]
  rw [whole]
  refine ⟨rfl, ?_⟩
  rw [written.1, written.2, Memory.toList_written_append, Memory.toList_written_append]
  exact agree_of_results accepted read

/-- Two paragraphs of two lines. -/
theorem results_of_two_paragraphs {settings : InputSettings} (vocabulary : Vocabulary)
    (path : String) (two : settings.confidences.length = 2) :
    ∃ first second, Reader.results settings vocabulary path
        { lines := Text.linesOfBytes (Text.encode "a  b\nc\n\nd\ne\n") } =
      [first, second].map .ok := by
  have fits (line other : String) : [line, other].length = settings.confidences.length := two.symm
  have isCut : IsCut (Text.linesOfBytes (Text.encode "a  b\nc\n\nd\ne\n"))
      [.paragraph ["a  b", "c"], .gap "", .paragraph ["d", "e"]] := by
    refine ⟨by decide +kernel, ?_, by simp [Piece.Apart, Piece.IsGap]⟩
    have contents : ∀ line ∈ ["a  b", "c", "d", "e"], ¬Text.AllBlank line.toList := by
      decide +kernel
    have blank : Text.AllBlank [] := by decide
    simpa [Piece.Formed, blank, and_assoc] using contents
  exact ⟨_, _, (Reader.yields_results isCut 0).unique
    (.segment (fits _ _) ((isSegment_iff (fits _ _)).mpr rfl)
      (.gap (.segment (fits _ _) ((isSegment_iff (fits _ _)).mpr rfl) .done)))⟩

/-- Two systems and two segments. -/
theorem runInMemories_agree_of_two_segments :
    ∃ (model : Model) (body input : List UInt8) (request : Request) (units : List Segment),
      Request.parse body = .ok request ∧
      Reader.results request.input model.vocabulary request.matchedFile
        { lines := Text.linesOfBytes input } = units.map .ok ∧
      units.length = 2 ∧
      (runInMemories model request input).1 = .ok ⟨units.length, units.length⟩ ∧
      Partners.Agree (nbestOf model request) units
        (runInMemories model request input).2.1.written.toList
        (runInMemories model request input).2.2.written.toList := by
  let model : Model := ⟨3, .corpus (Model.Corpus.addLine ⟨.empty, 0, 0⟩ "a b".toList)⟩
  let body := Text.encode <| "score.lm=1\nscore.alignment=1\nscore.ngram=1\nscore.overlap=1\n" ++
    "output.one_best=best\ninput.matched_file=matched\ninput.confidence=1 0.5\n"
  have systems : (Request.parse body).toOption.map (fun request =>
      request.input.confidences.length) = some 2 := by decide +kernel
  cases accepted : Request.parse body with
  | error error =>
    rw [accepted] at systems
    cases systems
  | ok request =>
    rw [accepted] at systems
    obtain ⟨first, second, read⟩ := results_of_two_paragraphs model.vocabulary request.matchedFile
      (Option.some.inj systems)
    exact ⟨model, body, _, request, [first, second], accepted, read, rfl,
      runInMemories_agree model accepted read⟩

end Pipeline

end SystemCombination
