import Mathlib.Data.List.Forall2
import SystemCombination.Pipeline
import SystemCombination.Proofs.Decoder.Best
import SystemCombination.Proofs.Output.Faithful
import SystemCombination.Proofs.Request.Verdict
import SystemCombination.Proofs.Segment.Calls
import SystemCombination.Proofs.Text.Lines

/-! The one-best lines of a decode onto a stream in memory. There is a line for each paragraph up
to the first piece that yields no segment, and nothing else; the line of a paragraph depends on
that paragraph alone. -/

namespace SystemCombination.Pipeline

/-- The partners of a decode without an oracle onto a stream in memory. -/
def partnersInMemory (model : Model) (request : Request) :
    Partners (ExceptT DecodeFailure (StateM Memory)) :=
  { partners model request Memory.stream Memory.stream with oracle := none }

/-- Decode the lines of the input at `path`, which its failures name, onto an empty memory. -/
def runInMemory (model : Model) (request : Request) (path : String) (input : List UInt8) :
    Except DecodeFailure Summary × Memory :=
  (partnersInMemory model request).decodeAll
    (segments model { request with matchedFile := path } (Text.linesOfBytes input)) {}

/-- The hypotheses for a segment. -/
abbrev nbestOf (model : Model) (request : Request) (segment : Segment) : List Hypothesis :=
  Decoder.nbest model.order request.decoder segment

/-- The text of the first hypothesis for a segment. -/
def bestText (model : Model) (request : Request) (segment : Segment) : String :=
  ((nbestOf model request segment).head?.map Hypothesis.text).getD ""

section Run

variable {model : Model} {request : Request} {memory : Memory}

theorem faithful_inMemory (free : memory.Free) :
    (partnersInMemory model request).Faithful (nbestOf model request)
      fun after oneBest _ => after = memory.append oneBest where
  decode _ := rfl
  oneBest _ := Output.oneBestSink_takes request.oneBest (Memory.stream_faithful free)
  oracle _ isOracle := nomatch isOracle

/-- Segments that all have a hypothesis are counted, and their lines are written. -/
theorem decodeFrom_units (free : memory.Free) (summary : Summary) {units : List Segment}
    (decoded : ∀ segment ∈ units, nbestOf model request segment ≠ [])
    (rest : List (Attempt DecodeFailure Memory (Option Segment))) :
    (partnersInMemory model request).decodeFrom summary
        ((units.map fun segment => pure (some segment)) ++ rest) memory =
      (partnersInMemory model request).decodeFrom
        ⟨summary.units + units.length, summary.decoded + units.length⟩ rest
        (memory.append (Text.encodeLines (units.map (bestText model request)))) := by
  have unwritten : memory = memory.append [] := Memory.append_nil.symm
  obtain ⟨_, run, rfl⟩ := @Partners.Faithful.decodeFrom _ _ _ _ _ _ _ [] (faithful_inMemory free)
    summary _ decoded rest unwritten
  exact run

theorem decodeFrom_done (free : memory.Free) (summary : Summary) :
    (partnersInMemory model request).decodeFrom summary [] memory = (.ok summary, memory) := by
  have unwritten : memory = memory.append [] := Memory.append_nil.symm
  obtain ⟨after, run, same⟩ := @Partners.Faithful.decodeFrom_nil _ _ _ _ _ _ _ []
    (faithful_inMemory free) summary unwritten
  obtain rfl : memory = after := unwritten.trans same.symm
  exact run

end Run

open Partners (decodeFrom_throw)

/-! ### The segments of the pieces -/

/-- The paragraphs among the pieces. -/
def paragraphs (pieces : List Piece) : List (List String) :=
  pieces.filterMap fun piece =>
    match piece with
    | .paragraph run => some run
    | _ => none

/-- A piece that stops nothing when a segment has `count` lines. -/
def Fits (count : Nat) : Piece → Prop
  | .gap _ => True
  | .paragraph run => run.length = count
  | .broken _ _ => False

/-- The failure that a piece causes when `index` paragraphs came before. -/
inductive Stops (count : Nat) (path : String) (index : Nat) : Piece → DecodeFailure → Prop
  | broken {run : List String} {error : IoError} :
      Stops count path index (.broken run error) (.read path error)
  | misfit {run : List String} (misfits : run.length ≠ count) :
      Stops count path index (.paragraph run) (.inputShape index count run.length)

/-- What is left of the pieces and of the results where the segments end. -/
inductive Remains (count : Nat) (path : String) (index : Nat) :
    List Piece → List (Except DecodeFailure Segment) → Prop
  | nothing : Remains count path index [] []
  | failure {piece : Piece} {pieces : List Piece} {failure : DecodeFailure}
      {results : List (Except DecodeFailure Segment)}
      (stops : Stops count path index piece failure) :
      Remains count path index (piece :: pieces) (.error failure :: results)

theorem mem_paragraphs {pieces : List Piece} {run : List String} :
    run ∈ paragraphs pieces ↔ .paragraph run ∈ pieces := by
  rw [paragraphs, List.mem_filterMap]
  constructor
  · rintro ⟨piece, member, same⟩
    cases piece <;> cases same
    exact member
  · intro member
    exact ⟨_, member, rfl⟩

/-- The segments up to the first failure are those of the paragraphs before it, one for one. -/
theorem split_yields {settings : InputSettings} {vocabulary : Vocabulary} {path : String}
    {index : Nat} {pieces : List Piece} {results : List (Except DecodeFailure Segment)}
    (h : Yields settings vocabulary path index pieces results) :
    ∃ before rest units later, pieces = before ++ rest ∧ results = units.map .ok ++ later ∧
      (∀ piece ∈ before, Fits settings.confidences.length piece) ∧
      List.Forall₂ (fun run segment => ∃ index, IsSegment settings vocabulary index run segment)
        (paragraphs before) units ∧
      Remains settings.confidences.length path (index + units.length) rest later := by
  induction h with
  | done => exact ⟨[], [], [], [], rfl, rfl, by simp, .nil, .nothing⟩
  | @gap _ line _ _ _ ih =>
    obtain ⟨before, rest, units, later, rfl, rfl, fit, alike, remains⟩ := ih
    exact ⟨.gap line :: before, rest, units, later, rfl, rfl,
      List.forall_mem_cons.mpr ⟨trivial, fit⟩, alike, remains⟩
  | @segment index run segment _ _ fits isSegment _ ih =>
    obtain ⟨before, rest, units, later, rfl, rfl, fit, alike, remains⟩ := ih
    refine ⟨.paragraph run :: before, rest, segment :: units, later, rfl, rfl,
      List.forall_mem_cons.mpr ⟨fits, fit⟩, ?_, ?_⟩
    · exact .cons ⟨index, isSegment⟩ alike
    · rw [List.length_cons, Nat.add_comm units.length, ← Nat.add_assoc]
      exact remains
  | shape misfits =>
    exact ⟨[], _, [], _, rfl, rfl, by simp, .nil, .failure (.misfit misfits)⟩
  | broken => exact ⟨[], _, [], _, rfl, rfl, by simp, .nil, .failure .broken⟩

/-- Where every result is a segment, every piece fits and the paragraphs make the segments. -/
theorem alike_of_yields {settings : InputSettings} {vocabulary : Vocabulary} {path : String}
    {index : Nat} {pieces : List Piece} {units : List Segment}
    (h : Yields settings vocabulary path index pieces (units.map .ok)) :
    (∀ piece ∈ pieces, Fits settings.confidences.length piece) ∧
      List.Forall₂ (fun run segment => ∃ index, IsSegment settings vocabulary index run segment)
        (paragraphs pieces) units := by
  obtain ⟨before, rest, found, later, rfl, results, fit, alike, remains⟩ := split_yields h
  cases remains with
  | nothing =>
    rw [List.append_nil] at results
    obtain rfl : units = found :=
      List.map_injective_iff.mpr (fun _ _ same => Except.ok.inj same) results
    rw [List.append_nil]
    exact ⟨fit, alike⟩
  | failure =>
    have isResult := results ▸ List.mem_append_right _ List.mem_cons_self
    obtain ⟨_, _, isOk⟩ := List.mem_map.mp isResult
    cases isOk

/-! ### The lines of the paragraphs -/

/-- The one-best line of a paragraph: the text of the first hypothesis for the segment that its
lines by themselves are read as, which is one of them with the words spaced anew. -/
structure IsBest (model : Model) (request : Request) (run : List String) (text : String) :
    Prop where
  first : ∃ segment,
    Reader.results request.input model.vocabulary request.matchedFile
        { lines := (Piece.paragraph run).lines } = [.ok segment] ∧
      (nbestOf model request segment).head?.map Hypothesis.text = some text
  respaced : ∃ line ∈ run, text = Text.respaced line
  content : ¬Text.AllBlank text.toList

/-- The bytes are a line for each of the paragraphs, in order, and nothing else. -/
def Holds (model : Model) (request : Request) (runs : List (List String)) (bytes : List UInt8) :
    Prop :=
  ∃ texts, bytes.splitOn 10 = texts.map Text.encode ++ [[]] ∧
    List.Forall₂ (IsBest model request) runs texts

section Lines

variable {model : Model} {request : Request}

/-- The text of a hypothesis is a line of the paragraph with the words spaced anew. -/
theorem exists_line_of_mem_nbestOf {run : List String} {index : Nat} {segment : Segment}
    (fits : run.length = request.input.confidences.length)
    (isSegment : IsSegment request.input model.vocabulary index run segment)
    {hypothesis : Hypothesis} (member : hypothesis ∈ nbestOf model request segment) :
    ∃ line ∈ run, hypothesis.text = Text.respaced line := by
  obtain ⟨_, stands, text⟩ := Decoder.mem_nbestIn member
  obtain ⟨line, isLine, _, rfl⟩ := isSegment.exists_line fits stands
  exact ⟨line, isLine, text⟩

section Paragraph

variable {run : List String} {index : Nat} {segment : Segment}
  (beamSize : 1 ≤ request.decoder.beamSize) (nbestSize : 1 ≤ request.decoder.nbestSize)
  (formed : (Piece.paragraph run).Formed)
  (fits : run.length = request.input.confidences.length)
  (isSegment : IsSegment request.input model.vocabulary index run segment)

include beamSize nbestSize formed fits isSegment

theorem exists_first :
    ∃ hypothesis, (nbestOf model request segment).head? = some hypothesis ∧
      ∃ line ∈ run, hypothesis.text = Text.respaced line := by
  have systems : segment.systems ≠ [] := by
    have count := isSegment.count
    have := List.length_pos_iff.mpr formed.1
    exact List.ne_nil_of_length_pos (by omega)
  have some_kept : nbestOf model request segment ≠ [] :=
    Decoder.nbestIn_ne_nil beamSize nbestSize systems
  obtain ⟨hypothesis, others, kept⟩ := List.exists_cons_of_ne_nil some_kept
  have member : hypothesis ∈ nbestOf model request segment := kept ▸ List.mem_cons_self
  exact ⟨hypothesis, by rw [kept]; rfl, exists_line_of_mem_nbestOf fits isSegment member⟩

theorem nbestOf_ne_nil : nbestOf model request segment ≠ [] := by
  obtain ⟨_, first, _⟩ := exists_first beamSize nbestSize formed fits isSegment
  intro none_kept
  rw [none_kept] at first
  cases first

/-- The number of a segment has no part in its line. -/
theorem isBest_bestText : IsBest model request run (bestText model request segment) := by
  obtain ⟨hypothesis, first, line, member, text⟩ :=
    exists_first beamSize nbestSize formed fits isSegment
  have best : bestText model request segment = hypothesis.text := by
    rw [bestText, first]
    rfl
  refine ⟨⟨_, Reader.results_alone formed fits, ?_⟩, ⟨line, member, best.trans text⟩, ?_⟩
  · obtain rfl := (isSegment_iff fits).mp isSegment
    have same : nbestOf model request (Reader.segmentOf request.input model.vocabulary 0 run) =
        nbestOf model request (Reader.segmentOf request.input model.vocabulary index run) :=
      Decoder.nbest_index model.order request.decoder
        (Reader.segmentOf request.input model.vocabulary index run) 0
    rw [same, first, best]
    rfl
  · rw [best, text]
    exact Text.not_allBlank_respaced (formed.2 line member)

end Paragraph

theorem holds_encodeLines {runs : List (List String)} {texts : List String}
    (best : List.Forall₂ (IsBest model request) runs texts) :
    Holds model request runs (Text.encodeLines texts) := by
  have fresh : ∀ text ∈ texts, '\n' ∉ text.toList := by
    induction best with
    | nil => simp
    | cons isBest _ ih =>
      obtain ⟨line, _, rfl⟩ := isBest.respaced
      exact List.forall_mem_cons.mpr ⟨Text.newline_not_mem_respaced line, ih⟩
  exact ⟨texts, Text.splitOn_encodeLines fresh, best⟩

/-- The request for what a result holds. -/
def ask {σ : Type} : Except DecodeFailure Segment → Attempt DecodeFailure σ (Option Segment)
  | .ok segment => pure (some segment)
  | .error failure => throw failure

/-- How a decode of the lines that the pieces make up ends, and what it leaves in the memory. A
failure comes from the first piece that yields no segment, after a line for each segment. -/
inductive Outcome (model : Model) (request : Request) (path : String) (reader : Reader) :
    List Piece → Except DecodeFailure Summary → List UInt8 → Prop
  | complete {pieces : List Piece} {bytes : List UInt8}
      (fit : ∀ piece ∈ pieces, Fits request.input.confidences.length piece)
      (holds : Holds model request (paragraphs pieces) bytes) :
      Outcome model request path reader pieces
        (.ok ⟨(paragraphs pieces).length, (paragraphs pieces).length⟩) bytes
  | stopped {before : List Piece} {piece : Piece} {after : List Piece} {failure : DecodeFailure}
      {bytes : List UInt8}
      (fit : ∀ piece ∈ before, Fits request.input.confidences.length piece)
      (stops : Stops request.input.confidences.length path (paragraphs before).length piece failure)
      (delivered : ∀ n < (paragraphs before).length, ∃ segment,
        reader.call request.input model.vocabulary path n = .ok (some segment))
      (failed : reader.call request.input model.vocabulary path (paragraphs before).length =
        .error failure)
      (holds : Holds model request (paragraphs before) bytes) :
      Outcome model request path reader (before ++ piece :: after) (.error failure) bytes

theorem segments_eq {σ : Type} (path : String) (lines : List Text.Line) :
    (segments model { request with matchedFile := path } lines :
      List (Attempt DecodeFailure σ (Option Segment))) =
      (Reader.results request.input model.vocabulary path { lines }).map ask := by
  refine List.map_congr_left fun result _ => ?_
  cases result <;> rfl

theorem best_of_alike {runs : List (List String)} {units : List Segment}
    (beamSize : 1 ≤ request.decoder.beamSize) (nbestSize : 1 ≤ request.decoder.nbestSize)
    (formed : ∀ run ∈ runs, (Piece.paragraph run).Formed ∧
      run.length = request.input.confidences.length)
    (alike : List.Forall₂ (fun run segment =>
      ∃ index, IsSegment request.input model.vocabulary index run segment) runs units) :
    (∀ segment ∈ units, nbestOf model request segment ≠ []) ∧
      List.Forall₂ (IsBest model request) runs (units.map (bestText model request)) := by
  induction alike with
  | nil => exact ⟨by simp, .nil⟩
  | cons made _ ih =>
    obtain ⟨_, isSegment⟩ := made
    have ⟨⟨first, fits⟩, formed⟩ := List.forall_mem_cons.mp formed
    have ⟨decoded, best⟩ := ih formed
    have nonempty := nbestOf_ne_nil beamSize nbestSize first fits isSegment
    have isBest := isBest_bestText beamSize nbestSize first fits isSegment
    exact ⟨List.forall_mem_cons.mpr ⟨nonempty, decoded⟩, .cons isBest best⟩

theorem map_ask {σ : Type} (units : List Segment) :
    ((units.map Except.ok).map ask : List (Attempt DecodeFailure σ (Option Segment))) =
      units.map fun segment => pure (some segment) := by
  rw [List.map_map]
  rfl

/-- Segments that all have a hypothesis leave the rest of the results to be asked for. -/
theorem runInMemory_eq {path : String} {input : List UInt8} {units : List Segment}
    {later : List (Except DecodeFailure Segment)}
    (results : Reader.results request.input model.vocabulary path
      { lines := Text.linesOfBytes input } = units.map .ok ++ later)
    (decoded : ∀ segment ∈ units, nbestOf model request segment ≠ []) :
    runInMemory model request path input =
      (partnersInMemory model request).decodeFrom ⟨units.length, units.length⟩ (later.map ask)
        (Memory.append {} (Text.encodeLines (units.map (bestText model request)))) := by
  have free : Memory.Free {} := ⟨rfl, rfl⟩
  rw [runInMemory, segments_eq, results, List.map_append, map_ask, Partners.decodeAll,
    decodeFrom_units free _ decoded]
  simp

/-- Decoding an accepted request writes a line for each paragraph up to the first failure. -/
theorem runInMemory_outcome (model : Model) {body : List UInt8} {request : Request}
    (accepted : Request.parse body = .ok request) (path : String) (input : List UInt8) :
    ∃ pieces, IsCut (Text.linesOfBytes input) pieces ∧
      Outcome model request path { lines := Text.linesOfBytes input } pieces
        (runInMemory model request path input).1
        (runInMemory model request path input).2.written.toList := by
  have isCut := isCut_cut (Text.linesOfBytes input)
  have yields : Yields request.input model.vocabulary path 0 _ _ := Reader.yields_results isCut 0
  obtain ⟨before, rest, units, later, whole, results, fit, alike, remains⟩ := split_yields yields
  have formed : ∀ run ∈ paragraphs before, (Piece.paragraph run).Formed ∧
      run.length = request.input.confidences.length := by
    intro run member
    have place := mem_paragraphs.mp member
    exact ⟨isCut.formed _ (whole ▸ List.mem_append_left rest place), fit _ place⟩
  have ⟨decoded, best⟩ := best_of_alike (Request.one_le_beamSize accepted)
    (Request.one_le_nbestSize accepted) formed alike
  have holds := holds_encodeLines best
  have count := alike.length_eq
  have free : (Memory.append {} (Text.encodeLines (units.map (bestText model request)))).Free :=
    ⟨rfl, rfl⟩
  refine ⟨_, isCut, ?_⟩
  rw [runInMemory_eq results decoded, whole]
  cases remains with
  | nothing =>
    rw [List.map_nil, decodeFrom_done free, List.append_nil, Memory.toList_written_append, ← count]
    exact .complete fit holds
  | failure stops =>
    have ⟨delivered, failed⟩ := Reader.calls_before_failure results
    rw [Nat.zero_add, ← count] at stops
    rw [← count] at delivered failed
    rw [List.map_cons, ask, decodeFrom_throw, Memory.toList_written_append]
    exact .stopped fit stops delivered failed holds

end Lines

/-- Two systems and two paragraphs, the second without a line from the second system. -/
theorem runInMemory_outcome_of_two_systems :
    ∃ body request, Request.parse body = .ok request ∧
      ∃ pieces, IsCut (Text.linesOfBytes (Text.encode "a  b\nc\n\nd\n")) pieces ∧
        Outcome ⟨3, .corpus ⟨.empty, 0, 0⟩⟩ request "matched"
          { lines := Text.linesOfBytes (Text.encode "a  b\nc\n\nd\n") } pieces
          (runInMemory ⟨3, .corpus ⟨.empty, 0, 0⟩⟩ request "matched"
            (Text.encode "a  b\nc\n\nd\n")).1
          (runInMemory ⟨3, .corpus ⟨.empty, 0, 0⟩⟩ request "matched"
            (Text.encode "a  b\nc\n\nd\n")).2.written.toList := by
  let body := Text.encode <| "score.lm=1\nscore.alignment=1\nscore.ngram=1\nscore.overlap=1\n" ++
    "output.one_best=best\ninput.matched_file=matched\ninput.confidence=1 0.5\n"
  have isRequest : (Request.parse body).toOption.isSome = true := by decide +kernel
  cases accepted : Request.parse body with
  | error error =>
    rw [accepted] at isRequest
    cases isRequest
  | ok request => exact ⟨body, request, accepted, runInMemory_outcome _ accepted _ _⟩

end SystemCombination.Pipeline
