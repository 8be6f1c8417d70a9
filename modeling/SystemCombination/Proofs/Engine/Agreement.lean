import SystemCombination.Engine
import SystemCombination.Proofs.Pipeline.OneBest

/-! Two runs side by side. Readers that make related segments of the same paragraphs have results
that correspond, failures included; and where segments that correspond have the same number and
the same hypotheses, the runs do the same to their outputs, onto any streams and onto files. -/

namespace SystemCombination

/-- Results that are the same failure, or segments that are related. -/
inductive Corresponds (R : Segment → Segment → Prop) :
    Except DecodeFailure Segment → Except DecodeFailure Segment → Prop
  | failure (failure : DecodeFailure) : Corresponds R (.error failure) (.error failure)
  | segment {segment segment' : Segment} (related : R segment segment') :
      Corresponds R (.ok segment) (.ok segment')

section Reading

variable {settings settings' : InputSettings} {vocabulary vocabulary' : Vocabulary}
  {R : Segment → Segment → Prop}
  (confidences : settings.confidences = settings'.confidences)
  (made : ∀ (index : Nat) (run : List String), run.length = settings.confidences.length →
    R (Reader.segmentOf settings vocabulary index run)
      (Reader.segmentOf settings' vocabulary' index run))

include confidences made

theorem Yields.correspond {path : String} {index : Nat} {pieces : List Piece}
    {results results' : List (Except DecodeFailure Segment)}
    (h : Yields settings vocabulary path index pieces results)
    (h' : Yields settings' vocabulary' path index pieces results') :
    List.Forall₂ (Corresponds R) results results' := by
  -- Both readers see the same pieces, so each step of the first leaves one case for the second.
  induction h generalizing results' with
  | done => cases h'; exact .nil
  | gap _ ih =>
    cases h' with
    | gap later => exact ih later
  | @segment index run _ _ _ fits isSegment _ ih =>
    have fits' : run.length = settings'.confidences.length := confidences ▸ fits
    cases h' with
    | segment _ isSegment' later =>
      rw [(isSegment_iff fits).mp isSegment, (isSegment_iff fits').mp isSegment']
      exact .cons (.segment (made index run fits)) (ih later)
    | shape misfits => exact absurd fits' misfits
  | shape misfits _ ih =>
    cases h' with
    | segment fits => exact absurd (confidences ▸ fits) misfits
    | shape _ later =>
      rw [confidences]
      exact .cons (.failure _) (ih later)
  | broken _ ih =>
    cases h' with
    | broken later => exact .cons (.failure _) (ih later)

theorem Reader.results_correspond (path : String) (lines : List Text.Line) :
    List.Forall₂ (Corresponds R) (results settings vocabulary path { lines })
      (results settings' vocabulary' path { lines }) :=
  (yields_results (isCut_cut lines) 0).correspond confidences made
    (yields_results (isCut_cut lines) 0)

end Reading

namespace Pipeline

section Partners

variable {σ : Type} {partners partners' : Partners (ExceptT DecodeFailure (StateM σ))}
  {R : Segment → Segment → Prop}

theorem decodeFrom_congr (one : ∀ segment segment', R segment segment' →
      partners.decodeOne segment = partners'.decodeOne segment')
    (finish : partners.finish = partners'.finish)
    {results results' : List (Except DecodeFailure Segment)}
    (correspond : List.Forall₂ (Corresponds R) results results') (summary : Summary) :
    partners.decodeFrom summary (results.map ask) =
      partners'.decodeFrom summary (results'.map ask) := by
  induction correspond generalizing summary with
  | nil => rw [List.map_nil, Partners.decodeFrom, Partners.decodeFrom, finish]
  | cons first _ ih =>
    cases first with
    | failure =>
      funext state
      rw [List.map_cons, List.map_cons, ask, Partners.decodeFrom_throw,
        Partners.decodeFrom_throw]
    | segment related =>
      simp only [List.map_cons, ask, Partners.decodeFrom, pure_bind, one _ _ related, ih]

end Partners

variable {model model' : Model} {request request' : Request}

/-- Segments that have the same number and the same hypotheses in two runs. -/
structure SameDecode (model model' : Model) (request request' : Request)
    (segment segment' : Segment) : Prop where
  index : segment.index = segment'.index
  nbest : nbestOf model request segment = nbestOf model' request' segment'

/-- Requests that write to the same places. -/
structure SamePaths (request request' : Request) : Prop where
  matchedFile : request.matchedFile = request'.matchedFile
  oneBest : request.oneBest = request'.oneBest
  oraclePrefix : request.oraclePrefix = request'.oraclePrefix

theorem SamePaths.wantsOracle (h : SamePaths request request') :
    request.wantsOracle = request'.wantsOracle := by
  simp only [Request.wantsOracle, h.oraclePrefix]

theorem SamePaths.oraclePath (h : SamePaths request request') :
    request.oraclePath = request'.oraclePath := by
  simp only [Request.oraclePath, h.oraclePrefix]

theorem run_congr {σ : Type} (paths : SamePaths request request') {lines : List Text.Line}
    (correspond : List.Forall₂ (Corresponds (SameDecode model model' request request'))
      (Reader.results request.input model.vocabulary request.matchedFile { lines })
      (Reader.results request'.input model'.vocabulary request'.matchedFile { lines }))
    (oneBest oracle : Stream σ) :
    run model request oneBest oracle lines = run model' request' oneBest oracle lines := by
  have one (segment segment' : Segment) (same : SameDecode model model' request request'
      segment segment') : (partners model request oneBest oracle).decodeOne segment =
        (partners model' request' oneBest oracle).decodeOne segment' := by
    simp only [Partners.decodeOne, partners, pure_bind, same.nbest, paths.oneBest,
      paths.wantsOracle, paths.oraclePath]
    cases request'.wantsOracle with
    | false => rfl
    | true =>
      simp only [if_true, Output.oneBestSink, Output.oracleSink, same.index]
  have finish : (partners model request oneBest oracle).finish =
      (partners model' request' oneBest oracle).finish := by
    simp only [Partners.finish, partners, paths.oneBest, paths.wantsOracle, paths.oraclePath]
  rw [run, run, segments_eq request.matchedFile, segments_eq request'.matchedFile]
  exact decodeFrom_congr one finish correspond {}

end Pipeline

namespace Engine

open Pipeline

/-- Runs with the same segments and hypotheses end alike and leave the same files. -/
theorem run_congr {model model' : Model} {request request' : Request}
    (paths : SamePaths request request')
    (correspond : ∀ lines, List.Forall₂ (Corresponds (SameDecode model model' request request'))
      (Reader.results request.input model.vocabulary request.matchedFile { lines })
      (Reader.results request'.input model'.vocabulary request'.matchedFile { lines }))
    (files : Files) : run model request files = run model' request' files := by
  have decode (input : Location) (outputs : Outputs) :
      decodeInto model request input outputs = decodeInto model' request' input outputs := by
    simp only [decodeInto, Pipeline.run_congr paths (correspond _)]
  simp only [run, paths.matchedFile, paths.oneBest, paths.wantsOracle, paths.oraclePath, decode]

end Engine

end SystemCombination
