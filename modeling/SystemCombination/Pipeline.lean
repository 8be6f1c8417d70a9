import SystemCombination.Model.Basic
import SystemCombination.Output.Partners
import SystemCombination.Segment.Reader

/-! The pipeline of a request. The lines of a matched file are read as segments, each segment is
decoded, and its hypotheses are written to the one-best stream and, if the request wants an
oracle, to the oracle stream. -/

namespace SystemCombination.Pipeline

variable {σ : Type}

/-- The partners of a request's decode, which write to the given streams. -/
def partners (model : Model) (request : Request) (oneBest oracle : Stream σ) :
    Partners (ExceptT DecodeFailure (StateM σ)) where
  decode segment := pure (Decoder.nbest model.order request.decoder segment)
  oneBest := Output.oneBestSink request.oneBest oneBest
  oracle :=
    if request.wantsOracle then some (Output.oracleSink request.oraclePath oracle) else none

/-- The requests for the segments in the lines of a matched file. -/
def segments (model : Model) (request : Request) (lines : List Text.Line) :
    List (Attempt DecodeFailure σ (Option Segment)) :=
  (Reader.results request.input model.vocabulary request.matchedFile { lines }).map fun result =>
    match result with
    | .ok segment => pure (some segment)
    | .error error => throw error

/-- Decode the lines of a matched file onto the given streams. -/
def run (model : Model) (request : Request) (oneBest oracle : Stream σ) (lines : List Text.Line) :
    Attempt DecodeFailure σ Summary :=
  (partners model request oneBest oracle).decodeAll (segments model request lines)

end SystemCombination.Pipeline
