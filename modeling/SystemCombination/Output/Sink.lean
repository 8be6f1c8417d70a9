import SystemCombination.Decimal.Fixed
import SystemCombination.Decoder.Basic
import SystemCombination.Output.Stream

/-! Sinks take the hypotheses of one segment after the other. The one-best sink writes a line with
the text of the first hypothesis of each segment. The oracle sink writes a line for every
hypothesis: segment, rank, system, score with six decimal places, and text, with tabs between
them. -/

namespace SystemCombination

structure Sink (m : Type → Type) where
  /-- Take the hypotheses of a segment. -/
  write : Segment → List Hypothesis → m Unit
  /-- Settle what was written once every segment has been. -/
  finish : m Unit

namespace Output

/-- The one-best line of a segment, in pieces; it is empty where there is no hypothesis. -/
def oneBestPieces (nbest : List Hypothesis) : List String :=
  [(nbest.head?.map Hypothesis.text).getD "", "\n"]

/-- The decimal places of a score. -/
def scorePlaces : Nat := 6

/-- The oracle line of a hypothesis, in pieces. -/
def oraclePieces (segment rank : Nat) (hypothesis : Hypothesis) : List String :=
  [toString segment, "\t", toString rank, "\t", toString hypothesis.system, "\t",
    Decimal.fixed scorePlaces hypothesis.score, "\t", hypothesis.text, "\n"]

/-- The oracle lines of hypotheses, the first of which has the given rank. -/
def oracleLines (segment : Nat) (rank : Nat) : List Hypothesis → List (List String)
  | [] => []
  | hypothesis :: rest =>
    oraclePieces segment rank hypothesis :: oracleLines segment (rank + 1) rest

variable {σ : Type}

/-- The action on the output at `path`, with its refusals reported as failures to write there. -/
def writing (path : String) (action : Attempt IoError σ Unit) : Attempt DecodeFailure σ Unit :=
  ExceptT.adapt (DecodeFailure.write path) action

def oneBestSink (path : String) (stream : Stream σ) : Sink (ExceptT DecodeFailure (StateM σ)) where
  write _ nbest := writing path (stream.putPieces (oneBestPieces nbest))
  finish := writing path stream.flush

def oracleSink (path : String) (stream : Stream σ) : Sink (ExceptT DecodeFailure (StateM σ)) where
  write segment nbest :=
    writing path (stream.putPieces (oracleLines segment.index 0 nbest).flatten)
  finish := writing path stream.flush

end Output

end SystemCombination
