import SystemCombination.Decoder.Features

/-! The decoder. Every line of a segment is a candidate; the most confident systems are scored and
the best hypotheses are kept, best first. -/

namespace SystemCombination

structure Hypothesis where
  system : Nat
  text : String
  score : Binary64
  features : Features

/-- One hypothesis is ranked before another if its score is greater in the total order or, where
the scores have the same place, if its system comes first. -/
def Hypothesis.ranksBefore (a b : Hypothesis) : Bool :=
  let (left, right) := (a.score.totalKey, b.score.totalKey)
  right < left || (left = right && a.system ≤ b.system)

namespace Decoder

/-- The candidates of a segment that are scored: the systems with the greatest confidence, of two
as confident the first. -/
def beam (size : Nat) (systems : List Rendition) : List (Rendition × Nat) :=
  (systems.zipIdx.mergeSort fun a b => a.1.confidence.fallsTo b.1.confidence).take size

def hypothesis (arrangement : Arrangement) (order : Nat) (settings : DecoderSettings)
    (segment : Segment) (system : Nat) (line : Rendition) : Hypothesis :=
  let eligible := eligible settings.horizon segment.systems
  let features := features arrangement order settings segment eligible system line
  { system, text := line.text, score := features.score settings.weights, features }

/-- The best hypotheses for a segment, best first, for a model of the given order, where supporters
are added up in an arrangement. -/
def nbestIn (arrangement : Arrangement) (order : Nat) (settings : DecoderSettings)
    (segment : Segment) : List Hypothesis :=
  let scored := (beam settings.beamSize segment.systems).map fun (line, system) =>
    hypothesis arrangement order settings segment system line
  (scored.mergeSort Hypothesis.ranksBefore).take settings.nbestSize

/-- The best hypotheses for a segment, where supporters are added up by rising index. -/
def nbest (order : Nat) (settings : DecoderSettings) (segment : Segment) : List Hypothesis :=
  nbestIn .rising order settings segment

end Decoder

end SystemCombination
