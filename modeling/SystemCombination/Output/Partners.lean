import SystemCombination.Output.Sink

/-! The partners of a decode. Segments are asked for until there are none left; each is decoded
and written to the one-best sink and then, if there is one, to the oracle sink. Both are finished
at the end. The first action that fails ends it all. -/

namespace SystemCombination

/-- What a completed decode has done. -/
structure Summary where
  /-- How many segments were read. -/
  units : Nat := 0
  /-- How many of them had a hypothesis. -/
  decoded : Nat := 0
deriving DecidableEq, Repr

/-- The summary after one more segment. -/
def Summary.add (summary : Summary) (nbest : List Hypothesis) : Summary :=
  { units := summary.units + 1
    decoded := if nbest.isEmpty then summary.decoded else summary.decoded + 1 }

variable {m : Type → Type} [Monad m]

/-- What takes part in a decode. -/
structure Partners (m : Type → Type) where
  decode : Segment → m (List Hypothesis)
  oneBest : Sink m
  oracle : Option (Sink m)

namespace Partners

/-- Decode and write one segment. -/
def decodeOne (partners : Partners m) (segment : Segment) : m (List Hypothesis) := do
  let nbest ← partners.decode segment
  partners.oneBest.write segment nbest
  if let some oracle := partners.oracle then oracle.write segment nbest
  return nbest

def finish (partners : Partners m) : m Unit := do
  partners.oneBest.finish
  if let some oracle := partners.oracle then oracle.finish

/-- Carry on from a summary with the requests for a segment that are left. There are no segments
left when a request yields none, or no request is left. -/
def decodeFrom (partners : Partners m) (summary : Summary) :
    List (m (Option Segment)) → m Summary
  | [] => do
    partners.finish
    return summary
  | ask :: rest => do
    match ← ask with
    | none =>
      partners.finish
      return summary
    | some segment =>
      let nbest ← partners.decodeOne segment
      partners.decodeFrom (summary.add nbest) rest

/-- Decode and write every segment that the requests yield. -/
def decodeAll (partners : Partners m) (requests : List (m (Option Segment))) : m Summary :=
  partners.decodeFrom {} requests

end Partners

end SystemCombination
