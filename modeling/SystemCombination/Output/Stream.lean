import SystemCombination.Segment.Failure
import SystemCombination.Text.Utf8

/-! Streams of bytes. A stream lives in a state `σ`; each of its operations may be refused, and
the state that a refused operation leaves is kept. -/

namespace SystemCombination

/-- An action on `σ` that may end with an error. -/
abbrev Attempt (ε σ α : Type) := ExceptT ε (StateM σ) α

structure Stream (σ : Type) where
  write : List UInt8 → Attempt IoError σ Unit
  flush : Attempt IoError σ Unit

namespace Stream

variable {σ : Type}

/-- Write pieces of text from the first to the last; an empty piece asks for nothing. -/
def putPieces (stream : Stream σ) : List String → Attempt IoError σ Unit
  | [] => pure ()
  | piece :: pieces => do
    if piece ≠ "" then stream.write (Text.encode piece)
    stream.putPieces pieces

end Stream

end SystemCombination
