import SystemCombination.Output.Stream

/-! A stream in memory. It may have a limit; once more is asked of it than the limit admits, it
refuses everything. It may also refuse to be flushed. -/

namespace SystemCombination

structure Memory where
  written : Array UInt8 := #[]
  /-- How many bytes it holds at most, and what it answers past that. -/
  limit : Option (Nat × IoError) := none
  /-- Whether the limit has been passed. -/
  full : Bool := false
  flushError : Option IoError := none

namespace Memory

def write (bytes : List UInt8) : Attempt IoError Memory Unit :=
  ExceptT.mk fun memory =>
    match memory.limit with
    | none => (.ok (), { memory with written := memory.written ++ bytes })
    | some (limit, error) =>
      if memory.full || limit < memory.written.size + bytes.length then
        (.error error, { memory with full := true })
      else (.ok (), { memory with written := memory.written ++ bytes })

def flush : Attempt IoError Memory Unit :=
  ExceptT.mk fun memory =>
    match memory.flushError with
    | some error => (.error error, memory)
    | none => (.ok (), memory)

def stream : Stream Memory := ⟨write, flush⟩

end Memory

end SystemCombination
