import SystemCombination.Output.Memory

/-! Running actions on a state, and writing to a memory that refuses nothing. -/

namespace SystemCombination

namespace Attempt

variable {ε σ α β : Type} {action : Attempt ε σ α} {state after : σ}

/-- After an action that succeeds comes what follows it. -/
theorem bind_ok {value : α} (h : action state = (.ok value, after)) (next : α → Attempt ε σ β) :
    (action >>= next) state = next value after := by
  simp only [bind, ExceptT.bind, ExceptT.mk, StateT.bind, h, ExceptT.bindCont]

/-- After an action that fails comes nothing. -/
theorem bind_error {error : ε} (h : action state = (.error error, after))
    (next : α → Attempt ε σ β) : (action >>= next) state = (.error error, after) := by
  simp only [bind, ExceptT.bind, ExceptT.mk, StateT.bind, h, ExceptT.bindCont]
  rfl

end Attempt

namespace Memory

/-- A memory that refuses nothing. -/
structure Free (memory : Memory) : Prop where
  limit : memory.limit = none
  flushError : memory.flushError = none

/-- The memory with more bytes written to it. -/
def append (memory : Memory) (bytes : List UInt8) : Memory :=
  { memory with written := memory.written ++ bytes }

variable {memory : Memory}

theorem Free.append (free : memory.Free) (bytes : List UInt8) : (memory.append bytes).Free :=
  ⟨free.limit, free.flushError⟩

@[simp] theorem append_nil : memory.append [] = memory := by
  simp [append]

@[simp] theorem append_append (left right : List UInt8) :
    (memory.append left).append right = memory.append (left ++ right) := by
  simp [append, ← Array.toList_inj]

@[simp] theorem toList_written_append (memory : Memory) (bytes : List UInt8) :
    (memory.append bytes).written.toList = memory.written.toList ++ bytes := by
  simp [append]

theorem write_free (free : memory.Free) (bytes : List UInt8) :
    stream.write bytes memory = (.ok (), memory.append bytes) := by
  simp only [stream, write, ExceptT.mk, free.limit, append]

theorem flush_free (free : memory.Free) : stream.flush memory = (.ok (), memory) := by
  simp only [stream, flush, ExceptT.mk, free.flushError]

end Memory

end SystemCombination
