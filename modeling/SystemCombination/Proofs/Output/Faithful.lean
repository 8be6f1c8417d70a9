import SystemCombination.Output.Partners
import SystemCombination.Proofs.Output.Memory
import SystemCombination.Proofs.Output.Records

/-! What a decode writes when nothing is refused. Whatever the two streams are, as long as each
puts bytes behind those before and leaves the other alone, the segments that are decoded reach
them one after the other: a line each in the one-best output, a record for every hypothesis in the
oracle. -/

namespace SystemCombination

variable {ε σ : Type}

/-- A stream that refuses nothing, where `Written` says what has been written to it. -/
structure Stream.Faithful (stream : Stream σ) (Written : σ → List UInt8 → Prop) : Prop where
  write : ∀ {state before} (bytes : List UInt8), Written state before →
    ∃ after, stream.write bytes state = (.ok (), after) ∧ Written after (before ++ bytes)
  flush : ∀ {state before}, Written state before →
    ∃ after, stream.flush state = (.ok (), after) ∧ Written after before

theorem Stream.Faithful.putPieces {stream : Stream σ} {Written : σ → List UInt8 → Prop}
    (h : stream.Faithful Written) (pieces : List String) {state : σ} {before : List UInt8}
    (written : Written state before) :
    ∃ after, stream.putPieces pieces state = (.ok (), after) ∧
      Written after (before ++ pieces.flatMap Text.encode) := by
  induction pieces generalizing state before with
  | nil => exact ⟨state, rfl, by rwa [List.flatMap_nil, List.append_nil]⟩
  | cons piece pieces ih =>
    rw [Stream.putPieces, List.flatMap_cons, ← List.append_assoc]
    split
    · obtain ⟨after, run, written⟩ := h.write (Text.encode piece) written
      rw [Attempt.bind_ok run]
      exact ih written
    · next empty =>
      obtain rfl : piece = "" := Decidable.not_not.mp empty
      rw [show Text.encode "" = [] from rfl, List.append_nil]
      exact ih written

theorem Memory.stream_faithful {memory : Memory} (free : memory.Free) :
    Memory.stream.Faithful fun after bytes => after = memory.append bytes where
  write bytes written := by
    obtain rfl := written
    exact ⟨_, Memory.write_free (free.append _) bytes, Memory.append_append _ bytes⟩
  flush written := by
    obtain rfl := written
    exact ⟨_, Memory.flush_free (free.append _), rfl⟩

/-- A sink that refuses nothing and writes the given bytes for each segment. -/
structure Sink.Takes (sink : Sink (ExceptT ε (StateM σ))) (Written : σ → List UInt8 → Prop)
    (bytes : Segment → List Hypothesis → List UInt8) : Prop where
  write : ∀ {state before} (segment : Segment) (nbest : List Hypothesis), Written state before →
    ∃ after, sink.write segment nbest state = (.ok (), after) ∧
      Written after (before ++ bytes segment nbest)
  finish : ∀ {state before}, Written state before →
    ∃ after, sink.finish state = (.ok (), after) ∧ Written after before

namespace Output

variable {stream : Stream σ} {Written : σ → List UInt8 → Prop}

theorem writing_ok {action : Attempt IoError σ Unit} {state after : σ}
    (h : action state = (.ok (), after)) (path : String) :
    writing path action state = (.ok (), after) := by
  have run : writing path action state =
      ((action state).1.mapError (DecodeFailure.write path), (action state).2) := rfl
  rw [run, h]
  rfl

/-- The text of the first hypothesis. -/
def bestOf (nbest : List Hypothesis) : String := (nbest.head?.map Hypothesis.text).getD ""

theorem oneBestSink_takes (path : String) (h : stream.Faithful Written) :
    (oneBestSink path stream).Takes Written fun _ nbest => Text.encodeLines [bestOf nbest] where
  write _ nbest written := by
    obtain ⟨after, run, written⟩ := h.putPieces (oneBestPieces nbest) written
    have line : (oneBestPieces nbest).flatMap Text.encode = Text.encodeLines [bestOf nbest] := by
      simp [oneBestPieces, Text.encodeLines, bestOf]
    rw [line] at written
    exact ⟨after, writing_ok run path, written⟩
  finish written := by
    obtain ⟨after, run, written⟩ := h.flush written
    exact ⟨after, writing_ok run path, written⟩

theorem oracleSink_takes (path : String) (h : stream.Faithful Written) :
    (oracleSink path stream).Takes Written fun segment nbest =>
      (records segment.index 0 nbest).flatMap Record.bytes where
  write segment nbest written := by
    obtain ⟨after, run, written⟩ := h.putPieces (oracleLines segment.index 0 nbest).flatten written
    rw [encode_oracleLines] at written
    exact ⟨after, writing_ok run path, written⟩
  finish written := by
    obtain ⟨after, run, written⟩ := h.flush written
    exact ⟨after, writing_ok run path, written⟩

end Output

namespace Partners

/-- Partners that refuse nothing, where `Written` says what both streams have been written. -/
structure Faithful (partners : Partners (ExceptT ε (StateM σ)))
    (nbest : Segment → List Hypothesis) (Written : σ → List UInt8 → List UInt8 → Prop) : Prop where
  decode : ∀ segment, partners.decode segment = pure (nbest segment)
  oneBest : ∀ oracle, partners.oneBest.Takes (Written · · oracle)
    fun _ nbest => Text.encodeLines [Output.bestOf nbest]
  oracle : ∀ sink, partners.oracle = some sink → ∀ oneBest, sink.Takes (Written · oneBest ·)
    fun segment nbest => (Output.records segment.index 0 nbest).flatMap Record.bytes

/-- The records of the hypotheses for segments. -/
def records (nbest : Segment → List Hypothesis) (units : List Segment) : List Record :=
  units.flatMap fun segment => Output.records segment.index 0 (nbest segment)

/-- The bytes of the records, if there is an oracle. -/
def oracleBytes (hasOracle : Bool) (nbest : Segment → List Hypothesis) (units : List Segment) :
    List UInt8 :=
  if hasOracle then (records nbest units).flatMap Record.bytes else []

def oneBestBytes (nbest : Segment → List Hypothesis) (units : List Segment) : List UInt8 :=
  Text.encodeLines (units.map fun segment => Output.bestOf (nbest segment))

theorem oracleBytes_cons (hasOracle : Bool) (nbest : Segment → List Hypothesis)
    (segment : Segment) (units : List Segment) :
    oracleBytes hasOracle nbest (segment :: units) =
      oracleBytes hasOracle nbest [segment] ++ oracleBytes hasOracle nbest units := by
  cases hasOracle <;> simp [oracleBytes, records]

theorem oneBestBytes_cons (nbest : Segment → List Hypothesis) (segment : Segment)
    (units : List Segment) :
    oneBestBytes nbest (segment :: units) =
      oneBestBytes nbest [segment] ++ oneBestBytes nbest units := by
  simp [oneBestBytes, Text.encodeLines]

variable {partners : Partners (ExceptT ε (StateM σ))} {nbest : Segment → List Hypothesis}
  {Written : σ → List UInt8 → List UInt8 → Prop} {state : σ} {oneBest oracle : List UInt8}

theorem Faithful.decodeOne (h : partners.Faithful nbest Written) (segment : Segment)
    (written : Written state oneBest oracle) :
    ∃ after, partners.decodeOne segment state = (.ok (nbest segment), after) ∧
      Written after (oneBest ++ oneBestBytes nbest [segment])
        (oracle ++ oracleBytes partners.oracle.isSome nbest [segment]) := by
  obtain ⟨between, run, written⟩ := (h.oneBest oracle).write segment (nbest segment) written
  rw [Partners.decodeOne, h.decode, Attempt.bind_ok (show (pure (nbest segment) :
    Attempt ε σ (List Hypothesis)) state = (.ok (nbest segment), state) from rfl),
    Attempt.bind_ok run]
  cases isOracle : partners.oracle with
  | none =>
    refine ⟨between, rfl, ?_⟩
    rw [show oracleBytes none.isSome nbest [segment] = [] from rfl, List.append_nil]
    exact written
  | some sink =>
    obtain ⟨after, run, written⟩ := (h.oracle sink isOracle _).write segment (nbest segment) written
    dsimp only
    rw [Attempt.bind_ok run]
    refine ⟨after, rfl, ?_⟩
    have bytes : oracleBytes (some sink).isSome nbest [segment] =
        (Output.records segment.index 0 (nbest segment)).flatMap Record.bytes := by
      simp [oracleBytes, records]
    rw [bytes]
    exact written

/-- Segments that all have a hypothesis are counted and written. The induction is on them; what
comes after them is left to be asked for. -/
theorem Faithful.decodeFrom (h : partners.Faithful nbest Written) (summary : Summary)
    {units : List Segment} (decoded : ∀ segment ∈ units, nbest segment ≠ [])
    (rest : List (Attempt ε σ (Option Segment))) (written : Written state oneBest oracle) :
    ∃ after, partners.decodeFrom summary
        ((units.map fun segment => pure (some segment)) ++ rest) state =
          partners.decodeFrom ⟨summary.units + units.length, summary.decoded + units.length⟩ rest
            after ∧
      Written after (oneBest ++ oneBestBytes nbest units)
        (oracle ++ oracleBytes partners.oracle.isSome nbest units) := by
  induction units generalizing summary state oneBest oracle with
  | nil =>
    refine ⟨state, rfl, ?_⟩
    have nothing : oracleBytes partners.oracle.isSome nbest [] = [] := ite_self []
    rw [nothing, show oneBestBytes nbest [] = [] from rfl, List.append_nil, List.append_nil]
    exact written
  | cons segment units ih =>
    have ⟨nonempty, decoded⟩ := List.forall_mem_cons.mp decoded
    obtain ⟨between, run, written⟩ := h.decodeOne segment written
    obtain ⟨after, run', written⟩ := ih (summary.add (nbest segment)) decoded written
    have added : summary.add (nbest segment) = ⟨summary.units + 1, summary.decoded + 1⟩ := by
      simp [Summary.add, nonempty]
    refine ⟨after, ?_, ?_⟩
    · rw [List.map_cons, List.cons_append, Partners.decodeFrom,
        Attempt.bind_ok (show (pure (some segment) : Attempt ε σ (Option Segment)) state =
          (.ok (some segment), state) from rfl)]
      dsimp only
      rw [Attempt.bind_ok run, run', added, List.length_cons, Nat.add_assoc, Nat.add_assoc,
        Nat.add_comm 1]
    · rw [oneBestBytes_cons, oracleBytes_cons, ← List.append_assoc, ← List.append_assoc]
      exact written

theorem Faithful.decodeFrom_nil (h : partners.Faithful nbest Written) (summary : Summary)
    (written : Written state oneBest oracle) :
    ∃ after, partners.decodeFrom summary [] state = (.ok summary, after) ∧
      Written after oneBest oracle := by
  obtain ⟨between, run, written⟩ := (h.oneBest oracle).finish written
  rw [Partners.decodeFrom, Partners.finish]
  cases isOracle : partners.oracle with
  | none => exact ⟨between, by rw [Attempt.bind_ok (Attempt.bind_ok run _)]; rfl, written⟩
  | some sink =>
    obtain ⟨after, run', written⟩ := (h.oracle sink isOracle _).finish written
    exact ⟨after, by rw [Attempt.bind_ok ((Attempt.bind_ok run _).trans run')]; rfl, written⟩

/-- When every segment is read and has a hypothesis, both outputs are complete at the end. -/
theorem Faithful.decodeAll (h : partners.Faithful nbest Written) {units : List Segment}
    (decoded : ∀ segment ∈ units, nbest segment ≠ []) (unwritten : Written state [] []) :
    ∃ after, partners.decodeAll (units.map fun segment => pure (some segment)) state =
        (.ok ⟨units.length, units.length⟩, after) ∧
      Written after (oneBestBytes nbest units)
        (oracleBytes partners.oracle.isSome nbest units) := by
  obtain ⟨between, run, written⟩ := h.decodeFrom {} decoded [] unwritten
  obtain ⟨after, run', written⟩ := h.decodeFrom_nil _ written
  rw [List.append_nil, run'] at run
  refine ⟨after, ?_, written⟩
  rw [Partners.decodeAll, run]
  simp

theorem decodeFrom_throw (partners : Partners (ExceptT ε (StateM σ))) (summary : Summary)
    (failure : ε) (rest : List (Attempt ε σ (Option Segment))) (state : σ) :
    partners.decodeFrom summary (throw failure :: rest) state = (.error failure, state) := by
  rw [Partners.decodeFrom]
  exact Attempt.bind_error rfl _

end Partners

end SystemCombination
