import Mathlib.Data.List.Forall2
import SystemCombination.Output.Partners
import SystemCombination.Proofs.Output.Memory

/-! Two decodes in step. Actions on related states are in step when they have the same result and
leave related states, whether they succeed or fail; partners that are in step decode in step. An
action that is in step with itself keeps an invariant, and one that is in step with doing nothing
succeeds unnoticed. -/

namespace SystemCombination

variable {ε ε' σ σ' α β : Type}

/-- From related states the actions have the same result and leave related states, and `may` holds
for what they fail with. -/
def Attempt.InStep (R : σ → σ' → Prop) (may : ε → Prop) (action : Attempt ε σ α)
    (action' : Attempt ε σ' α) : Prop :=
  ∀ state state', R state state' →
    (action state).1 = (action' state').1 ∧ R (action state).2 (action' state').2 ∧
      ∀ error, (action state).1 = .error error → may error

/-- Related are a state that meets the invariant and itself. -/
abbrev Attempt.Keeping (Inv : σ → Prop) (state state' : σ) : Prop := state = state' ∧ Inv state

section InStep

variable {R : σ → σ' → Prop} {may : ε → Prop}

namespace Attempt

theorem inStep_pure (value : α) :
    InStep R may (pure value : Attempt ε σ α) (pure value : Attempt ε σ' α) :=
  fun _ _ related => ⟨rfl, related, fun _ failed => nomatch failed⟩

theorem inStep_throw {error : ε} (h : may error) :
    InStep R may (throw error : Attempt ε σ α) (throw error : Attempt ε σ' α) :=
  fun _ _ related => ⟨rfl, related, fun _ failed => Except.error.inj failed ▸ h⟩

theorem InStep.bind {action : Attempt ε σ α} {action' : Attempt ε σ' α}
    {next : α → Attempt ε σ β} {next' : α → Attempt ε σ' β} (first : InStep R may action action')
    (second : ∀ value, InStep R may (next value) (next' value)) :
    InStep R may (action >>= next) (action' >>= next') := by
  intro state state' related
  obtain ⟨same, related, fails⟩ := first state state' related
  cases run : action state with
  | mk result after =>
    cases run' : action' state' with
    | mk result' after' =>
      obtain rfl : result = result' := by simpa [run, run'] using same
      have related : R after after' := by simpa [run, run'] using related
      cases result with
      | ok value =>
        rw [bind_ok run, bind_ok run']
        exact second value after after' related
      | error error =>
        rw [bind_error run, bind_error run']
        refine ⟨rfl, related, fun other failed => ?_⟩
        rw [← Except.error.inj failed]
        exact fails error (by rw [run])

end Attempt

open Attempt

/-! ### Streams and sinks -/

structure Stream.InStep (R : σ → σ' → Prop) (may : IoError → Prop) (stream : Stream σ)
    (stream' : Stream σ') : Prop where
  write : ∀ bytes, Attempt.InStep R may (stream.write bytes) (stream'.write bytes)
  flush : Attempt.InStep R may stream.flush stream'.flush

structure Sink.InStep (R : σ → σ' → Prop) (may : ε → Prop) (sink : Sink (ExceptT ε (StateM σ)))
    (sink' : Sink (ExceptT ε (StateM σ'))) : Prop where
  write : ∀ segment nbest,
    Attempt.InStep R may (sink.write segment nbest) (sink'.write segment nbest)
  finish : Attempt.InStep R may sink.finish sink'.finish

theorem Stream.InStep.putPieces {may : IoError → Prop} {stream : Stream σ} {stream' : Stream σ'}
    (h : Stream.InStep R may stream stream') (pieces : List String) :
    Attempt.InStep R may (stream.putPieces pieces) (stream'.putPieces pieces) := by
  induction pieces with
  | nil => exact inStep_pure ()
  | cons piece pieces ih =>
    rw [Stream.putPieces, Stream.putPieces]
    split
    · exact (h.write _).bind fun _ => ih
    · exact (inStep_pure ()).bind fun _ => ih

namespace Output

variable {mayIo : IoError → Prop} {may : DecodeFailure → Prop} {stream : Stream σ}
  {stream' : Stream σ'}

theorem inStep_writing {path : String} {action : Attempt IoError σ Unit}
    {action' : Attempt IoError σ' Unit} (h : Attempt.InStep R mayIo action action')
    (reported : ∀ error, mayIo error → may (.write path error)) :
    Attempt.InStep R may (writing path action) (writing path action') := by
  intro state state' related
  obtain ⟨same, related, fails⟩ := h state state' related
  have run : writing path action state =
      ((action state).1.mapError (DecodeFailure.write path), (action state).2) := rfl
  have run' : writing path action' state' =
      ((action' state').1.mapError (DecodeFailure.write path), (action' state').2) := rfl
  rw [run, run', ← same]
  refine ⟨rfl, related, fun error failed => ?_⟩
  cases result : (action state).1 with
  | ok => simp [result, Except.mapError] at failed
  | error cause =>
    obtain rfl : DecodeFailure.write path cause = error := by
      simpa [result, Except.mapError] using failed
    exact reported cause (fails cause result)

theorem inStep_oneBestSink (path : String) (h : Stream.InStep R mayIo stream stream')
    (reported : ∀ error, mayIo error → may (.write path error)) :
    (oneBestSink path stream).InStep R may (oneBestSink path stream') where
  write _ nbest := inStep_writing (h.putPieces (oneBestPieces nbest)) reported
  finish := inStep_writing h.flush reported

theorem inStep_oracleSink (path : String) (h : Stream.InStep R mayIo stream stream')
    (reported : ∀ error, mayIo error → may (.write path error)) :
    (oracleSink path stream).InStep R may (oracleSink path stream') where
  write segment nbest :=
    inStep_writing (h.putPieces (oracleLines segment.index 0 nbest).flatten) reported
  finish := inStep_writing h.flush reported

end Output

/-! ### Nothing at all -/

/-- A stream that takes everything and does nothing. -/
def Stream.silent : Stream σ := ⟨fun _ => pure (), pure ()⟩

/-- The sink, or one that takes everything and does nothing. -/
def Sink.ofOption {m : Type → Type} [Monad m] : Option (Sink m) → Sink m
  | some sink => sink
  | none => ⟨fun _ _ => pure (), pure ()⟩

theorem Stream.putPieces_silent (pieces : List String) :
    (Stream.silent : Stream σ).putPieces pieces = pure () := by
  induction pieces with
  | nil => rfl
  | cons piece pieces ih =>
    rw [putPieces, ih]
    split <;> rfl

/-- An oracle without a stream is none. -/
theorem Output.oracleSink_silent (path : String) :
    oracleSink path (Stream.silent : Stream σ) = Sink.ofOption none := by
  unfold oracleSink
  simp only [Stream.putPieces_silent]
  rfl

/-! ### Partners -/

namespace Partners

structure InStep (R : σ → σ' → Prop) (may : ε → Prop)
    (partners : Partners (ExceptT ε (StateM σ))) (partners' : Partners (ExceptT ε (StateM σ'))) :
    Prop where
  decode : ∀ segment,
    Attempt.InStep R may (partners.decode segment) (partners'.decode segment)
  oneBest : partners.oneBest.InStep R may partners'.oneBest
  oracle : (Sink.ofOption partners.oracle).InStep R may (Sink.ofOption partners'.oracle)

theorem decodeOne_eq (partners : Partners (ExceptT ε (StateM σ))) (segment : Segment) :
    partners.decodeOne segment = do
      let nbest ← partners.decode segment
      partners.oneBest.write segment nbest
      (Sink.ofOption partners.oracle).write segment nbest
      return nbest := by
  unfold decodeOne
  cases partners.oracle <;> rfl

theorem finish_eq (partners : Partners (ExceptT ε (StateM σ))) :
    partners.finish =
      partners.oneBest.finish >>= fun _ => (Sink.ofOption partners.oracle).finish := by
  unfold finish
  cases partners.oracle <;> rfl

variable {partners : Partners (ExceptT ε (StateM σ))} {partners' : Partners (ExceptT ε (StateM σ'))}

theorem InStep.decodeOne (h : partners.InStep R may partners') (segment : Segment) :
    Attempt.InStep R may (partners.decodeOne segment) (partners'.decodeOne segment) := by
  rw [decodeOne_eq, decodeOne_eq]
  exact (h.decode segment).bind fun nbest => (h.oneBest.write segment nbest).bind fun _ =>
    (h.oracle.write segment nbest).bind fun _ => inStep_pure nbest

theorem InStep.finish (h : partners.InStep R may partners') :
    Attempt.InStep R may partners.finish partners'.finish := by
  rw [finish_eq, finish_eq]
  exact h.oneBest.finish.bind fun _ => h.oracle.finish

/-- Decodes of requests that are in step are in step, to the first failure or to the end. -/
theorem InStep.decodeFrom (h : partners.InStep R may partners')
    {requests : List (Attempt ε σ (Option Segment))}
    {requests' : List (Attempt ε σ' (Option Segment))}
    (asked : List.Forall₂ (Attempt.InStep R may) requests requests') (summary : Summary) :
    Attempt.InStep R may (partners.decodeFrom summary requests)
      (partners'.decodeFrom summary requests') := by
  induction asked generalizing summary with
  | nil =>
    rw [Partners.decodeFrom, Partners.decodeFrom]
    exact h.finish.bind fun _ => inStep_pure summary
  | cons first _ ih =>
    rw [Partners.decodeFrom, Partners.decodeFrom]
    refine first.bind fun answer => ?_
    cases answer with
    | none => exact h.finish.bind fun _ => inStep_pure summary
    | some segment => exact (h.decodeOne segment).bind fun nbest => ih (summary.add nbest)

end Partners

end InStep

end SystemCombination
