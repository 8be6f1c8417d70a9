import SystemCombination.Output.Partners
import SystemCombination.Proofs.Output.Memory

/-! The calls that a decode makes. Every call to a partner is recorded with its answer, whatever the
partners do and whenever they fail. `decodeAll_course` says that the calls are those of the ideal
sequence, for each segment the next one, its hypotheses and a write to each sink, cut right after
the first call that fails. -/

namespace SystemCombination.Partners

inductive Target
  | oneBest
  | oracle
deriving DecidableEq

/-- What a decode asks its partners for. -/
inductive Call
  | next
  | decode (segment : Segment)
  | write (target : Target) (segment : Segment) (nbest : List Hypothesis)
  | finish (target : Target)

@[reducible] def Call.Answer : Call → Type
  | next => Option Segment
  | decode _ => List Hypothesis
  | write .. | finish _ => Unit

/-- A call and what it was answered with. -/
structure Event (ε : Type) where
  call : Call
  answer : Except ε call.Answer

variable {ε σ : Type}

/-- The action, which answers a call, with its answer put behind the events so far. -/
def recorded (call : Call) (action : Attempt ε σ call.Answer) :
    Attempt ε (σ × List (Event ε)) call.Answer :=
  ExceptT.mk fun (state, events) =>
    let (answer, state) := action state
    (answer, state, events ++ [⟨call, answer⟩])

def recordedSink (target : Target) (sink : Sink (ExceptT ε (StateM σ))) :
    Sink (ExceptT ε (StateM (σ × List (Event ε)))) where
  write segment nbest := recorded (.write target segment nbest) (sink.write segment nbest)
  finish := recorded (.finish target) sink.finish

/-- The partners, with every call recorded. -/
def recording (partners : Partners (ExceptT ε (StateM σ))) :
    Partners (ExceptT ε (StateM (σ × List (Event ε)))) where
  decode segment := recorded (.decode segment) (partners.decode segment)
  oneBest := recordedSink .oneBest partners.oneBest
  oracle := partners.oracle.map (recordedSink .oracle)

/-- What is asked of an input that follows a script and is exhausted after it. -/
def requests (script : List (Except ε Segment)) :
    List (Attempt ε (σ × List (Event ε)) (Option Segment)) :=
  script.map (fun answer => recorded .next (ExceptT.mk (pure (answer.map some)))) ++
    [recorded .next (pure none)]

/-- How a decode ends that reads a script with partners in the given state, and its events. -/
def course (partners : Partners (ExceptT ε (StateM σ))) (script : List (Except ε Segment))
    (state : σ) : Except ε Summary × List (Event ε) :=
  let (result, _, events) := partners.recording.decodeAll (requests script) (state, [])
  (result, events)

/-! ### The ideal sequence -/

def targets (hasOracle : Bool) : List Target :=
  if hasOracle then [.oneBest, .oracle] else [.oneBest]

/-- The calls for a segment after it was asked for, none of which fails. -/
def stepEvents (hasOracle : Bool) (segment : Segment) (nbest : List Hypothesis) :
    List (Event ε) :=
  ⟨.decode segment, .ok nbest⟩ ::
    (targets hasOracle).map fun target => ⟨.write target segment nbest, .ok ()⟩

def finishEvents (hasOracle : Bool) : List (Event ε) :=
  (targets hasOracle).map fun target => ⟨.finish target, .ok ()⟩

/-- The ideal sequence for segments and their hypotheses. -/
def idealEvents (hasOracle : Bool) : List (Segment × List Hypothesis) → List (Event ε)
  | [] => ⟨.next, .ok none⟩ :: finishEvents hasOracle
  | (segment, nbest) :: rest =>
    ⟨.next, .ok (some segment)⟩ ::
      (stepEvents hasOracle segment nbest ++ idealEvents hasOracle rest)

/-- The segments of a script. -/
def units (script : List (Except ε Segment)) : List Segment := script.filterMap Except.toOption

@[simp] theorem units_error (error : ε) (script : List (Except ε Segment)) :
    units (.error error :: script) = units script := rfl

@[simp] theorem units_ok (segment : Segment) (script : List (Except ε Segment)) :
    units (.ok segment :: script) = segment :: units script := rfl

/-- What the calls for a next segment were answered with. -/
def readings (events : List (Event ε)) : List (Except ε (Option Segment)) :=
  events.filterMap fun
    | ⟨.next, answer⟩ => some answer
    | _ => none

/-- What an input answers that follows a script. -/
def answers (script : List (Except ε Segment)) : List (Except ε (Option Segment)) :=
  script.map (Except.map some) ++ [.ok none]

/-- A sequence of events cut right after an event, which fails. -/
inductive Cut (error : ε) : (ideal events : List (Event ε)) → Prop
  | intro {before after : List (Event ε)} {call : Call} {answer : call.Answer} :
      Cut error (before ++ ⟨call, .ok answer⟩ :: after) (before ++ [⟨call, .error error⟩])

/-- How a decode of a script ends that has counted `start` before, and the calls that it makes. A
call for a segment fails where the script has an error; any other call may fail too. -/
inductive Course (hasOracle : Bool) (start : Summary) (script : List (Except ε Segment)) :
    Except ε Summary → List (Event ε) → Prop
  | complete {decoded : List (Segment × List Hypothesis)}
      (read : script = decoded.map fun entry => .ok entry.1) :
      Course hasOracle start script
        (.ok ⟨start.units + decoded.length, start.decoded + decoded.countP (·.2 ≠ [])⟩)
        (idealEvents hasOracle decoded)
  | failed {decoded : List (Segment × List Hypothesis)} {error : ε} {events : List (Event ε)}
      (read : units script = decoded.map Prod.fst)
      (cut : Cut error (idealEvents hasOracle decoded) events)
      (asked : readings events <+: answers script) :
      Course hasOracle start script (.error error) events

theorem Cut.exists {error : ε} {ideal events : List (Event ε)} (h : Cut error ideal events) :
    ∃ (before after : List (Event ε)) (call : Call) (answer : call.Answer),
      ideal = before ++ ⟨call, .ok answer⟩ :: after ∧
        events = before ++ [⟨call, .error error⟩] := by
  obtain ⟨⟩ := h
  exact ⟨_, _, _, _, rfl, rfl⟩

theorem Cut.append_right {error : ε} {ideal events : List (Event ε)} (h : Cut error ideal events)
    (later : List (Event ε)) : Cut error (ideal ++ later) events := by
  obtain ⟨⟩ := h
  rw [List.append_assoc, List.cons_append]
  exact .intro

theorem Cut.append_left {error : ε} {ideal events : List (Event ε)} (h : Cut error ideal events)
    (earlier : List (Event ε)) : Cut error (earlier ++ ideal) (earlier ++ events) := by
  obtain ⟨⟩ := h
  rw [← List.append_assoc, ← List.append_assoc]
  exact .intro

theorem readings_cons_next (answer : Except ε (Option Segment)) (events : List (Event ε)) :
    readings (⟨.next, answer⟩ :: events) = answer :: readings events := rfl

theorem readings_append (events later : List (Event ε)) :
    readings (events ++ later) = readings events ++ readings later :=
  List.filterMap_append

theorem readings_eq_nil {events : List (Event ε)} (h : ∀ event ∈ events, event.call ≠ .next) :
    readings events = [] := by
  rw [readings, List.filterMap_eq_nil_iff]
  rintro ⟨call, answer⟩ member
  cases call with
  | next => exact absurd rfl (h _ member)
  | _ => rfl

/-- Nothing is asked for by calls that are cut from calls that ask for nothing. -/
theorem Cut.readings_eq_nil {error : ε} {ideal events : List (Event ε)} (h : Cut error ideal events)
    (others : ∀ event ∈ ideal, event.call ≠ .next) : readings events = [] := by
  obtain ⟨before, after, call, answer, rfl, rfl⟩ := h.exists
  apply Partners.readings_eq_nil
  intro event member
  rcases List.mem_append.mp member with earlier | last
  · exact others event (List.mem_append_left _ earlier)
  · obtain rfl := List.mem_singleton.mp last
    exact others ⟨call, .ok answer⟩ (List.mem_append_right _ List.mem_cons_self)

/-! ### One segment -/

/-- Whatever the state, the action makes the calls that are planned for the value that it yields, or
it fails at one of the calls that are planned for some value. -/
def Performs {α : Type} (action : Attempt ε (σ × List (Event ε)) α)
    (plan : α → List (Event ε) → Prop) : Prop :=
  ∀ state events,
    (∃ value after new, action (state, events) = (.ok value, after, events ++ new) ∧
      plan value new) ∨
    ∃ error after new value ideal, action (state, events) = (.error error, after, events ++ new) ∧
      plan value ideal ∧ Cut error ideal new

theorem Performs.mono {α : Type} {action : Attempt ε (σ × List (Event ε)) α}
    {plan plan' : α → List (Event ε) → Prop} (h : Performs action plan)
    (planned : ∀ value events, plan value events → plan' value events) :
    Performs action plan' := by
  intro state events
  rcases h state events with ⟨value, after, new, run, p⟩ |
    ⟨error, after, new, value, ideal, run, p, cut⟩
  · exact .inl ⟨value, after, new, run, planned value new p⟩
  · exact .inr ⟨error, after, new, value, ideal, run, planned value ideal p, cut⟩

theorem performs_pure {α : Type} (value : α) :
    Performs (pure value : Attempt ε (σ × List (Event ε)) α)
      fun result events => result = value ∧ events = [] :=
  fun state events => .inl ⟨value, state, [], by rw [List.append_nil]; rfl, rfl, rfl⟩

theorem performs_recorded (call : Call) (foreseen : call.Answer)
    (action : Attempt ε σ call.Answer) :
    Performs (recorded call action) fun value events => events = [⟨call, .ok value⟩] := by
  intro state events
  have made : recorded call action (state, events) =
      ((action state).1, (action state).2, events ++ [⟨call, (action state).1⟩]) := rfl
  rw [made]
  cases (action state).1 with
  | ok value => exact .inl ⟨value, _, _, rfl, rfl⟩
  | error error =>
    exact .inr ⟨error, _, _, foreseen, _, rfl, rfl, @Cut.intro _ error [] [] call foreseen⟩

/-- The calls of an action that follows stand behind those of the first. -/
theorem Performs.bind {α β : Type} {action : Attempt ε (σ × List (Event ε)) α}
    {next : α → Attempt ε (σ × List (Event ε)) β} {plan : α → List (Event ε) → Prop}
    {plan' : α → β → List (Event ε) → Prop} {whole : β → List (Event ε) → Prop}
    (first : Performs action plan) (second : ∀ value, Performs (next value) (plan' value))
    (possible : ∀ value, ∃ result events, plan' value result events)
    (joins : ∀ value result events later, plan value events → plan' value result later →
      whole result (events ++ later)) : Performs (action >>= next) whole := by
  intro state events
  rcases first state events with ⟨value, after, new, run, planned⟩ |
    ⟨error, after, new, value, ideal, run, planned, cut⟩
  · rw [Attempt.bind_ok run]
    rcases second value after (events ++ new) with ⟨result, last, later, run', planned'⟩ |
      ⟨error, last, later, result, ideal, run', planned', cut⟩
    · rw [run', List.append_assoc]
      exact .inl ⟨result, last, _, rfl, joins _ _ _ _ planned planned'⟩
    · rw [run', List.append_assoc]
      exact .inr ⟨error, last, _, result, _, rfl, joins _ _ _ _ planned planned',
        cut.append_left new⟩
  · obtain ⟨result, later, planned'⟩ := possible value
    rw [Attempt.bind_error run]
    exact .inr ⟨error, after, new, result, _, rfl, joins _ _ _ _ planned planned',
      cut.append_right later⟩

/-- A call with one possible answer stands in front of the calls that follow. -/
theorem performs_then {α : Type} (call : Call) (only : call.Answer)
    (unique : ∀ answer, answer = only) (action : Attempt ε σ call.Answer)
    {rest : Attempt ε (σ × List (Event ε)) α} {value : α} {later : List (Event ε)}
    (h : Performs rest fun result events => result = value ∧ events = later) :
    Performs (recorded call action >>= fun _ => rest) fun result events =>
      result = value ∧ events = ⟨call, .ok only⟩ :: later := by
  refine (performs_recorded call only action).bind (fun _ => h)
    (fun _ => ⟨value, later, rfl, rfl⟩) ?_
  rintro answer _ _ _ rfl ⟨rfl, rfl⟩
  rw [unique answer]
  exact ⟨rfl, rfl⟩

theorem performs_write (target : Target) (sink : Sink (ExceptT ε (StateM σ))) (segment : Segment)
    (nbest : List Hypothesis) {α : Type} {rest : Attempt ε (σ × List (Event ε)) α} {value : α}
    {later : List (Event ε)}
    (h : Performs rest fun result events => result = value ∧ events = later) :
    Performs ((recordedSink target sink).write segment nbest >>= fun _ => rest)
      fun result events =>
        result = value ∧ events = ⟨.write target segment nbest, .ok ()⟩ :: later :=
  performs_then (.write target segment nbest) () (fun _ => rfl) _ h

theorem performs_finishing (target : Target) (sink : Sink (ExceptT ε (StateM σ))) {α : Type}
    {rest : Attempt ε (σ × List (Event ε)) α} {value : α} {later : List (Event ε)}
    (h : Performs rest fun result events => result = value ∧ events = later) :
    Performs ((recordedSink target sink).finish >>= fun _ => rest) fun result events =>
      result = value ∧ events = ⟨.finish target, .ok ()⟩ :: later :=
  performs_then (.finish target) () (fun _ => rfl) _ h

theorem performs_decodeOne (partners : Partners (ExceptT ε (StateM σ))) (segment : Segment) :
    Performs (partners.recording.decodeOne segment) fun nbest events =>
      events = stepEvents partners.oracle.isSome segment nbest := by
  have decoded := performs_recorded (.decode segment) [] (partners.decode segment)
  unfold decodeOne
  cases h : partners.oracle with
  | none =>
    simp only [recording, h, Option.map_none]
    have written (nbest : List Hypothesis) :=
      performs_write .oneBest partners.oneBest segment nbest (performs_pure nbest)
    refine decoded.bind written (fun nbest => ⟨nbest, _, rfl, rfl⟩) ?_
    rintro nbest _ _ _ rfl ⟨rfl, rfl⟩
    rfl
  | some oracle =>
    simp only [recording, h, Option.map_some]
    have written (nbest : List Hypothesis) :=
      performs_write .oneBest partners.oneBest segment nbest
        (performs_write .oracle oracle segment nbest (performs_pure nbest))
    refine decoded.bind written (fun nbest => ⟨nbest, _, rfl, rfl⟩) ?_
    rintro nbest _ _ _ rfl ⟨rfl, rfl⟩
    rfl

theorem performs_finish (partners : Partners (ExceptT ε (StateM σ))) :
    Performs partners.recording.finish fun _ events =>
      events = finishEvents partners.oracle.isSome := by
  unfold finish
  cases h : partners.oracle with
  | none =>
    simp only [recording, h, Option.map_none]
    have finished := performs_finishing .oneBest partners.oneBest (performs_pure ())
    exact finished.mono fun _ _ planned => planned.2
  | some oracle =>
    simp only [recording, h, Option.map_some]
    have last : Performs (recorded (.finish .oracle) oracle.finish) fun value events =>
        value = () ∧ events = [⟨.finish .oracle, .ok ()⟩] :=
      (performs_recorded (.finish .oracle) () oracle.finish).mono fun _ _ planned => ⟨rfl, planned⟩
    exact (performs_finishing .oneBest partners.oneBest last).mono fun _ _ planned => planned.2

/-! ### The whole script -/

theorem call_ne_next_of_mem_stepEvents {hasOracle : Bool} {segment : Segment}
    {nbest : List Hypothesis} {event : Event ε} (h : event ∈ stepEvents hasOracle segment nbest) :
    event.call ≠ .next := by
  rcases List.mem_cons.mp h with rfl | writing
  · exact Call.noConfusion
  · obtain ⟨target, _, rfl⟩ := List.mem_map.mp writing
    exact Call.noConfusion

theorem call_ne_next_of_mem_finishEvents {hasOracle : Bool} {event : Event ε}
    (h : event ∈ finishEvents hasOracle) : event.call ≠ .next := by
  obtain ⟨target, _, rfl⟩ := List.mem_map.mp h
  exact Call.noConfusion

theorem exists_idealEvents (hasOracle : Bool) (decoded : List (Segment × List Hypothesis)) :
    ∃ answer later, (idealEvents hasOracle decoded : List (Event ε)) =
      ⟨.next, .ok answer⟩ :: later := by
  cases decoded with
  | nil => exact ⟨none, _, rfl⟩
  | cons entry rest => exact ⟨some entry.1, _, rfl⟩

/-- A script whose next answer is an error. -/
theorem Course.failed_next (hasOracle : Bool) (start : Summary) (error : ε)
    (script : List (Except ε Segment)) :
    Course hasOracle start (.error error :: script) (.error error) [⟨.next, .error error⟩] := by
  let decoded := (units script).map fun segment => (segment, ([] : List Hypothesis))
  have read : units (.error error :: script) = decoded.map Prod.fst := by
    simp [decoded, Function.comp_def]
  obtain ⟨answer, later, ideal⟩ := exists_idealEvents (ε := ε) hasOracle decoded
  exact .failed read (ideal ▸ @Cut.intro _ error [] later .next answer) ⟨answers script, rfl⟩

/-- A segment whose calls fail somewhere. -/
theorem Course.failed_step {hasOracle : Bool} (start : Summary) {error : ε} (segment : Segment)
    (nbest : List Hypothesis) (script : List (Except ε Segment)) {events : List (Event ε)}
    (cut : Cut error (stepEvents hasOracle segment nbest) events) :
    Course hasOracle start (.ok segment :: script) (.error error)
      (⟨.next, .ok (some segment)⟩ :: events) := by
  let decoded := (segment, nbest) :: (units script).map fun other => (other, [])
  have read : units (.ok segment :: script) = decoded.map Prod.fst := by
    simp [decoded, Function.comp_def]
  have asked : readings (⟨.next, .ok (some segment)⟩ :: events) <+:
      answers (.ok segment :: script) := by
    rw [readings_cons_next, cut.readings_eq_nil fun _ => call_ne_next_of_mem_stepEvents]
    exact ⟨answers script, rfl⟩
  exact .failed read ((cut.append_right _).append_left [⟨.next, .ok (some segment)⟩]) asked

/-- A segment whose calls all succeed. -/
theorem Course.step {hasOracle : Bool} {start : Summary} {segment : Segment}
    {nbest : List Hypothesis} {script : List (Except ε Segment)} {result : Except ε Summary}
    {events : List (Event ε)} (h : Course hasOracle (start.add nbest) script result events) :
    Course hasOracle start (.ok segment :: script) result
      (⟨.next, .ok (some segment)⟩ :: (stepEvents hasOracle segment nbest ++ events)) := by
  cases h with
  | @complete decoded read =>
    have counted : (⟨(start.add nbest).units + decoded.length,
        (start.add nbest).decoded + decoded.countP (·.2 ≠ [])⟩ : Summary) =
        ⟨start.units + ((segment, nbest) :: decoded).length,
          start.decoded + ((segment, nbest) :: decoded).countP (·.2 ≠ [])⟩ := by
      cases nbest <;> simp [Summary.add] <;> omega
    rw [counted]
    exact .complete (by rw [read, List.map_cons])
  | @failed decoded error _ read cut asked =>
    have read' : units (.ok segment :: script) = ((segment, nbest) :: decoded).map Prod.fst := by
      rw [units_ok, read, List.map_cons]
    have cut' := cut.append_left (⟨.next, .ok (some segment)⟩ ::
      stepEvents hasOracle segment nbest)
    have asked' : readings (⟨.next, .ok (some segment)⟩ ::
        (stepEvents hasOracle segment nbest ++ events)) <+: answers (.ok segment :: script) := by
      have nothing : readings (stepEvents hasOracle segment nbest : List (Event ε)) = [] :=
        readings_eq_nil fun _ => call_ne_next_of_mem_stepEvents
      rw [readings_cons_next, readings_append, nothing]
      exact (List.prefix_cons_inj (.ok (some segment))).mpr asked
    exact .failed read' cut' asked'

/-- The induction is on the script: what is left of it is decoded from the summary so far. -/
theorem course_decodeFrom (partners : Partners (ExceptT ε (StateM σ)))
    (script : List (Except ε Segment)) (start : Summary) (state : σ) (events : List (Event ε)) :
    ∃ result after new,
      partners.recording.decodeFrom start (requests script) (state, events) =
        (result, after, events ++ new) ∧
      Course partners.oracle.isSome start script result new := by
  induction script generalizing start state events with
  | nil =>
    have asked : recorded .next (pure none) (state, events) =
        (.ok none, state, events ++ [⟨.next, .ok none⟩]) := rfl
    rw [requests, List.map_nil, List.nil_append, decodeFrom, Attempt.bind_ok asked]
    dsimp only
    rcases performs_finish partners state (events ++ [⟨.next, .ok none⟩]) with
      ⟨_, after, new, run, rfl⟩ | ⟨error, after, new, _, _, run, rfl, cut⟩
    · rw [Attempt.bind_ok run, List.append_assoc]
      exact ⟨_, after, _, rfl, @Course.complete _ _ start _ [] rfl⟩
    · rw [Attempt.bind_error run, List.append_assoc]
      have asked : readings (⟨.next, .ok none⟩ :: new) <+: answers [] := by
        rw [readings_cons_next, cut.readings_eq_nil fun _ => call_ne_next_of_mem_finishEvents]
        exact List.prefix_rfl
      exact ⟨_, after, _, rfl, @Course.failed _ _ start _ [] _ _ rfl
        (cut.append_left [⟨.next, .ok none⟩]) asked⟩
  | cons answer script ih =>
    rcases answer with error | segment
    · have asked : recorded .next (ExceptT.mk (pure ((Except.error error).map some)))
          (state, events) = (.error error, state, events ++ [⟨.next, .error error⟩]) := rfl
      rw [requests, List.map_cons, List.cons_append, decodeFrom, Attempt.bind_error asked]
      exact ⟨_, state, _, rfl, .failed_next _ start error script⟩
    · have asked : recorded .next (ExceptT.mk (pure ((Except.ok segment).map some)))
          (state, events) =
            (.ok (some segment), state, events ++ [⟨.next, .ok (some segment)⟩]) := rfl
      rw [requests, List.map_cons, List.cons_append, decodeFrom, Attempt.bind_ok asked]
      dsimp only
      rcases performs_decodeOne partners segment state
          (events ++ [⟨.next, .ok (some segment)⟩]) with
        ⟨nbest, after, _, run, rfl⟩ | ⟨error, after, new, nbest, _, run, rfl, cut⟩
      · obtain ⟨result, last, new, run', course⟩ := ih (start.add nbest) after
          (events ++ [⟨.next, .ok (some segment)⟩] ++
            stepEvents partners.oracle.isSome segment nbest)
        rw [Attempt.bind_ok run, ← requests, run', List.append_assoc, List.append_assoc]
        exact ⟨result, last, _, rfl, course.step⟩
      · rw [Attempt.bind_error run, List.append_assoc]
        exact ⟨_, after, _, rfl, .failed_step start segment nbest script cut⟩

/-! ### What the sinks are handed -/

/-- The segment that a call hands to a sink. -/
def Call.segmentFor (target : Target) : Call → Option Segment
  | write other segment _ => if other = target then some segment else none
  | _ => none

/-- The segments that calls hand to a sink. -/
def handed (target : Target) (calls : List Call) : List Segment :=
  calls.filterMap (Call.segmentFor target)

/-- The segments that a sink has accepted. -/
def accepted (target : Target) (events : List (Event ε)) : List Segment :=
  handed target ((events.filter fun event => event.answer.isOk).map Event.call)

/-- What a decode never does, however it is cut. -/
structure Orderly (hasOracle : Bool) (script : List (Except ε Segment))
    (events : List (Event ε)) : Prop where
  /-- No segment is left out, handed over twice or out of order. -/
  inOrder : ∀ target, handed target (events.map Event.call) <+: units script
  /-- No sink is finished before every sink has accepted every segment. -/
  finishedLast : ∀ target, .finish target ∈ events.map Event.call →
    ∀ other ∈ targets hasOracle, accepted other events = units script
  /-- At no time is the oracle handed a segment that the one-best sink has not accepted. -/
  oracleBehind : ∀ part, part <+: events →
    handed .oracle (part.map Event.call) <+: accepted .oneBest part

@[simp] theorem handed_append (target : Target) (calls later : List Call) :
    handed target (calls ++ later) = handed target calls ++ handed target later :=
  List.filterMap_append

theorem handed_isPrefix (target : Target) {calls whole : List Call} (h : calls <+: whole) :
    handed target calls <+: handed target whole := by
  obtain ⟨later, rfl⟩ := h
  exact ⟨handed target later, (handed_append target calls later).symm⟩

theorem handed_take_eq_nil {target : Target} {events : List (Event ε)}
    (h : handed target (events.map Event.call) = []) (count : Nat) :
    handed target ((events.take count).map Event.call) = [] := by
  have part := handed_isPrefix target ((List.take_prefix count events).map Event.call)
  rw [h] at part
  exact List.prefix_nil.mp part

theorem accepted_append (target : Target) (events later : List (Event ε)) :
    accepted target (events ++ later) = accepted target events ++ accepted target later := by
  simp [accepted]

theorem isOk_of_mem_idealEvents {hasOracle : Bool} {decoded : List (Segment × List Hypothesis)}
    {event : Event ε} (h : event ∈ idealEvents hasOracle decoded) : event.answer.isOk := by
  induction decoded with
  | nil =>
    obtain rfl | finishing := List.mem_cons.mp h
    · rfl
    · obtain ⟨target, _, rfl⟩ := List.mem_map.mp finishing
      rfl
  | cons entry rest ih =>
    obtain rfl | later := List.mem_cons.mp h
    · rfl
    · obtain step | later := List.mem_append.mp later
      · obtain rfl | writing := List.mem_cons.mp step
        · rfl
        · obtain ⟨target, _, rfl⟩ := List.mem_map.mp writing
          rfl
      · exact ih later

/-- As long as nothing fails, what is handed over is accepted. -/
theorem accepted_isPrefix {hasOracle : Bool} {decoded : List (Segment × List Hypothesis)}
    (target : Target) {part : List (Event ε)} (h : part <+: idealEvents hasOracle decoded) :
    accepted target part = handed target (part.map Event.call) := by
  have succeed : ∀ event ∈ part, event.answer.isOk := fun event member =>
    isOk_of_mem_idealEvents (h.subset member)
  rw [accepted, List.filter_eq_self.mpr succeed]

theorem handed_idealEvents (hasOracle : Bool) (decoded : List (Segment × List Hypothesis))
    (target : Target) :
    handed target ((idealEvents hasOracle decoded : List (Event ε)).map Event.call) =
      if target ∈ targets hasOracle then decoded.map Prod.fst else [] := by
  induction decoded with
  | nil => cases hasOracle <;> cases target <;> rfl
  | cons entry rest ih =>
    have step : handed target ((idealEvents hasOracle (entry :: rest) : List (Event ε)).map
        Event.call) = (if target ∈ targets hasOracle then [entry.1] else []) ++
          handed target ((idealEvents hasOracle rest : List (Event ε)).map Event.call) := by
      cases hasOracle <;> cases target <;> rfl
    rw [step, ih]
    split <;> rfl

/-- The oracle is one call behind the one-best sink. -/
theorem handed_oracle_take (hasOracle : Bool) (decoded : List (Segment × List Hypothesis))
    (count : Nat) :
    handed .oracle (((idealEvents hasOracle decoded : List (Event ε)).take (count + 1)).map
        Event.call) <+:
      handed .oneBest (((idealEvents hasOracle decoded : List (Event ε)).take count).map
        Event.call) := by
  cases hasOracle with
  | false =>
    rw [handed_take_eq_nil (handed_idealEvents false decoded .oracle)]
    exact List.nil_prefix
  | true =>
    induction decoded generalizing count with
    | nil =>
      rw [handed_take_eq_nil (handed_idealEvents true [] .oracle)]
      exact List.nil_prefix
    | cons entry rest ih =>
      match count with
      | 0 | 1 | 2 => exact List.nil_prefix
      | 3 => exact List.prefix_rfl
      | count + 4 => exact (List.prefix_cons_inj entry.1).mpr (ih count)

/-- No segment is handed over once a sink is finished. -/
theorem pairwise_idealEvents (hasOracle : Bool) (decoded : List (Segment × List Hypothesis)) :
    ((idealEvents hasOracle decoded : List (Event ε)).map Event.call).Pairwise
      fun earlier later => ∀ target, earlier = .finish target →
        ∀ other, later.segmentFor other = none := by
  induction decoded with
  | nil => cases hasOracle <;> simp [idealEvents, finishEvents, targets, Call.segmentFor]
  | cons entry rest ih =>
    cases hasOracle <;> simpa [idealEvents, stepEvents, targets] using ih

/-- As long as nothing fails, the oracle has not overtaken the one-best sink. -/
theorem oracle_behind_isPrefix {hasOracle : Bool} {decoded : List (Segment × List Hypothesis)}
    {part : List (Event ε)} (h : part <+: idealEvents hasOracle decoded) :
    handed .oracle (part.map Event.call) <+: accepted .oneBest part := by
  rw [accepted_isPrefix .oneBest h, List.prefix_iff_eq_take.mp h]
  cases part.length with
  | zero => exact List.nil_prefix
  | succ count =>
    have shorter := (List.take_prefix_take_left
      (l := (idealEvents hasOracle decoded : List (Event ε))) (Nat.le_succ count)).map Event.call
    exact (handed_oracle_take hasOracle decoded count).trans (handed_isPrefix .oneBest shorter)

theorem orderly_idealEvents {hasOracle : Bool} {script : List (Except ε Segment)}
    {decoded : List (Segment × List Hypothesis)} (read : units script = decoded.map Prod.fst) :
    Orderly hasOracle script (idealEvents hasOracle decoded) where
  inOrder target := by
    rw [handed_idealEvents, read]
    split
    · exact List.prefix_rfl
    · exact List.nil_prefix
  finishedLast _ _ other member := by
    rw [accepted_isPrefix other List.prefix_rfl, handed_idealEvents, if_pos member, read]
  oracleBehind _ := oracle_behind_isPrefix

/-- The call that fails changes nothing about what is accepted. -/
theorem accepted_failed (target : Target) (events : List (Event ε)) (call : Call) (error : ε) :
    accepted target (events ++ [⟨call, .error error⟩]) = accepted target events := by
  rw [accepted_append]
  exact List.append_nil _

theorem orderly_cut {hasOracle : Bool} {script : List (Except ε Segment)}
    {decoded : List (Segment × List Hypothesis)} {error : ε} {events : List (Event ε)}
    (read : units script = decoded.map Prod.fst)
    (cut : Cut error (idealEvents hasOracle decoded) events) :
    Orderly hasOracle script events := by
  obtain ⟨before, after, call, answer, whole, rfl⟩ := cut.exists
  have isPrefix : before <+: idealEvents hasOracle decoded := ⟨_, whole.symm⟩
  have calls : (before ++ [(⟨call, .error error⟩ : Event ε)]).map Event.call <+:
      (idealEvents hasOracle decoded : List (Event ε)).map Event.call := by
    rw [whole]
    exact ⟨after.map Event.call, by simp⟩
  refine ⟨fun target => ?inOrder, fun target finished other member => ?finishedLast,
    fun part isPart => ?oracleBehind⟩
  case inOrder =>
    have prefix_handed := handed_isPrefix target calls
    exact prefix_handed.trans ((orderly_idealEvents read).inOrder target)
  case finishedLast =>
    -- The failing call and those after it come no earlier than the finish, and hand nothing over.
    have settled := pairwise_idealEvents (ε := ε) hasOracle decoded
    have handed_all := handed_idealEvents (ε := ε) hasOracle decoded other
    rw [if_pos member, whole, List.map_append, handed_append] at handed_all
    rw [whole, List.map_append, List.map_cons] at settled
    obtain ⟨_, settled_last, settled_before⟩ := List.pairwise_append.mp settled
    have nothing : handed other (call :: after.map Event.call) = [] := by
      rw [handed, List.filterMap_eq_nil_iff]
      rw [List.map_append, List.mem_append] at finished
      rcases finished with earlier | last
      · exact fun later isLater => settled_before _ earlier later isLater target rfl other
      · obtain rfl : .finish target = call := List.mem_singleton.mp last
        refine List.forall_mem_cons.mpr ⟨rfl, fun later isLater => ?_⟩
        exact (List.pairwise_cons.mp settled_last).1 later isLater target rfl other
    rw [List.map_cons, nothing, List.append_nil] at handed_all
    rw [accepted_failed, accepted_isPrefix other isPrefix, handed_all, read]
  case oracleBehind =>
    rcases List.prefix_concat_iff.mp isPart with rfl | within
    · have upTo : before ++ [⟨call, .ok answer⟩] =
          (idealEvents hasOracle decoded).take (before.length + 1) := by
        rw [whole, List.take_length_add_append, List.take_succ_cons, List.take_zero]
      have ahead := handed_oracle_take (ε := ε) hasOracle decoded before.length
      rw [← upTo, ← List.prefix_iff_eq_take.mp isPrefix] at ahead
      rw [accepted_failed, accepted_isPrefix .oneBest isPrefix]
      rw [List.map_append] at ahead ⊢
      exact ahead
    · exact oracle_behind_isPrefix (within.trans isPrefix)

theorem Course.orderly {hasOracle : Bool} {start : Summary} {script : List (Except ε Segment)}
    {result : Except ε Summary} {events : List (Event ε)}
    (h : Course hasOracle start script result events) : Orderly hasOracle script events := by
  cases h with
  | @complete decoded read =>
    have units_eq : units script = decoded.map Prod.fst := by
      simp [units, read, Function.comp_def, Except.toOption]
    exact orderly_idealEvents units_eq
  | failed read cut _ => exact orderly_cut read cut

/-- A decode makes the calls of the ideal sequence up to the first that fails, with the error of
which it ends, and counts its segments when none does. -/
theorem decodeAll_course (partners : Partners (ExceptT ε (StateM σ)))
    (script : List (Except ε Segment)) (state : σ) :
    Course partners.oracle.isSome {} script (partners.course script state).1
        (partners.course script state).2 ∧
      Orderly partners.oracle.isSome script (partners.course script state).2 := by
  obtain ⟨result, after, events, run, course⟩ := course_decodeFrom partners script {} state []
  have eq : partners.course script state = (result, events) := by
    rw [Partners.course, decodeAll, run]
    rfl
  rw [eq]
  exact ⟨course, course.orderly⟩

end SystemCombination.Partners
