import SystemCombination.Proofs.Service.Turns
import SystemCombination.Service.Life

/-! The life of the service on any machine, whatever its actions are answered with. Every action is
recorded with its answer, and the records that there can be are courses, each with its end. -/

namespace SystemCombination

/-- An action that has been performed and what it has been answered with. -/
structure Occurrence where
  action : Action
  answer : action.Answer

namespace Occurrence

def reported (event : Event) : Occurrence := ⟨.report event, ()⟩

def event? : Occurrence → Option Event
  | ⟨.report event, _⟩ => some event
  | _ => none

def logged? : Occurrence → Option (Except LogFilter.Error Unit)
  | ⟨.startLog _, answer⟩ => some answer
  | _ => none

/-- The model file that has been opened, and what it has been read to hold. -/
def opened? : Occurrence → Option (String × Except IoError (List UInt8))
  | ⟨.readModel path, source⟩ => some (path, source)
  | _ => none

def bound? : Occurrence → Option (Endpoint × Except EndpointError Unit)
  | ⟨.bind endpoint, answer⟩ => some (endpoint, answer)
  | _ => none

def events (trace : List Occurrence) : List Event := trace.filterMap event?

def logged (trace : List Occurrence) : List (Except LogFilter.Error Unit) :=
  trace.filterMap logged?

def opened (trace : List Occurrence) : List (String × Except IoError (List UInt8)) :=
  trace.filterMap opened?

def bound (trace : List Occurrence) : List (Endpoint × Except EndpointError Unit) :=
  trace.filterMap bound?

theorem events_append (first later : List Occurrence) :
    events (first ++ later) = events first ++ events later := List.filterMap_append

theorem opened_append (first later : List Occurrence) :
    opened (first ++ later) = opened first ++ opened later := List.filterMap_append

end Occurrence

open Occurrence

variable {σ : Type}

namespace Performer

/-- The performer whose actions are recorded. -/
def recording (perform : Performer (StateM σ)) : Performer (StateM (σ × List Occurrence)) :=
  fun action (state, earlier) =>
    let (answer, state) := perform action state
    (answer, state, earlier ++ [⟨action, answer⟩])

/-- The actions of a trace, one after the other, are answered as in the trace and lead from a state
to another. -/
def Plays (perform : Performer (StateM σ)) : List Occurrence → σ → σ → Prop
  | [], state, last => state = last
  | ⟨action, answer⟩ :: later, state, last =>
    ∃ next, perform action state = (answer, next) ∧ Plays perform later next last

variable {perform : Performer (StateM σ)}

theorem plays_append {first later : List Occurrence} {state last : σ} :
    perform.Plays (first ++ later) state last ↔
      ∃ between, perform.Plays first state between ∧ perform.Plays later between last := by
  induction first generalizing state with
  | nil => exact ⟨fun plays => ⟨state, rfl, plays⟩, fun ⟨_, same, plays⟩ => same ▸ plays⟩
  | cons occurrence first ih =>
    constructor
    · rintro ⟨next, performs, plays⟩
      obtain ⟨between, before, after⟩ := ih.mp plays
      exact ⟨between, ⟨next, performs, before⟩, after⟩
    · rintro ⟨between, ⟨next, performs, before⟩, after⟩
      exact ⟨next, performs, ih.mpr ⟨between, before, after⟩⟩

/-- Recording has no effect but the record. -/
theorem Plays.recorded {trace : List Occurrence} {state last : σ}
    (plays : perform.Plays trace state last) (earlier : List Occurrence) :
    perform.recording.Plays trace (state, earlier) (last, earlier ++ trace) := by
  induction trace generalizing state earlier with
  | nil =>
    obtain rfl : state = last := plays
    exact congrArg (Prod.mk state) (List.append_nil earlier).symm
  | cons occurrence later ih =>
    obtain ⟨next, performs, plays⟩ := plays
    have whole : earlier ++ occurrence :: later = earlier ++ [occurrence] ++ later := by simp
    refine ⟨(next, earlier ++ [occurrence]), ?_, whole ▸ ih plays _⟩
    rw [recording, performs]

end Performer

/-! ### Courses -/

namespace Preparation

/-- What has occurred once a model file has been opened and read. -/
def reading (config : Config) (source : Except IoError (List UInt8)) : List Occurrence :=
  [reported .starting, ⟨.startLog config.log, .ok ()⟩, reported (.modelLoading config.lm),
    ⟨.readModel config.lm.file, source⟩]

/-- How a preparation ends, and all that occurs. -/
inductive Course : Except CommandLine.Error Config → Except Error Service → List Occurrence → Prop
  | misconfigured (error : CommandLine.Error) :
      Course (.error error) (.error (.configuration error))
        [reported .starting, reported (.failed (.configuration error))]
  | unlogged (config : Config) (error : LogFilter.Error) :
      Course (.ok config) (.error (.logFilter error))
        [reported .starting, ⟨.startLog config.log, .error error⟩,
          reported (.failed (.logFilter error))]
  | unloaded {config : Config} {source : Except IoError (List UInt8)} {error : Model.Error}
      (fails : config.lm.load source = .error error) :
      Course (.ok config) (.error (.model error))
        (reading config source ++
          [reported (.modelFailed error), reported (.failed (.model error))])
  | prepared {config : Config} {source : Except IoError (List UInt8)} {model : Model}
      (loads : config.lm.load source = .ok model) :
      Course (.ok config) (.ok ⟨config, model⟩)
        (reading config source ++
          [reported (.modelReady model), reported (.prepared config)])

variable {perform : Performer (StateM σ)} {loaded : Except CommandLine.Error Config}

/-- A preparation takes the course that the answers are those of. -/
theorem Course.run_eq {result : Except Error Service} {trace : List Occurrence} {state last : σ}
    (course : Course loaded result trace) (plays : perform.Plays trace state last) :
    run perform loaded state = (result, last) := by
  cases course with
  | misconfigured error =>
    obtain ⟨_, starts, _, fails, rfl⟩ := plays
    rw [run, Turn.bind_run starts]
    exact Turn.bind_run fails _
  | unlogged config error =>
    obtain ⟨_, starts, _, logs, _, fails, rfl⟩ := plays
    rw [run, Turn.bind_run starts, Turn.bind_run logs]
    exact Turn.bind_run fails _
  | unloaded refused =>
    obtain ⟨_, starts, _, logs, _, announces, _, reads, _, tells, _, fails, rfl⟩ := plays
    rw [run, Turn.bind_run starts, Turn.bind_run logs]
    dsimp only
    rw [Turn.bind_run announces, Turn.bind_run reads, refused]
    dsimp only
    rw [Turn.bind_run tells]
    exact Turn.bind_run fails _
  | prepared loads =>
    obtain ⟨_, starts, _, logs, _, announces, _, reads, _, tells, _, ends, rfl⟩ := plays
    rw [run, Turn.bind_run starts, Turn.bind_run logs]
    dsimp only
    rw [Turn.bind_run announces, Turn.bind_run reads, loads]
    dsimp only
    rw [Turn.bind_run tells, Turn.bind_run ends]
    rfl

/-- Whatever is answered, there is a course with these answers. -/
theorem exists_course (perform : Performer (StateM σ)) (loaded : Except CommandLine.Error Config)
    (state : σ) :
    ∃ result trace last, Course loaded result trace ∧ perform.Plays trace state last := by
  -- Each state is what an action leaves behind; only answers that a course fixes are looked at.
  let started := (perform (.report .starting) state).2
  cases loaded with
  | error error => exact ⟨_, _, _, .misconfigured error, _, rfl, _, rfl, rfl⟩
  | ok config =>
    cases logs : (perform (.startLog config.log) started).1 with
    | error error =>
      exact ⟨_, _, _, .unlogged config error, _, rfl, _, Prod.ext logs rfl, _, rfl, rfl⟩
    | ok =>
      let logged := (perform (.startLog config.log) started).2
      let announced := (perform (.report (.modelLoading config.lm)) logged).2
      cases loads : config.lm.load (perform (.readModel config.lm.file) announced).1 with
      | error error =>
        exact ⟨_, _, _, .unloaded loads, _, rfl, _, Prod.ext logs rfl, _, rfl, _, rfl, _, rfl, _,
          rfl, rfl⟩
      | ok model =>
        exact ⟨_, _, _, .prepared loads, _, rfl, _, Prod.ext logs rfl, _, rfl, _, rfl, _, rfl, _,
          rfl, rfl⟩

end Preparation

namespace Life

/-- How the serving of a prepared service ends, and all that occurs. -/
inductive Serving (service : Service) : Except Error Unit → List Occurrence → Prop
  | unbound (error : EndpointError) :
      Serving service (.error (.listen error)) [⟨.bind service.config.listen, .error error⟩]
  | unserved (error : EndpointError) :
      Serving service (.error (.listen error))
        [⟨.bind service.config.listen, .ok ()⟩, ⟨.startServing service.model, .error error⟩]
  | unsignalled (error : IoError) :
      Serving service (.error (.signals error))
        [⟨.bind service.config.listen, .ok ()⟩, ⟨.startServing service.model, .ok ()⟩,
          reported .listening, ⟨.awaitSignal, .error error⟩]
  | stopped (answer : Except EndpointError Unit) :
      Serving service (answer.mapError .listen)
        [⟨.bind service.config.listen, .ok ()⟩, ⟨.startServing service.model, .ok ()⟩,
          reported .listening, ⟨.awaitSignal, .ok ()⟩, ⟨.stopServing, answer⟩]

/-- How a life ends, and all that occurs. -/
inductive Course (loaded : Except CommandLine.Error Config) :
    Except Error Unit → List Occurrence → Prop
  | unprepared {error : Preparation.Error} {trace : List Occurrence}
      (before : Preparation.Course loaded (.error error) trace) :
      Course loaded (.error (.preparation error)) trace
  | prepared {service : Service} {result : Except Error Unit} {first later : List Occurrence}
      (before : Preparation.Course loaded (.ok service) first)
      (after : Serving service result later) :
      Course loaded result (first ++ later)

variable {perform : Performer (StateM σ)} {loaded : Except CommandLine.Error Config}

theorem Serving.serve_eq {service : Service} {result : Except Error Unit}
    {trace : List Occurrence} {state last : σ} (serving : Serving service result trace)
    (plays : perform.Plays trace state last) : serve perform service state = (result, last) := by
  cases serving with
  | unbound error =>
    obtain ⟨_, binds, rfl⟩ := plays
    rw [serve, Turn.bind_run binds]
    rfl
  | unserved error =>
    obtain ⟨_, binds, _, serves, rfl⟩ := plays
    rw [serve, Turn.bind_run binds]
    dsimp only
    rw [Turn.bind_run serves]
    rfl
  | unsignalled error =>
    obtain ⟨_, binds, _, serves, _, listens, _, waits, rfl⟩ := plays
    rw [serve, Turn.bind_run binds]
    dsimp only
    rw [Turn.bind_run serves]
    dsimp only
    rw [Turn.bind_run listens, Turn.bind_run waits]
    rfl
  | stopped answer =>
    obtain ⟨_, binds, _, serves, _, listens, _, waits, _, stops, rfl⟩ := plays
    rw [serve, Turn.bind_run binds]
    dsimp only
    rw [Turn.bind_run serves]
    dsimp only
    rw [Turn.bind_run listens, Turn.bind_run waits]
    dsimp only
    rw [Turn.bind_run stops]
    cases answer <;> rfl

theorem Course.run_eq {result : Except Error Unit} {trace : List Occurrence} {state last : σ}
    (course : Course loaded result trace) (plays : perform.Plays trace state last) :
    run perform loaded state = (result, last) := by
  cases course with
  | unprepared before =>
    rw [run, Turn.bind_run (before.run_eq plays)]
    rfl
  | prepared before after =>
    obtain ⟨between, prepares, serves⟩ := Performer.plays_append.mp plays
    rw [run, Turn.bind_run (before.run_eq prepares)]
    exact after.serve_eq serves

theorem exists_serving (perform : Performer (StateM σ)) (service : Service) (state : σ) :
    ∃ result trace last, Serving service result trace ∧ perform.Plays trace state last := by
  cases binds : (perform (.bind service.config.listen) state).1 with
  | error error => exact ⟨_, _, _, .unbound error, _, Prod.ext binds rfl, rfl⟩
  | ok =>
    let bound := (perform (.bind service.config.listen) state).2
    cases serves : (perform (.startServing service.model) bound).1 with
    | error error =>
      exact ⟨_, _, _, .unserved error, _, Prod.ext binds rfl, _, Prod.ext serves rfl, rfl⟩
    | ok =>
      let serving := (perform (.startServing service.model) bound).2
      let listening := (perform (.report .listening) serving).2
      cases waits : (perform .awaitSignal listening).1 with
      | error error =>
        exact ⟨_, _, _, .unsignalled error, _, Prod.ext binds rfl, _, Prod.ext serves rfl, _, rfl,
          _, Prod.ext waits rfl, rfl⟩
      | ok =>
        exact ⟨_, _, _, .stopped _, _, Prod.ext binds rfl, _, Prod.ext serves rfl, _, rfl, _,
          Prod.ext waits rfl, _, rfl, rfl⟩

theorem exists_course (perform : Performer (StateM σ)) (loaded : Except CommandLine.Error Config)
    (state : σ) :
    ∃ result trace last, Course loaded result trace ∧ perform.Plays trace state last := by
  obtain ⟨prepared, first, between, before, prepares⟩ :=
    Preparation.exists_course perform loaded state
  cases prepared with
  | error error => exact ⟨_, _, _, .unprepared before, prepares⟩
  | ok service =>
    obtain ⟨result, later, last, after, serves⟩ := exists_serving perform service between
    exact ⟨_, _, _, .prepared before after, Performer.plays_append.mpr ⟨_, prepares, serves⟩⟩

end Life

end SystemCombination
