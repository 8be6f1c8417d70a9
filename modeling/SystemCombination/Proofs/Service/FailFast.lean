import SystemCombination.Proofs.Service.Life
import SystemCombination.Service.Network

/-! A life of the service that fails, fails fast. Its events are the steps of a path in which a
failure takes the place of the next step, and a preparation that fails is the end: nothing is bound,
and what has been reported is what comes back. -/

namespace SystemCombination

open Occurrence

/-- Neither backend takes a file that cannot be read or that holds nothing. -/
theorem ModelConfig.load_unusable (config : ModelConfig) {source : Except IoError (List UInt8)}
    (unusable : ∀ bytes, source = .ok bytes → bytes = []) :
    ∃ fault, config.load source = .error ⟨config.backend, config.file, fault⟩ := by
  obtain ⟨backend, file, order⟩ := config
  cases source with
  | error error => cases backend <;> exact ⟨.unreadable error, rfl⟩
  | ok bytes =>
    obtain rfl := unusable bytes rfl
    cases backend with
    | sri => exact ⟨.malformed 0 .noDataHeader, rfl⟩
    | salm => exact ⟨.empty, rfl⟩

/-! ### What may come after what -/

/-- Whether it is settled with an event how a preparation ends. -/
def Event.settles : Event → Bool
  | prepared _ | failed _ => true
  | _ => false

/-- Which event comes right after which: the next step, or a failure in its place. -/
inductive Event.Follows : Event → Event → Prop
  | loading (config : ModelConfig) : Follows starting (modelLoading config)
  | misconfigured (error : CommandLine.Error) : Follows starting (failed (.configuration error))
  | unlogged (error : LogFilter.Error) : Follows starting (failed (.logFilter error))
  | ready (config : ModelConfig) (model : Model) : Follows (modelLoading config) (modelReady model)
  | unready (config : ModelConfig) (error : Model.Error) :
      Follows (modelLoading config) (modelFailed error)
  | unloaded (error : Model.Error) : Follows (modelFailed error) (failed (.model error))
  | prepared (model : Model) (config : Config) : Follows (modelReady model) (prepared config)
  | listening (config : Config) : Follows (prepared config) listening

/-- What has to have occurred before a model file is opened, an address is bound, or listening is
reported. -/
def Occurrence.Allowed (loaded : Except CommandLine.Error Config) (earlier : List Occurrence) :
    Occurrence → Prop
  | ⟨.readModel path, _⟩ =>
    ∃ config, loaded = .ok config ∧ path = config.lm.file ∧
      events earlier = [.starting, .modelLoading config.lm]
  | ⟨.bind endpoint, _⟩ =>
    ∃ config source model, loaded = .ok config ∧ endpoint = config.listen ∧
      opened earlier = [(config.lm.file, source)] ∧ config.lm.load source = .ok model ∧
      events earlier =
        [.starting, .modelLoading config.lm, .modelReady model, .prepared config]
  | ⟨.report .listening, _⟩ => ∃ endpoint, bound earlier = [(endpoint, .ok ())]
  | _ => True

/-- Each of the later occurrences is allowed by those before it. -/
def Occurrence.Orderly (loaded : Except CommandLine.Error Config) :
    List Occurrence → List Occurrence → Prop
  | _, [] => True
  | earlier, next :: later => next.Allowed loaded earlier ∧ Orderly loaded (earlier ++ [next]) later

theorem Occurrence.Orderly.allowed {loaded : Except CommandLine.Error Config}
    {earlier later middle rest : List Occurrence} {occurrence : Occurrence}
    (orderly : Orderly loaded earlier later) (split : later = middle ++ occurrence :: rest) :
    occurrence.Allowed loaded (earlier ++ middle) := by
  induction middle generalizing earlier later with
  | nil =>
    obtain rfl := split
    rw [List.append_nil]
    exact orderly.1
  | cons next middle ih =>
    obtain rfl := split
    rw [List.append_cons]
    exact ih orderly.2 rfl

theorem Occurrence.orderly_append {loaded : Except CommandLine.Error Config}
    {earlier first later : List Occurrence} (before : Orderly loaded earlier first)
    (after : Orderly loaded (earlier ++ first) later) :
    Orderly loaded earlier (first ++ later) := by
  induction first generalizing earlier with
  | nil =>
    rw [List.append_nil] at after
    exact after
  | cons next first ih =>
    rw [List.append_cons] at after
    exact ⟨before.1, ih before.2 after⟩

/-- A life whose events are a path and whose preparation, if it fails, is the end of it: the failure
is told, nothing is bound, and the same failure comes back. -/
structure FailFast (loaded : Except CommandLine.Error Config) (result : Except Life.Error Unit)
    (trace : List Occurrence) : Prop where
  begins : (events trace).head? = some .starting
  path : (events trace).IsChain Event.Follows
  settled : ∃ event, (events trace).filter Event.settles = [event]
  misconfigured : ∀ error, loaded = .error error →
    events trace = [.starting, .failed (.configuration error)] ∧ opened trace = [] ∧
      bound trace = []
  unlogged : ∀ error, .error error ∈ logged trace →
    events trace = [.starting, .failed (.logFilter error)] ∧ opened trace = [] ∧ bound trace = []
  unloaded : ∀ config path source error, loaded = .ok config → (path, source) ∈ opened trace →
    config.lm.load source = .error error →
    events trace = [.starting, .modelLoading config.lm, .modelFailed error,
        .failed (.model error)] ∧ bound trace = []
  unusable : ∀ config path source, loaded = .ok config → (path, source) ∈ opened trace →
    (∀ bytes, source = .ok bytes → bytes = []) →
    ∃ fault, result = .error (.preparation (.model ⟨config.lm.backend, config.lm.file, fault⟩))
  order : ∀ earlier occurrence later, trace = earlier ++ occurrence :: later →
    occurrence.Allowed loaded earlier
  returned : ∀ error, .failed error ∈ events trace ↔ result = .error (.preparation error)

namespace Preparation

variable {loaded : Except CommandLine.Error Config} {trace : List Occurrence}

/-- The event that settles a preparation. -/
def outcome : Except Error Service → Event
  | .ok service => .prepared service.config
  | .error error => .failed error

theorem Course.settled {result : Except Error Service} (course : Course loaded result trace) :
    (events trace).filter Event.settles = [outcome result] := by
  cases course <;> rfl

theorem Course.getLast_events {result : Except Error Service}
    (course : Course loaded result trace) : (events trace).getLast? = some (outcome result) := by
  cases course <;> rfl

theorem Course.path {result : Except Error Service} (course : Course loaded result trace) :
    (events trace).IsChain Event.Follows := by
  cases course with
  | misconfigured error => exact .cons_cons (.misconfigured error) (.singleton _)
  | unlogged config error => exact .cons_cons (.unlogged error) (.singleton _)
  | @unloaded config _ error =>
    exact .cons_cons (.loading config.lm) <| .cons_cons (.unready config.lm error) <|
      .cons_cons (.unloaded error) (.singleton _)
  | @prepared config _ model =>
    exact .cons_cons (.loading config.lm) <| .cons_cons (.ready config.lm model) <|
      .cons_cons (.prepared model config) (.singleton _)

theorem Course.orderly {result : Except Error Service} (course : Course loaded result trace) :
    Orderly loaded [] trace := by
  cases course with
  | misconfigured => exact ⟨trivial, trivial, trivial⟩
  | unlogged => exact ⟨trivial, trivial, trivial, trivial⟩
  | unloaded => exact ⟨trivial, trivial, trivial, ⟨_, rfl, rfl, rfl⟩, trivial, trivial, trivial⟩
  | prepared => exact ⟨trivial, trivial, trivial, ⟨_, rfl, rfl, rfl⟩, trivial, trivial, trivial⟩

theorem Course.bind_allowed {service : Service} (course : Course loaded (.ok service) trace)
    (answer : Except EndpointError Unit) :
    (⟨.bind service.config.listen, answer⟩ : Occurrence).Allowed loaded trace := by
  cases course with
  | prepared loads => exact ⟨_, _, _, rfl, rfl, rfl, loads, rfl⟩

/-- No connection is served during a preparation. -/
theorem Course.idle {result : Except Error Service} (course : Course loaded result trace) :
    ∀ occurrence ∈ trace, occurrence.action ≠ .awaitSignal := by
  cases course <;> simp [reading, reported]

theorem Course.bound_eq {result : Except Error Service} (course : Course loaded result trace) :
    bound trace = [] := by
  cases course <;> rfl

end Preparation

namespace Life

variable {loaded : Except CommandLine.Error Config} {result : Except Error Unit}
  {trace : List Occurrence}

theorem Serving.events_eq {service : Service} (serving : Serving service result trace) :
    events trace = [] ∨ events trace = [.listening] := by
  cases serving with
  | unbound => exact .inl rfl
  | unserved => exact .inl rfl
  | unsignalled => exact .inr rfl
  | stopped => exact .inr rfl

theorem Serving.opened_eq {service : Service} (serving : Serving service result trace) :
    opened trace = [] := by
  cases serving <;> rfl

theorem Serving.result_ne {service : Service} (serving : Serving service result trace)
    (error : Preparation.Error) : result ≠ .error (.preparation error) := by
  cases serving with
  | unbound => simp
  | unserved => simp
  | unsignalled => simp
  | stopped answer => cases answer <;> simp [Except.mapError]

theorem Serving.orderly {service : Service} {first : List Occurrence}
    (serving : Serving service result trace)
    (before : Preparation.Course loaded (.ok service) first) : Orderly loaded first trace := by
  have listens : (reported .listening).Allowed loaded
      (first ++ [⟨.bind service.config.listen, .ok ()⟩] ++
        [⟨.startServing service.model, .ok ()⟩]) := by
    refine ⟨service.config.listen, ?_⟩
    rw [bound, List.append_assoc, List.filterMap_append]
    exact congrArg (· ++ _) before.bound_eq
  cases serving with
  | unbound => exact ⟨before.bind_allowed _, trivial⟩
  | unserved => exact ⟨before.bind_allowed _, trivial, trivial⟩
  | unsignalled => exact ⟨before.bind_allowed _, trivial, listens, trivial, trivial⟩
  | stopped => exact ⟨before.bind_allowed _, trivial, listens, trivial, trivial, trivial⟩

/-- What settles the preparation is what comes back. -/
theorem Course.settled (course : Course loaded result trace) :
    ∃ prepared : Except Preparation.Error Service,
      (events trace).filter Event.settles = [Preparation.outcome prepared] ∧
        ∀ error, prepared = .error error ↔ result = .error (.preparation error) := by
  cases course with
  | @unprepared error _ before => exact ⟨.error error, before.settled, by simp⟩
  | @prepared service _ first later before after =>
    have quiet : (events later).filter Event.settles = [] := by
      rcases after.events_eq with told | told <;> (rw [told]; rfl)
    refine ⟨.ok service, ?_, fun error => ⟨nofun, fun same => (after.result_ne error same).elim⟩⟩
    rw [events_append, List.filter_append, before.settled, quiet]
    rfl

theorem Course.path (course : Course loaded result trace) :
    (events trace).IsChain Event.Follows := by
  cases course with
  | unprepared before => exact before.path
  | @prepared service _ first later before after =>
    rw [events_append]
    rcases after.events_eq with told | told <;> rw [told]
    · rw [List.append_nil]
      exact before.path
    · refine List.isChain_append.mpr ⟨before.path, .singleton _, ?_⟩
      intro last isLast next isNext
      rw [before.getLast_events, Option.mem_some] at isLast
      rw [List.head?_cons, Option.mem_some] at isNext
      rw [← isLast, ← isNext]
      exact .listening service.config

theorem Course.orderly (course : Course loaded result trace) : Orderly loaded [] trace := by
  cases course with
  | unprepared before => exact before.orderly
  | prepared before after => exact orderly_append before.orderly (after.orderly before)

theorem Course.begins (course : Course loaded result trace) :
    (events trace).head? = some .starting := by
  cases course with
  | unprepared before => cases before <;> rfl
  | prepared before =>
    cases before
    rfl

theorem Course.misconfigured {error : CommandLine.Error}
    (course : Course (.error error) result trace) :
    events trace = [.starting, .failed (.configuration error)] ∧ opened trace = [] ∧
      bound trace = [] := by
  cases course with
  | unprepared before =>
    cases before
    exact ⟨rfl, rfl, rfl⟩
  | prepared before => cases before

theorem Course.unlogged {error : LogFilter.Error} (course : Course loaded result trace)
    (refused : .error error ∈ logged trace) :
    events trace = [.starting, .failed (.logFilter error)] ∧ opened trace = [] ∧
      bound trace = [] := by
  cases course with
  | unprepared before =>
    cases before with
    | misconfigured => cases refused
    | unlogged =>
      cases refused with
      | head => exact ⟨rfl, rfl, rfl⟩
      | tail _ refused => cases refused
    | unloaded =>
      cases refused with
      | tail _ refused => cases refused
  | @prepared service _ first later before after =>
    have logs : logged (first ++ later) = [.ok ()] := by
      cases before
      cases after <;> rfl
    rw [logs] at refused
    simp at refused

theorem Course.unloaded {config : Config} {path : String}
    {source : Except IoError (List UInt8)} {error : Model.Error}
    (course : Course (.ok config) result trace) (read : (path, source) ∈ opened trace)
    (refused : config.lm.load source = .error error) :
    events trace = [.starting, .modelLoading config.lm, .modelFailed error,
      .failed (.model error)] ∧ bound trace = [] := by
  cases course with
  | unprepared before =>
    cases before with
    | unlogged => cases read
    | unloaded refuses =>
      cases read with
      | head =>
        cases refuses.symm.trans refused
        exact ⟨rfl, rfl⟩
      | tail _ read => cases read
  | @prepared service _ first later before after =>
    cases before with
    | @prepared _ held model loads =>
      rw [opened_append, after.opened_eq, List.append_nil] at read
      cases read with
      | head => cases loads.symm.trans refused
      | tail _ read => cases read

theorem Course.returned (course : Course loaded result trace) (error : Preparation.Error) :
    .failed error ∈ events trace ↔ result = .error (.preparation error) := by
  obtain ⟨prepared, settled, returns⟩ := course.settled
  calc
    .failed error ∈ events trace ↔ .failed error ∈ (events trace).filter Event.settles := by
      rw [List.mem_filter]
      exact (and_iff_left rfl).symm
    _ ↔ prepared = .error error := by
      rw [settled, List.mem_singleton]
      cases prepared <;> simp [Preparation.outcome, eq_comm]
    _ ↔ result = .error (.preparation error) := returns error

theorem Course.failFast (course : Course loaded result trace) : FailFast loaded result trace where
  begins := course.begins
  path := course.path
  settled := by
    obtain ⟨prepared, settled, -⟩ := course.settled
    exact ⟨_, settled⟩
  misconfigured := by
    rintro error rfl
    exact course.misconfigured
  unlogged error refused := course.unlogged refused
  unloaded := by
    rintro config path source error rfl read refused
    exact course.unloaded read refused
  unusable := by
    rintro config path source rfl read unusable
    obtain ⟨fault, refused⟩ := config.lm.load_unusable unusable
    obtain ⟨told, -⟩ := course.unloaded read refused
    exact ⟨fault, (course.returned _).mp (by simp [told])⟩
  order _ _ _ split := course.orderly.allowed split
  returned := course.returned

end Life

/-! ### Machines in a network -/

namespace Network

variable {network : Network} {checkFilter : LogFilter.Check} {engine : Engine}
  {connections : List Connection} {machine next last : Machine}

theorem events_of_serve (network : Network) (engine : Engine) (connections : List Connection)
    (machine : Machine) : (network.serve engine connections machine).2.events = machine.events := by
  rw [serve]
  split
  · rfl
  · dsimp only
    split <;> rfl

/-- The turns of the clients are over in the end, whatever panics while they are served. -/
theorem serveTurns_turns {σ : Type} (network : Network)
    (handle : Connection → ExceptT Panic (StateM σ) Served) (connections : List Connection)
    (state : σ) :
    ∃ served last,
      (serveTurns handle (network.turns connections)).run state = (.ok served, last) := by
  rw [turns]
  split
  · have run := Turn.play_eq handle
      (connections.map fun connection => ⟨false, .connection connection⟩) state
    rw [Turn.play, List.map_map] at run
    exact ⟨_, _, run⟩
  · exact ⟨[], state, rfl⟩

/-- No panic breaks a machine down that serves connections. -/
theorem brokenDown_of_serve (network : Network) (engine : Engine) (connections : List Connection)
    (machine : Machine) :
    (network.serve engine connections machine).2.brokenDown = machine.brokenDown := by
  rw [serve]
  cases machine.serving with
  | none => rfl
  | some model =>
    obtain ⟨served, files, run⟩ :=
      network.serveTurns_turns (Connection.handle engine model) connections machine.files
    dsimp only
    rw [run]

theorem events_of_perform {action : Action} {answer : action.Answer}
    (performs : network.perform checkFilter engine connections action machine = (answer, next)) :
    next.events = machine.events ++ events [⟨action, answer⟩] := by
  cases action with
  | report =>
    cases performs
    rfl
  | awaitSignal =>
    cases performs
    exact (events_of_serve network engine connections machine).trans (List.append_nil _).symm
  | startLog | readModel | bind | startServing | stopServing =>
    cases performs
    exact (List.append_nil _).symm

theorem events_of_plays {trace : List Occurrence}
    (plays : (network.perform checkFilter engine connections).Plays trace machine last) :
    last.events = machine.events ++ events trace := by
  induction trace generalizing machine with
  | nil =>
    obtain rfl : machine = last := plays
    exact (List.append_nil _).symm
  | cons occurrence later ih =>
    obtain ⟨next, performs, plays⟩ := plays
    rw [ih plays, events_of_perform performs, List.append_assoc, ← events_append]
    rfl

/-- Files are only changed while connections are served. -/
theorem files_of_perform {action : Action} {answer : action.Answer}
    (performs : network.perform checkFilter engine connections action machine = (answer, next))
    (idle : action ≠ .awaitSignal) : next.files = machine.files := by
  cases action with
  | awaitSignal => exact (idle rfl).elim
  | report | startLog | readModel | bind | startServing | stopServing =>
    cases performs
    rfl

/-- A model file that is opened before connections are served is read from the files at the start.
-/
theorem source_of_plays {trace : List Occurrence}
    (plays : (network.perform checkFilter engine connections).Plays trace machine last)
    (idle : ∀ occurrence ∈ trace, occurrence.action ≠ .awaitSignal) {path : String}
    {source : Except IoError (List UInt8)} (read : (path, source) ∈ opened trace) :
    source = machine.files.readPath path := by
  induction trace generalizing machine with
  | nil => cases read
  | cons occurrence later ih =>
    obtain ⟨next, performs, plays⟩ := plays
    obtain ⟨quiet, others⟩ := List.forall_mem_cons.mp idle
    rw [← files_of_perform performs quiet]
    obtain ⟨action, answer⟩ := occurrence
    cases action with
    | readModel file =>
      cases read with
      | head =>
        cases performs
        rfl
      | tail _ read => exact ih plays others read
    | report | startLog | bind | startServing | awaitSignal | stopServing =>
      exact ih plays others read

end Network

theorem Life.Course.source_of_plays {network : Network} {checkFilter : LogFilter.Check}
    {engine : Engine} {connections : List Connection} {machine last : Machine}
    {loaded : Except CommandLine.Error Config} {result : Except Error Unit}
    {trace : List Occurrence} (course : Course loaded result trace)
    (plays : (network.perform checkFilter engine connections).Plays trace machine last)
    {path : String} {source : Except IoError (List UInt8)}
    (read : (path, source) ∈ opened trace) : source = machine.files.readPath path := by
  cases course with
  | unprepared before => exact Network.source_of_plays plays before.idle read
  | prepared before after =>
    obtain ⟨between, prepares, -⟩ := Performer.plays_append.mp plays
    rw [opened_append, after.opened_eq, List.append_nil] at read
    exact Network.source_of_plays prepares before.idle read

/-- The service fails fast on every machine, whatever the arguments of its command line. On a
machine in a network, the events are those that the machine has been told, and the model is read
from its files. -/
theorem Life.run_failsFast :
    (∀ {σ : Type} (perform : Performer (StateM σ)) (arguments : List (List UInt8)) (state : σ),
      ∃ result last trace,
        run perform (CommandLine.configure arguments) state = (result, last) ∧
        run perform.recording (CommandLine.configure arguments) (state, []) =
          (result, last, trace) ∧
        Course (CommandLine.configure arguments) result trace ∧
        FailFast (CommandLine.configure arguments) result trace) ∧
    ∀ (network : Network) (checkFilter : LogFilter.Check) (engine : Engine)
      (connections : List Connection) (arguments : List (List UInt8)) (machine : Machine),
      ∃ result last trace,
        run (network.perform checkFilter engine connections) (CommandLine.configure arguments)
          machine = (result, last) ∧
        run (network.perform checkFilter engine connections).recording
          (CommandLine.configure arguments) (machine, []) = (result, last, trace) ∧
        FailFast (CommandLine.configure arguments) result trace ∧
        last.events = machine.events ++ events trace ∧
        ∀ path source, (path, source) ∈ opened trace → source = machine.files.readPath path := by
  constructor
  · intro σ perform arguments state
    obtain ⟨result, trace, last, course, plays⟩ :=
      exists_course perform (CommandLine.configure arguments) state
    exact ⟨result, last, trace, course.run_eq plays, course.run_eq (plays.recorded []), course,
      course.failFast⟩
  · intro network checkFilter engine connections arguments machine
    obtain ⟨result, trace, last, course, plays⟩ := exists_course
      (network.perform checkFilter engine connections) (CommandLine.configure arguments) machine
    exact ⟨result, last, trace, course.run_eq plays, course.run_eq (plays.recorded []),
      course.failFast, Network.events_of_plays plays, fun _ _ => course.source_of_plays plays⟩

end SystemCombination
