import SystemCombination.Proofs.Connection.Course
import SystemCombination.Proofs.Engine.Frame
import SystemCombination.Service.Turns

/-! The turns of the service, whatever they ask for and however connections end. Every question and
every service is recorded: each connection that a poll yields is served once, to its end and before
the next turn, and only a check that says so ends the turns. A panic ends the handler, never the
turns. A connection that is refused leaves nothing behind for those after it. -/

namespace SystemCombination

def Poll.connection? : Poll → Option Connection
  | .connection yielded => some yielded
  | .nothing | .failed _ => none

theorem Poll.eq_of_connection? {poll : Poll} {connection : Connection}
    (h : poll.connection? = some connection) : poll = .connection connection := by
  cases poll with
  | connection => rw [Option.some.inj h]
  | nothing => cases h
  | failed => cases h

namespace Turn

/-- What the questions of a turn are answered with. -/
structure Answers where
  stopping : Bool
  poll : Poll

inductive Event
  | asked (stopping : Bool)
  | polled (poll : Poll)
  | started (connection : Connection)
  | ended (ending : Ending)

variable {σ : Type}

/-- An action that may panic, after which events are put behind those so far. -/
def noting {α : Type} (action : ExceptT Panic (StateM σ) α)
    (events : Except Panic α → List Event) : ExceptT Panic (StateM (σ × List Event)) α :=
  ExceptT.mk fun (state, earlier) =>
    let (result, state) := action.run state
    (result, state, earlier ++ events result)

/-- The turn with the answers, which are recorded. -/
def recorded (answers : Answers) : Turn (ExceptT Panic (StateM (σ × List Event))) where
  stopping := noting (pure answers.stopping) fun _ => [.asked answers.stopping]
  poll := noting (pure answers.poll) fun _ => [.polled answers.poll]

/-- How a connection ends whose handler yields a result. -/
def endingOf : Except Panic Served → Ending
  | .ok served => served.ending
  | .error _ => .crashed

/-- Handling a connection, with its start and its end recorded. -/
def recording (handle : Connection → ExceptT Panic (StateM σ) Served) (connection : Connection) :
    ExceptT Panic (StateM (σ × List Event)) Served := do
  noting (pure ()) fun _ => [.started connection]
  noting (handle connection) fun result => [.ended (endingOf result)]

/-- What becomes of a connection whose handler is caught where it panics. -/
def caught (handle : Connection → ExceptT Panic (StateM σ) Served) (connection : Connection) :
    StateM σ Served := fun state =>
  match (handle connection).run state with
  | (.ok served, state) => (served, state)
  | (.error panic, state) => (panic.served, state)

/-- The answers of the turns before the first that asks to stop. -/
def before (script : List Answers) : List Answers :=
  script.takeWhile fun answers => !answers.stopping

/-- The events of turns with the answers, in which connections are served as given. -/
inductive Course : List Answers → List Served → List Event → Prop
  | done : Course [] [] []
  | stop {poll : Poll} {script : List Answers} : Course (⟨true, poll⟩ :: script) [] [.asked true]
  | idle {poll : Poll} {script : List Answers} {served : List Served} {events : List Event}
      (unanswered : poll.connection? = none) (later : Course script served events) :
      Course (⟨false, poll⟩ :: script) served (.asked false :: .polled poll :: events)
  | serve {connection : Connection} {first : Served} {script : List Answers}
      {served : List Served} {events : List Event} (later : Course script served events) :
      Course (⟨false, .connection connection⟩ :: script) (first :: served)
        (.asked false :: .polled (.connection connection) :: .started connection ::
          .ended first.ending :: events)

section Steps

variable {handle : Connection → ExceptT Panic (StateM σ) Served}
  {turn : Turn (ExceptT Panic (StateM σ))} {turns : List (Turn (ExceptT Panic (StateM σ)))}
  {state between ready last : σ}

theorem bind_run {α β : Type} {action : StateM σ α} {value : α}
    (run : action state = (value, between)) (rest : α → StateM σ β) :
    (action >>= rest) state = rest value between := by
  simp only [bind, StateT.bind, run]

theorem bind_run_ok {α β : Type} {action : ExceptT Panic (StateM σ) α} {value : α}
    (run : action.run state = (.ok value, between)) (rest : α → ExceptT Panic (StateM σ) β) :
    (action >>= rest).run state = (rest value).run between := by
  rw [ExceptT.run_bind, bind_run run]

/-- A handler that panics is caught, with what it has sent and the state that it has left. -/
theorem serveIsolated_run (handle : Connection → ExceptT Panic (StateM σ) Served)
    (connection : Connection) (state : σ) :
    (serveIsolated handle connection).run state =
      (.ok (caught handle connection state).1, (caught handle connection state).2) := by
  rw [serveIsolated, ExceptT.run_tryCatch, caught]
  rcases run : (handle connection).run state with ⟨_ | _, _⟩ <;> rw [bind_run run] <;> rfl

theorem serveTurns_stop (asked : turn.stopping.run state = (.ok true, last)) :
    (serveTurns handle (turn :: turns)).run state = (.ok [], last) := by
  rw [serveTurns, bind_run_ok asked]
  rfl

theorem serveTurns_idle {poll : Poll} (asked : turn.stopping.run state = (.ok false, between))
    (polled : turn.poll.run between = (.ok poll, ready)) (unanswered : poll.connection? = none) :
    (serveTurns handle (turn :: turns)).run state = (serveTurns handle turns).run ready := by
  rw [serveTurns, bind_run_ok asked, if_neg Bool.false_ne_true, bind_run_ok polled]
  cases poll with
  | connection => cases unanswered
  | nothing => rfl
  | failed error => rfl

theorem serveTurns_serve {connection : Connection} {served : List Served}
    (asked : turn.stopping.run state = (.ok false, between))
    (polled : turn.poll.run between = (.ok (.connection connection), ready))
    (later : (serveTurns handle turns).run (caught handle connection ready).2 =
      (.ok served, last)) :
    (serveTurns handle (turn :: turns)).run state =
      (.ok ((caught handle connection ready).1 :: served), last) := by
  rw [serveTurns, bind_run_ok asked, if_neg Bool.false_ne_true, bind_run_ok polled]
  dsimp only
  rw [bind_run_ok (serveIsolated_run handle connection ready), bind_run_ok later]
  rfl

end Steps

/-! ### Events -/

def Event.polled? : Event → Option Poll
  | polled poll => some poll
  | _ => none

def Event.started? : Event → Option Connection
  | started connection => some connection
  | _ => none

def Event.ended? : Event → Option Ending
  | ended ending => some ending
  | _ => none

/-- What comes right after an event: nothing after a check that asks to stop, the start after a
poll for a connection, and the end after the start. -/
def Event.Precedes : Event → List Event → Prop
  | asked true, later => later = []
  | polled (.connection connection), later => ∃ rest, later = .started connection :: rest
  | started _, later => ∃ ending rest, later = .ended ending :: rest
  | asked false, _ | polled .nothing, _ | polled (.failed _), _ | ended _, _ => True

/-- The connections that are yielded before it is asked to stop. -/
def yielded (script : List Answers) : List Connection :=
  (before script).filterMap fun answers => answers.poll.connection?

theorem yielded_idle {poll : Poll} (unanswered : poll.connection? = none)
    (script : List Answers) : yielded (⟨false, poll⟩ :: script) = yielded script :=
  List.filterMap_cons_none unanswered

theorem yielded_serve (connection : Connection) (script : List Answers) :
    yielded (⟨false, .connection connection⟩ :: script) = connection :: yielded script := rfl

/-- Turns that do not stop are followed by those behind them. -/
theorem yielded_append {first : List Answers} (goes : ∀ answers ∈ first, answers.stopping = false)
    (script : List Answers) : yielded (first ++ script) = yielded first ++ yielded script := by
  have going : ∀ answers ∈ first, (!answers.stopping) = true := by simpa using goes
  have all : before first = first := List.takeWhile_eq_self_iff.mpr going
  rw [yielded, before, List.takeWhile_append_of_pos going, List.filterMap_append, yielded, all]
  rfl

/-- Turns in which every connection is served once, in order and one at a time, and which nothing
but a check that says so ends. -/
structure Supervised (script : List Answers) (served : List Served) (events : List Event) :
    Prop where
  polled : events.filterMap Event.polled? = (before script).map Answers.poll
  started : events.filterMap Event.started? = yielded script
  ended : events.filterMap Event.ended? = served.map Served.ending
  order : ∀ earlier event later, events = earlier ++ event :: later → event.Precedes later
  stopped : .asked true ∈ events ↔ ∃ answers ∈ script, answers.stopping = true

theorem order_cons {event : Event} {events : List Event} (first : event.Precedes events)
    (others : ∀ earlier event later, events = earlier ++ event :: later → event.Precedes later) :
    ∀ earlier other later, event :: events = earlier ++ other :: later → other.Precedes later := by
  intro earlier other later whole
  cases earlier with
  | nil =>
    obtain ⟨rfl, rfl⟩ := List.cons.inj whole
    exact first
  | cons _ earlier => exact others earlier other later (List.cons.inj whole).2

theorem Course.supervised {script : List Answers} {served : List Served} {events : List Event}
    (course : Course script served events) : Supervised script served events := by
  induction course with
  | done => exact ⟨rfl, rfl, rfl, by simp, by simp⟩
  | stop => exact ⟨rfl, rfl, rfl, order_cons rfl (by simp), by simp⟩
  | @idle poll script served events unanswered later ih =>
    have after : (Event.polled poll).Precedes events := by
      cases poll with
      | connection => cases unanswered
      | nothing => trivial
      | failed => trivial
    exact ⟨congrArg (poll :: ·) ih.polled,
      ih.started.trans (yielded_idle unanswered script).symm, ih.ended,
      order_cons trivial (order_cons after ih.order), by simpa using ih.stopped⟩
  | @serve connection first script served events later ih =>
    have ended : (Event.ended first.ending).Precedes events := trivial
    have started : (Event.started connection).Precedes (.ended first.ending :: events) :=
      ⟨_, _, rfl⟩
    have polled : (Event.polled (.connection connection)).Precedes
        (.started connection :: .ended first.ending :: events) := ⟨_, rfl⟩
    have order := order_cons polled (order_cons started (order_cons ended ih.order))
    exact ⟨congrArg (Poll.connection connection :: ·) ih.polled,
      congrArg (connection :: ·) ih.started, congrArg (first.ending :: ·) ih.ended,
      order_cons trivial order, by simpa using ih.stopped⟩

/-! ### Runs -/

section Runs

variable {handle : Connection → ExceptT Panic (StateM σ) Served} {state : σ} {events : List Event}

theorem recorded_stopping (answers : Answers) : (recorded answers).stopping.run (state, events) =
    (.ok answers.stopping, state, events ++ [.asked answers.stopping]) := rfl

theorem recorded_poll (answers : Answers) : (recorded answers).poll.run (state, events) =
    (.ok answers.poll, state, events ++ [.polled answers.poll]) := rfl

/-- A connection ends for the record as it does for the service. -/
theorem caught_recording (handle : Connection → ExceptT Panic (StateM σ) Served)
    (connection : Connection) (state : σ) (events : List Event) :
    caught (recording handle) connection (state, events) =
      ((caught handle connection state).1, (caught handle connection state).2,
        events ++ [.started connection] ++ [.ended (caught handle connection state).1.ending]) := by
  have started : (noting (pure ()) fun _ => [.started connection] :
      ExceptT Panic (StateM (σ × List Event)) Unit).run (state, events) =
        (.ok (), state, events ++ [.started connection]) := rfl
  rw [caught, recording, bind_run_ok started, caught]
  rcases run : (handle connection).run state with ⟨_ | _, _⟩ <;>
    simp only [noting, ExceptT.run_mk, run] <;> rfl

theorem mapM_cons_run (serve : Connection → StateM σ Served) (connection : Connection)
    (connections : List Connection) (state : σ) :
    (connection :: connections).mapM serve state =
      ((serve connection state).1 :: (connections.mapM serve (serve connection state).2).1,
        (connections.mapM serve (serve connection state).2).2) := by
  rw [List.mapM_cons]
  rfl

theorem mapM_append_run (serve : Connection → StateM σ Served) (first later : List Connection)
    (state : σ) :
    (first ++ later).mapM serve state =
      ((first.mapM serve state).1 ++ (later.mapM serve (first.mapM serve state).2).1,
        (later.mapM serve (first.mapM serve state).2).2) := by
  rw [List.mapM_append]
  rfl

/-- Turns serve the connections that they yield, from the first to the last, and take a course. -/
theorem serveTurns_course (handle : Connection → ExceptT Panic (StateM σ) Served)
    (script : List Answers) (state : σ) (events : List Event) :
    ∃ later, (serveTurns (recording handle) (script.map recorded)).run (state, events) =
        (.ok ((yielded script).mapM (caught handle) state).1,
          ((yielded script).mapM (caught handle) state).2, events ++ later) ∧
      Course script ((yielded script).mapM (caught handle) state).1 later := by
  induction script generalizing state events with
  | nil => exact ⟨[], by rw [List.append_nil]; rfl, .done⟩
  | cons answers script ih =>
    obtain ⟨stopping, poll⟩ := answers
    rw [List.map_cons]
    cases stopping with
    | true => exact ⟨[.asked true], serveTurns_stop (recorded_stopping _), .stop⟩
    | false =>
      cases answered : poll.connection? with
      | none =>
        obtain ⟨later, run, course⟩ := ih state (events ++ [.asked false] ++ [.polled poll])
        rw [serveTurns_idle (recorded_stopping _) (recorded_poll _) answered, run,
          yielded_idle answered]
        exact ⟨.asked false :: .polled poll :: later, by simp, .idle answered course⟩
      | some connection =>
        obtain rfl := Poll.eq_of_connection? answered
        let earlier := events ++ [.asked false] ++ [.polled (.connection connection)]
        obtain ⟨later, run, course⟩ := ih (caught handle connection state).2
          (earlier ++ [.started connection] ++ [.ended (caught handle connection state).1.ending])
        have ends := caught_recording handle connection state earlier
        have all := serveTurns_serve (recorded_stopping ⟨false, .connection connection⟩)
          (recorded_poll _) ((congrArg _ (congrArg Prod.snd ends)).trans run)
        rw [all, ends, yielded_serve, mapM_cons_run]
        exact ⟨.asked false :: .polled (.connection connection) :: .started connection ::
          .ended (caught handle connection state).1.ending :: later, by simp [earlier],
          .serve course⟩

end Runs

/-! ### Requests -/

def Answers.turn (answers : Answers) : Turn (ExceptT Panic (StateM σ)) where
  stopping := pure answers.stopping
  poll := pure answers.poll

/-- Serve in turns with the answers. -/
def play (handle : Connection → ExceptT Panic (StateM σ) Served) (script : List Answers) :
    ExceptT Panic (StateM σ) (List Served) :=
  serveTurns handle (script.map Answers.turn)

theorem play_eq (handle : Connection → ExceptT Panic (StateM σ) Served) (script : List Answers)
    (state : σ) :
    (play handle script).run state =
      (.ok ((yielded script).mapM (caught handle) state).1,
        ((yielded script).mapM (caught handle) state).2) := by
  induction script generalizing state with
  | nil => rfl
  | cons answers script ih =>
    obtain ⟨stopping, poll⟩ := answers
    cases stopping with
    | true => exact serveTurns_stop rfl
    | false =>
      cases answered : poll.connection? with
      | none =>
        rw [yielded_idle answered, ← ih]
        exact serveTurns_idle rfl rfl answered
      | some connection =>
        obtain rfl := Poll.eq_of_connection? answered
        rw [yielded_serve, mapM_cons_run]
        exact serveTurns_serve rfl rfl (ih _)

end Turn

/-- A connection that ends before anything is decoded: its request is rejected or its matched file
cannot be opened. -/
inductive Ending.Refused : Ending → Prop
  | rejected (error : Request.Error) : Refused (.rejected error)
  | unopened (path : String) (error : IoError) : Refused (.failed (.decode (.openInput path error)))

/-- A refused connection changes no file. -/
theorem Connection.files_of_refused {model : Model} {connection : Connection} {files : Files}
    (refused : (connection.serve Engine.onFiles model files).ending.Refused) :
    (connection.serve Engine.onFiles model files).files = files := by
  obtain ⟨course, taken⟩ := exists_taken model connection files
  have outcome := taken.outcome
  cases course with
  | unread error =>
    have served : connection.serve Engine.onFiles model files = _ := outcome Engine.onFiles
    rw [served]
  | rejected error => exact (outcome Engine.onFiles).files
  | undecoded failure after =>
    obtain ⟨-, request, -, runs⟩ := taken
    have served : connection.serve Engine.onFiles model files = ⟨_, _, after⟩ := outcome
    rw [served] at refused ⊢
    cases refused with
    | unopened path error =>
      have untouched := (Engine.run_kept model request files).2 path error
      rw [runs] at untouched
      exact untouched rfl
  | decoded summary after =>
    have answered : Answered connection "Done" (.completed summary) after
      (connection.serve Engine.onFiles model files) := outcome
    cases sends : connection.writeError with
    | none =>
      rw [(answered.sent sends).1] at refused
      cases refused
    | some error =>
      rw [answered.failed error sends] at refused
      cases refused

/-- Serve a connection on the files that the one before has left. -/
def Connection.serving (engine : Engine) (model : Model) (connection : Connection) :
    StateM Files Served := fun files =>
  let served := connection.serve engine model files
  (served, served.files)

theorem Connection.serving_of_refused {model : Model} {connection : Connection} {files : Files}
    (refused : (connection.serve Engine.onFiles model files).ending.Refused) :
    connection.serving Engine.onFiles model files =
      (connection.serve Engine.onFiles model files, files) :=
  Prod.ext rfl (files_of_refused refused)

/-- A connection is served to its end even where the engine crashes. -/
theorem Turn.caught_handle (engine : Engine) (model : Model) :
    caught (Connection.handle engine model) = Connection.serving engine model := by
  funext connection files
  rw [caught, Connection.handle, ExceptT.run_mk, Connection.serving]
  generalize connection.serve engine model files = served
  obtain ⟨ending, _, _⟩ := served
  cases ending <;> rfl

theorem Turn.play_handle (engine : Engine) (model : Model) (script : List Answers)
    (files : Files) :
    (play (Connection.handle engine model) script).run files =
      (.ok ((yielded script).mapM (Connection.serving engine model) files).1,
        ((yielded script).mapM (Connection.serving engine model) files).2) := by
  rw [play_eq, caught_handle]

/-- The service is never disturbed by what becomes of a connection. Whatever its turns yield and
however handlers end, each connection is served once, in order and one at a time, until a check
asks to stop. Requests are served on the files that those before have left, also where the engine
crashes, and after a connection that is refused everything goes on as if it had not come. -/
theorem Turn.serveTurns_isolated :
    (∀ {σ : Type} (handle : Connection → ExceptT Panic (StateM σ) Served)
      (script : List Answers) (state : σ),
      ∃ served last events,
        (serveTurns (recording handle) (script.map recorded)).run (state, []) =
          (.ok served, last, events) ∧
        (yielded script).mapM (caught handle) state = (served, last) ∧
        Course script served events ∧ Supervised script served events) ∧
    (∀ (engine : Engine) (model : Model) (script : List Answers) (files : Files),
      ∃ served last,
        (play (Connection.handle engine model) script).run files = (.ok served, last) ∧
        (yielded script).mapM (Connection.serving engine model) files = (served, last)) ∧
    ∀ (model : Model) (first script : List Answers) (connection : Connection)
      (files between : Files) (earlier : List Served),
      (∀ answers ∈ first, answers.stopping = false) →
      (play (Connection.handle Engine.onFiles model) first).run files = (.ok earlier, between) →
      (connection.serve Engine.onFiles model between).ending.Refused →
      ∃ later last,
        (play (Connection.handle Engine.onFiles model)
          (first ++ ⟨false, .connection connection⟩ :: script)).run files =
            (.ok (earlier ++ connection.serve Engine.onFiles model between :: later), last) ∧
        (play (Connection.handle Engine.onFiles model) (first ++ script)).run files =
          (.ok (earlier ++ later), last) := by
  refine ⟨?every, fun engine model script files => ?requests, ?refused⟩
  case every =>
    intro σ handle script state
    obtain ⟨events, run, course⟩ := serveTurns_course handle script state []
    exact ⟨_, _, events, run, rfl, course, course.supervised⟩
  case requests => exact ⟨_, _, play_handle engine model script files, rfl⟩
  case refused =>
    intro model first script connection files between earlier goes run refused
    rw [play_handle, Prod.mk.injEq, Except.ok.injEq] at run
    obtain ⟨rfl, rfl⟩ := run
    have serving := Connection.serving_of_refused refused
    have alone := play_handle Engine.onFiles model (first ++ script) files
    rw [yielded_append goes, mapM_append_run] at alone
    have disturbed := play_handle Engine.onFiles model
      (first ++ ⟨false, .connection connection⟩ :: script) files
    rw [yielded_append goes, yielded_serve, mapM_append_run, mapM_cons_run, serving] at disturbed
    exact ⟨_, _, disturbed, alone⟩

/-- A request for a file that is not there, and then another. -/
theorem Turn.serveTurns_isolated_of_missing_file :
    ∃ (model : Model) (first script : List Answers) (connection : Connection)
      (files between : Files) (earlier later : List Served) (last : Files),
      (∀ answers ∈ first, answers.stopping = false) ∧
      (play (Connection.handle Engine.onFiles model) first).run files = (.ok earlier, between) ∧
      (connection.serve Engine.onFiles model between).ending.Refused ∧
      (play (Connection.handle Engine.onFiles model)
        (first ++ ⟨false, .connection connection⟩ :: script)).run files =
          (.ok (earlier ++ connection.serve Engine.onFiles model between :: later), last) ∧
      (play (Connection.handle Engine.onFiles model) (first ++ script)).run files =
        (.ok (earlier ++ later), last) := by
  let model : Model := ⟨3, .corpus (Model.Corpus.addLine ⟨.empty, 0, 0⟩ "a b".toList)⟩
  let body := Text.encode <| "score.lm=1\nscore.alignment=1\nscore.ngram=1\nscore.overlap=1\n" ++
    "output.one_best=f\ninput.matched_file=m\ninput.confidence=1 0.5\n"
  let files : Files := ⟨[], []⟩
  have shape : (Request.parse body).toOption.map Request.matchedFile = some "m" := by
    decide +kernel
  obtain ⟨request, accepted, matched⟩ := Request.exists_parse_eq_ok shape
  have missing : files.locate request.matchedFile = .error .notFound := by
    rw [matched]
    decide +kernel
  have runs : Engine.run model request files =
      (.error (.openInput request.matchedFile .notFound), files) := by
    rw [Engine.run, missing]
  have refused : (Connection.serve Engine.onFiles model { body } files).ending.Refused := by
    rw [Connection.serve_undecoded (.inr rfl : Connection.Arrives { body }) accepted runs]
    exact .unopened _ _
  obtain ⟨later, last, disturbed, undisturbed⟩ := serveTurns_isolated.2.2 model
    [⟨false, .nothing⟩] [⟨false, .connection { body := [] }⟩] { body } files files [] (by simp)
    rfl refused
  exact ⟨model, _, _, _, files, files, [], later, last, by simp, rfl, refused, disturbed,
    undisturbed⟩

end SystemCombination
