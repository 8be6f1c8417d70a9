import SystemCombination.Connection
import SystemCombination.Proofs.Request.Message

/-! The courses that the service of a connection can take. There are four, each with a condition on
what arrives and on what the engine makes of it, and every connection meets exactly one of the
conditions. The verdict on a request is that on the whole body, though a body past the limit is
never read to its end. -/

namespace SystemCombination.Connection

open Text Request

inductive Course
  /-- The stream fails before the body is read. -/
  | unread (error : IoError)
  | rejected (error : Request.Error)
  /-- The engine fails, with the files it leaves. -/
  | undecoded (failure : DecodeFailure) (after : Files)
  | decoded (summary : Summary) (after : Files)

/-- As much of the body arrives as is read, or the end of the stream. -/
def Arrives (connection : Connection) : Prop :=
  sizeLimit < connection.body.length ∨ connection.readError = none

/-- The whole body is accepted, and the engine runs the request with the given result. -/
def Runs (model : Model) (connection : Connection) (files : Files)
    (result : Except DecodeFailure Summary × Files) : Prop :=
  ∃ request, Request.parse connection.body = .ok request ∧ Engine.run model request files = result

/-- What has to be so for the service to take a course. -/
def Course.Taken (model : Model) (connection : Connection) (files : Files) : Course → Prop
  | unread error => connection.body.length ≤ sizeLimit ∧ connection.readError = some error
  | rejected error => connection.Arrives ∧ Request.parse connection.body = .error error
  | undecoded failure after =>
    connection.Arrives ∧ connection.Runs model files (.error failure, after)
  | decoded summary after => connection.Arrives ∧ connection.Runs model files (.ok summary, after)

/-- The line is sent and the service ends as given, or sending fails. -/
structure Answered (connection : Connection) (line : String) (ending : Ending) (files : Files)
    (served : Served) : Prop where
  files : served.files = files
  sent : connection.writeError = none → served.ending = ending ∧
    served.sent = encode (line ++ "\n") ∧ served.sent.count 10 = 1 ∧ served.sent.getLast? = some 10
  failed : ∀ error, connection.writeError = some error → served.ending = .failed (.io error)

/-- What the service comes to on a course, with each engine. Where the engine is not run, it comes
to the same with all of them. -/
def Course.Outcome (connection : Connection) (files : Files) (serve : Engine → Served) :
    Course → Prop
  | unread error => ∀ engine, serve engine = ⟨.failed (.io error), [], files⟩
  | rejected error => ∀ engine,
      Answered connection ("error: " ++ error.message) (.rejected error) files (serve engine)
  | undecoded failure after => serve Engine.onFiles = ⟨.failed (.decode failure), [], after⟩
  | decoded summary after =>
      Answered connection "Done" (.completed summary) after (serve Engine.onFiles)

/-! ### Reading -/

/-- What is read of a body past the limit is rejected as the whole body is. -/
theorem parse_take {body : List UInt8} (large : sizeLimit < body.length) :
    Request.parse (body.take (sizeLimit + 1)) = Request.parse body := by
  have large' : sizeLimit < (body.take (sizeLimit + 1)).length := by
    rw [List.length_take]
    omega
  rw [Request.parse, Request.parse, if_pos large, if_pos large']

theorem received_of_arrives {connection : Connection} (h : connection.Arrives) :
    ∃ body, connection.received = .ok body ∧
      Request.parse body = Request.parse connection.body := by
  unfold received
  split
  · next large => exact ⟨_, rfl, parse_take large⟩
  · next small =>
    rw [h.resolve_left small]
    exact ⟨_, rfl, rfl⟩

theorem received_of_unread {connection : Connection} {error : IoError}
    (small : connection.body.length ≤ sizeLimit) (fails : connection.readError = some error) :
    connection.received = .error error := by
  simp only [received, if_neg (Nat.not_lt.mpr small), fails]

/-! ### Answering -/

/-- A single line that is answered is one line on the wire. -/
theorem answered_answer (connection : Connection) {line : String} (single : SingleLine line)
    (ending : Ending) (files : Files) :
    Answered connection line ending files (connection.answer line ending files) := by
  have fresh : 10 ∉ encode line := fun found => single (newline_mem_encode.mp found)
  cases fails : connection.writeError with
  | none =>
    simp only [answer, fails]
    refine ⟨rfl, fun _ => ⟨rfl, rfl, ?_, ?_⟩, fun error h => nomatch fails.symm.trans h⟩
    · rw [encode_append, encode_newline, List.count_append, List.count_eq_zero.mpr fresh]
      rfl
    · rw [encode_append, encode_newline, List.getLast?_concat]
  | some error =>
    simp only [answer, fails]
    refine ⟨rfl, fun h => (nomatch fails.symm.trans h), fun other h => ?_⟩
    rw [Option.some.inj (fails.symm.trans h)]

/-! ### Serving -/

theorem serve_unread {connection : Connection} {error : IoError}
    (small : connection.body.length ≤ sizeLimit) (fails : connection.readError = some error)
    (engine : Engine) (model : Model) (files : Files) :
    serve engine model connection files = ⟨.failed (.io error), [], files⟩ := by
  simp only [serve, received_of_unread small fails]

theorem serve_rejected {connection : Connection} {error : Request.Error}
    (arrives : connection.Arrives) (rejects : Request.parse connection.body = .error error)
    (engine : Engine) (model : Model) (files : Files) :
    serve engine model connection files =
      connection.answer (rejectionLine error) (.rejected error) files := by
  obtain ⟨body, received, same⟩ := received_of_arrives arrives
  simp only [serve, received, same, rejects]

theorem serve_undecoded {model : Model} {connection : Connection} {files after : Files}
    {request : Request} {failure : DecodeFailure} (arrives : connection.Arrives)
    (accepts : Request.parse connection.body = .ok request)
    (runs : Engine.run model request files = (.error failure, after)) :
    serve Engine.onFiles model connection files = ⟨.failed (.decode failure), [], after⟩ := by
  obtain ⟨body, received, same⟩ := received_of_arrives arrives
  simp only [serve, received, same, accepts, Engine.onFiles, runs]

theorem serve_decoded {model : Model} {connection : Connection} {files after : Files}
    {request : Request} {summary : Summary} (arrives : connection.Arrives)
    (accepts : Request.parse connection.body = .ok request)
    (runs : Engine.run model request files = (.ok summary, after)) :
    serve Engine.onFiles model connection files =
      connection.answer doneLine (.completed summary) after := by
  obtain ⟨body, received, same⟩ := received_of_arrives arrives
  simp only [serve, received, same, accepts, Engine.onFiles, runs]

/-! ### The courses -/

theorem exists_taken (model : Model) (connection : Connection) (files : Files) :
    ∃ course : Course, course.Taken model connection files := by
  by_cases arrives : connection.Arrives
  · cases verdict : Request.parse connection.body with
    | error error => exact ⟨.rejected error, arrives, verdict⟩
    | ok request =>
      match runs : Engine.run model request files with
      | (.error failure, after) =>
        exact ⟨.undecoded failure after, arrives, request, verdict, runs⟩
      | (.ok summary, after) => exact ⟨.decoded summary after, arrives, request, verdict, runs⟩
  · obtain ⟨small, fails⟩ := not_or.mp arrives
    obtain ⟨error, fails⟩ := Option.ne_none_iff_exists'.mp fails
    exact ⟨.unread error, Nat.not_lt.mp small, fails⟩

theorem Runs.run_eq {model : Model} {connection : Connection} {files : Files}
    {result : Except DecodeFailure Summary × Files} {request : Request}
    (h : connection.Runs model files result)
    (accepts : Request.parse connection.body = .ok request) :
    Engine.run model request files = result := by
  obtain ⟨request', accepts', runs⟩ := h
  rwa [Except.ok.inj (accepts.symm.trans accepts')]

theorem not_arrives_of_unread {connection : Connection} {error : IoError}
    (small : connection.body.length ≤ sizeLimit) (fails : connection.readError = some error) :
    ¬ connection.Arrives := by
  rintro (large | whole)
  · omega
  · cases fails.symm.trans whole

/-- The conditions of the courses exclude each other. -/
theorem Course.Taken.unique {model : Model} {connection : Connection} {files : Files}
    {course course' : Course} (h : course.Taken model connection files)
    (h' : course'.Taken model connection files) : course = course' := by
  cases course with
  | unread error =>
    have missing := not_arrives_of_unread h.1 h.2
    cases course' with
    | unread error' => rw [Option.some.inj (h.2.symm.trans h'.2)]
    | rejected | undecoded | decoded => exact absurd h'.1 missing
  | rejected error =>
    cases course' with
    | unread => exact absurd h.1 (not_arrives_of_unread h'.1 h'.2)
    | rejected error' => rw [Except.error.inj (h.2.symm.trans h'.2)]
    | undecoded | decoded =>
      obtain ⟨-, request, accepts, -⟩ := h'
      cases h.2.symm.trans accepts
  | undecoded failure after =>
    obtain ⟨arrives, request, accepts, runs⟩ := h
    cases course' with
    | unread => exact absurd arrives (not_arrives_of_unread h'.1 h'.2)
    | rejected => cases accepts.symm.trans h'.2
    | undecoded failure' after' =>
      have runs' := h'.2.run_eq accepts
      cases runs.symm.trans runs'
      rfl
    | decoded => cases runs.symm.trans (h'.2.run_eq accepts)
  | decoded summary after =>
    obtain ⟨arrives, request, accepts, runs⟩ := h
    cases course' with
    | unread => exact absurd arrives (not_arrives_of_unread h'.1 h'.2)
    | rejected => cases accepts.symm.trans h'.2
    | undecoded => cases runs.symm.trans (h'.2.run_eq accepts)
    | decoded summary' after' =>
      have runs' := h'.2.run_eq accepts
      cases runs.symm.trans runs'
      rfl

theorem Course.Taken.outcome {model : Model} {connection : Connection} {files : Files}
    {course : Course} (h : course.Taken model connection files) :
    course.Outcome connection files fun engine => serve engine model connection files := by
  cases course with
  | unread error => exact fun engine => serve_unread h.1 h.2 engine model files
  | rejected error =>
    obtain ⟨arrives, rejects⟩ := h
    have verdict := verdict_parse connection.body
    rw [rejects] at verdict
    intro engine
    show Answered _ _ _ _ (serve engine model connection files)
    rw [serve_rejected arrives rejects]
    exact answered_answer connection
      (SingleLine.append (by decide) verdict.singleLine_message) _ _
  | undecoded failure after =>
    obtain ⟨arrives, request, accepts, runs⟩ := h
    exact serve_undecoded arrives accepts runs
  | decoded summary after =>
    obtain ⟨arrives, request, accepts, runs⟩ := h
    show Answered _ _ _ _ (serve Engine.onFiles model connection files)
    rw [serve_decoded arrives accepts runs]
    exact answered_answer connection (by decide) _ _

/-- The service of a connection takes exactly one course, and comes to what that course says. -/
theorem serve_takes_one_course (model : Model) (connection : Connection) (files : Files) :
    (∃! course : Course, course.Taken model connection files) ∧
      ∃ course : Course, course.Taken model connection files ∧
        course.Outcome connection files fun engine => serve engine model connection files := by
  obtain ⟨course, taken⟩ := exists_taken model connection files
  exact ⟨⟨course, taken, fun other taken' => taken'.unique taken⟩, course, taken, taken.outcome⟩

end SystemCombination.Connection
