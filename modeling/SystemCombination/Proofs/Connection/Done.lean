import SystemCombination.Proofs.Connection.Course
import SystemCombination.Proofs.Engine.Run

/-! What the answer `Done` says of the files. The one-best file has a line for each paragraph that
the matched file had when the request arrived, and the oracle file a record for each hypothesis, as
long as no two of the paths lead to one file. A matched file that is the one-best file as well is
emptied first, and `Done` is answered for no paragraph at all. -/

namespace SystemCombination.Connection

open Text Request Files Pipeline

/-- What is promised about the files after a request whose matched file held the given bytes. -/
structure Delivers (model : Model) (request : Request) (input : List UInt8) (after : Files) :
    Prop where
  oneBest : ∃ pieces bytes, IsCut (linesOfBytes input) pieces ∧
    (∀ piece ∈ pieces, Fits request.input.confidences.length piece) ∧
    after.readPath request.oneBest = .ok bytes ∧
    Holds model request (paragraphs pieces) bytes
  oracle : request.wantsOracle = true → ∃ (units : List Segment) (bytes : List UInt8),
    Reader.results request.input model.vocabulary request.matchedFile
      { lines := linesOfBytes input } = units.map .ok ∧
    after.readPath request.oraclePath = .ok bytes ∧
    cells bytes = Record.table (Partners.records (nbestOf model request) units)

/-- No two of the paths of a request lead to the same file. -/
structure Apart (request : Request) (files : Files) : Prop where
  oneBest : ∀ location, files.createLocation request.oneBest = .ok location →
    files.locate request.matchedFile ≠ .ok location
  oracle : request.wantsOracle = true → ∀ location,
    files.createLocation request.oraclePath = .ok location →
      files.locate request.matchedFile ≠ .ok location ∧
      files.createLocation request.oneBest ≠ .ok location

/-! ### The answer -/

theorem sent_answer_isPrefix (connection : Connection) (line : String) (ending : Ending)
    (files : Files) :
    (connection.answer line ending files).sent <+: encode (line ++ "\n") := by
  unfold answer
  split
  · exact List.take_prefix _ _
  · exact List.prefix_rfl

/-- `Done` is answered after a run that completes, and never else. -/
theorem runs_of_done {model : Model} {connection : Connection} {files : Files}
    (done : (serve Engine.onFiles model connection files).sent = encode "Done\n") :
    ∃ request summary, Request.parse connection.body = .ok request ∧
      Engine.run model request files =
        (.ok summary, (serve Engine.onFiles model connection files).files) := by
  obtain ⟨course, taken⟩ := exists_taken model connection files
  cases course with
  | unread error =>
    rw [serve_unread taken.1 taken.2] at done
    cases done
  | rejected error =>
    obtain ⟨arrives, rejects⟩ := taken
    rw [serve_rejected arrives rejects] at done
    have begins := done ▸ sent_answer_isPrefix connection (rejectionLine error)
      (.rejected error) files
    rw [rejectionLine, encode_append, encode_append, List.append_assoc] at begins
    cases (List.cons_prefix_cons.mp begins).1
  | undecoded failure after =>
    obtain ⟨arrives, request, accepts, runs⟩ := taken
    rw [serve_undecoded arrives accepts runs] at done
    cases done
  | decoded summary after =>
    obtain ⟨arrives, request, accepts, runs⟩ := taken
    have isAfter : (serve Engine.onFiles model connection files).files = after := by
      rw [serve_decoded arrives accepts runs]
      exact (answered_answer connection (by decide) _ _).files
    exact ⟨request, summary, accepts, by rw [isAfter, runs]⟩

/-! ### The files -/

theorem results_of_unreadable (settings : InputSettings) (vocabulary : Vocabulary) (path : String)
    (error : IoError) (units : List Segment) :
    Reader.results settings vocabulary path { lines := linesOfSource (.error error) } ≠
      units.map .ok := by
  rw [Reader.results_unread]
  cases units with
  | nil => exact fun read => nomatch read
  | cons unit units => exact fun read => nomatch (List.cons.inj read).1

theorem delivers_of_run {model : Model} {body : List UInt8} {request : Request}
    (accepted : Request.parse body = .ok request) {files after : Files} (regular : files.Regular)
    (apart : Apart request files) {summary : Summary}
    (runs : Engine.run model request files = (.ok summary, after)) :
    ∃ input, files.readPath request.matchedFile = .ok input ∧
      Delivers model request input after := by
  obtain ⟨place, first, second, opens⟩ := Engine.opens_of_run runs
  have notFirst : place ≠ first := by
    rintro rfl
    exact apart.oneBest place opens.oneBest opens.input
  have wanted {location : Location} (isSecond : second = some location) :
      request.wantsOracle = true := by
    rw [opens.wants, isSecond]
    rfl
  have notSecond : ∀ location, second = some location → first ≠ location := by
    rintro location isSecond rfl
    exact (apart.oracle (wanted isSecond) first (opens.oracle first isSecond)).2 opens.oneBest
  have elsewhere : place ∉ first :: second.toList := by
    rw [List.mem_cons, Option.mem_toList, not_or]
    exact ⟨notFirst, fun isSecond => (apart.oracle (wanted isSecond) place
      (opens.oracle place isSecond)).1 opens.input⟩
  obtain ⟨outputs, starts, unwritten⟩ := Engine.run_of_opens model regular opens notSecond
  -- The outputs are elsewhere, so the matched file is read as it was.
  have unchanged : outputs.files.read place = files.read place := by
    rw [Files.read, Files.read, unwritten.agree.node place elsewhere]
  obtain ⟨units, read⟩ := Engine.results_of_decodeInto accepted opens.wants unwritten
    (starts.symm.trans runs)
  obtain ⟨after', completes, stands, stands', agree⟩ :=
    Engine.decodeInto_of_results accepted opens.wants unwritten read
  obtain rfl : after = after' :=
    congrArg Prod.snd (runs.symm.trans (starts.trans completes))
  rw [unchanged] at read
  cases held : files.read place with
  | error error =>
    rw [held] at read
    exact absurd read (results_of_unreadable _ _ _ _ _)
  | ok input =>
    rw [held] at read
    have same : SameDirectories files after := by
      apply agree.sameDirectories
      · intro location member
        rcases List.mem_cons.mp member with rfl | isSecond
        · exact (createLocation_free opens.oneBest).2
        · exact (createLocation_free (opens.oracle location (Option.mem_toList.mp isSecond))).2
      · intro location member
        rcases List.mem_cons.mp member with rfl | isSecond
        · simp [stands]
        · simp [stands' location (Option.mem_toList.mp isSecond)]
    obtain ⟨_, pieces, isCut, fit, holds⟩ := holds_of_results accepted read
    refine ⟨input, bind_eq_ok_iff.mpr ⟨place, opens.input, held⟩,
      ⟨pieces, _, isCut, fit, readPath_created opens.oneBest same stands, holds⟩, fun wants => ?_⟩
    obtain ⟨location, isSecond⟩ := Option.isSome_iff_exists.mp (opens.wants ▸ wants)
    exact ⟨units, _, read, readPath_created (opens.oracle location isSecond) same
      (stands' location isSecond), (agree_of_results accepted read).table⟩

/-- Where `Done` is answered, the outputs are those of the matched file as it stood, as long as the
paths lead to different files. -/
theorem serve_done {model : Model} {connection : Connection} {files : Files}
    (regular : files.Regular)
    (done : (serve Engine.onFiles model connection files).sent = encode "Done\n") :
    ∃ request, Request.parse connection.body = .ok request ∧
      (Apart request files → ∃ input, files.readPath request.matchedFile = .ok input ∧
        Delivers model request input (serve Engine.onFiles model connection files).files) := by
  obtain ⟨request, summary, accepts, runs⟩ := runs_of_done done
  exact ⟨request, accepts, fun apart => delivers_of_run accepts regular apart runs⟩

/-- Three files and two segments. -/
theorem serve_done_of_two_segments :
    ∃ (model : Model) (connection : Connection) (files : Files) (request : Request)
      (input : List UInt8), files.Regular ∧
      (serve Engine.onFiles model connection files).sent = encode "Done\n" ∧
      Request.parse connection.body = .ok request ∧ request.wantsOracle = true ∧
      Apart request files ∧ files.readPath request.matchedFile = .ok input ∧
      Delivers model request input (serve Engine.onFiles model connection files).files := by
  let model : Model := ⟨3, .corpus (Model.Corpus.addLine ⟨.empty, 0, 0⟩ "a b".toList)⟩
  let body := encode <| "score.lm=1\nscore.alignment=1\nscore.ngram=1\nscore.overlap=1\n" ++
    "output.one_best=f\noutput.oracle_prefix=o\ninput.matched_file=m\ninput.confidence=1 0.5\n"
  let files : Files := ⟨[(["m"], .file (encode "a  b\nc\n\nd\ne\n"))], []⟩
  have regular : files.Regular := regular_of_nodes (by simp [files])
  have shape : (Request.parse body).toOption.map (fun request => (request.matchedFile,
      request.oneBest, request.oraclePath, request.wantsOracle,
      request.input.confidences.length)) = some ("m", "f", "o.oracle", true, 2) := by
    decide +kernel
  cases accepts : Request.parse body with
  | error error =>
    rw [accepts] at shape
    cases shape
  | ok request =>
    rw [accepts] at shape
    obtain ⟨matched, oneBest, oracle, wants, two⟩ : request.matchedFile = "m" ∧
        request.oneBest = "f" ∧ request.oraclePath = "o.oracle" ∧ request.wantsOracle = true ∧
        request.input.confidences.length = 2 := by simpa [Except.toOption] using shape
    have isInput : files.locate request.matchedFile = .ok ["m"] := by
      rw [matched]
      decide +kernel
    have isFirst : files.createLocation request.oneBest = .ok ["f"] := by
      rw [oneBest]
      decide +kernel
    have isSecond : files.createLocation request.oraclePath = .ok ["o.oracle"] := by
      rw [oracle]
      decide +kernel
    have opens : Engine.Opens request files ["m"] ["f"] (some ["o.oracle"]) :=
      ⟨isInput, isFirst, wants, fun _ same => Option.some.inj same ▸ isSecond⟩
    have apart : Apart request files :=
      ⟨by simp [isInput, isFirst], by simp [isInput, isFirst, isSecond]⟩
    obtain ⟨outputs, starts, unwritten⟩ := Engine.run_of_opens model regular opens (by simp)
    have content : outputs.files.read ["m"] = .ok (encode "a  b\nc\n\nd\ne\n") := by
      rw [Files.read, unwritten.agree.node ["m"] (by simp)]
      rfl
    obtain ⟨first, second, read⟩ := results_of_two_paragraphs model.vocabulary
      request.matchedFile two
    obtain ⟨after, completes, _⟩ := Engine.decodeInto_of_results accepts opens.wants unwritten
      (by rw [content]; exact read)
    have served := serve_decoded (.inr rfl : Arrives { body }) accepts (starts.trans completes)
    have done : (serve Engine.onFiles model { body } files).sent = encode "Done\n" := by
      rw [served]
      rfl
    obtain ⟨request', accepts', delivers⟩ := serve_done regular done
    obtain rfl : request = request' := Except.ok.inj (accepts.symm.trans accepts')
    obtain ⟨input, isInput, delivers⟩ := delivers apart
    exact ⟨model, { body }, files, request, input, regular, done, accepts, wants, apart, isInput,
      delivers⟩

/-- A request whose matched file is its one-best file is answered `Done` for an empty file. -/
theorem not_delivers_of_same_file :
    ¬∀ (model : Model) (connection : Connection) (files : Files), files.Regular →
      (serve Engine.onFiles model connection files).sent = encode "Done\n" →
      ∃ request input, Request.parse connection.body = .ok request ∧
        files.readPath request.matchedFile = .ok input ∧
        Delivers model request input (serve Engine.onFiles model connection files).files := by
  intro always
  let model : Model := ⟨3, .corpus (Model.Corpus.addLine ⟨.empty, 0, 0⟩ "a b".toList)⟩
  let body := encode <| "score.lm=1\nscore.alignment=1\nscore.ngram=1\nscore.overlap=1\n" ++
    "output.one_best=f\ninput.matched_file=f\ninput.confidence=1\n"
  let files : Files := ⟨[(["f"], .file (encode "a  b\n"))], []⟩
  have regular : files.Regular := regular_of_nodes (by simp [files])
  have paths : (Request.parse body).toOption.map (fun request =>
      (request.matchedFile, request.oneBest, request.wantsOracle)) = some ("f", "f", false) := by
    decide +kernel
  cases accepts : Request.parse body with
  | error error =>
    rw [accepts] at paths
    cases paths
  | ok request =>
    rw [accepts] at paths
    obtain ⟨matched, oneBest, wants⟩ : request.matchedFile = "f" ∧ request.oneBest = "f" ∧
        request.wantsOracle = false := by simpa [Except.toOption] using paths
    have opens : Engine.Opens request files ["f"] ["f"] none :=
      ⟨by rw [matched]; decide +kernel, by rw [oneBest]; decide +kernel, wants,
        fun _ isNone => nomatch isNone⟩
    obtain ⟨after, runs, stands, same⟩ := Engine.run_of_same_file model accepts regular opens
    have served := serve_decoded (.inr rfl : Arrives { body }) accepts runs
    obtain ⟨request', input, accepts', isInput, delivers⟩ :=
      always model { body } files regular (by rw [served]; rfl)
    obtain rfl : request = request' := Except.ok.inj (accepts.symm.trans accepts')
    have isAfter : (serve Engine.onFiles model { body } files).files = after := by rw [served]; rfl
    obtain ⟨pieces, bytes, isCut, _, isBytes, texts, lines, best⟩ := delivers.oneBest
    rw [isAfter, readPath_created opens.oneBest same stands] at isBytes
    obtain rfl := Except.ok.inj isBytes
    have isContent : files.readPath "f" = .ok (encode "a  b\n") := by decide +kernel
    rw [matched, isContent] at isInput
    obtain rfl := Except.ok.inj isInput
    have whole : pieces = [.paragraph ["a  b"]] := by
      have isLines : linesOfBytes (encode "a  b\n") = [.ok "a  b"] := by decide +kernel
      rw [isCut.eq_cut, isLines, Piece.cut, if_neg (by decide)]
      rfl
    obtain rfl : texts = [] := by simpa using congrArg List.length lines
    have alike := best.length_eq
    rw [whole] at alike
    cases alike

end SystemCombination.Connection
