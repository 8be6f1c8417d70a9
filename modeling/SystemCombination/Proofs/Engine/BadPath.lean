import SystemCombination.Proofs.Engine.Frame

/-! Runs with a path that is no good. Such a run fails, but opening the matched file first does not
spare the outputs: a directory is opened like a file and refused only when it is read, and the
oracle is created behind the one-best file. What has been created by then is empty. -/

namespace SystemCombination

open Files

/-- A matched file that cannot be read stops the decode before anything is written. -/
theorem Pipeline.run_unread {σ : Type} (model : Model) (request : Request)
    (oneBest oracle : Stream σ) (error : IoError) (state : σ) :
    run model request oneBest oracle (Text.linesOfSource (.error error)) state =
      (.error (.read request.matchedFile error), state) := by
  rw [run, segments_eq request.matchedFile, Reader.results_unread]
  exact Partners.decodeFrom_throw ..

namespace Engine

variable {request : Request} {files : Files}

theorem node?_creating {created : List Location} (root : [] ∉ created) (files : Files)
    (location : Location) : (creating files created).node? location =
      if location ∈ created then emptied (files.node? location) else files.node? location := by
  induction created generalizing files with
  | nil => simp
  | cons first created ih =>
    rw [List.mem_cons, not_or] at root
    rw [creating, List.foldl_cons, ih root.2, node?_truncate_eq files (Ne.symm root.1)]
    by_cases isFirst : location = first
    · by_cases later : location ∈ created <;> simp [isFirst]
    · simp [isFirst]

theorem close_fresh (files : Files) (first : Location) (second : Option Location) :
    (Outputs.fresh files first second).close = creating files (first :: second.toList) := by
  cases second <;> rfl

/-- The matched file is not there or is a directory, or an output cannot be created. -/
inductive BadPath (request : Request) (files : Files) : Prop
  | missing {error : IoError} (unopened : files.locate request.matchedFile = .error error)
  | directory {input : Location} (located : files.locate request.matchedFile = .ok input)
      (isDirectory : files.node? input = some .directory)
  | oneBest {error : IoError} (uncreated : files.createLocation request.oneBest = .error error)
  | oracle {error : IoError} (wants : request.wantsOracle = true)
      (uncreated : files.createLocation request.oraclePath = .error error)

/-- What a run with a bad path fails with, and the outputs that it has created by then. -/
inductive Fails (request : Request) (files : Files) : DecodeFailure → List Location → Prop
  | opening {failure : DecodeFailure} {created : List Location}
      (stops : Stops request files failure created) : Fails request files failure created
  | reading {input first : Location} {second : Option Location}
      (opens : Opens request files input first second)
      (isDirectory : files.node? input = some .directory) :
      Fails request files (.read request.matchedFile .isADirectory) (first :: second.toList)

theorem BadPath.fails (bad : BadPath request files) :
    ∃ failure created, Fails request files failure created := by
  rcases stops_or_opens request files with ⟨failure, created, stops⟩ | ⟨input, first, second, opens⟩
  · exact ⟨failure, created, .opening stops⟩
  · cases bad with
    | missing unopened => cases opens.input.symm.trans unopened
    | directory located isDirectory =>
      obtain rfl := Except.ok.inj (located.symm.trans opens.input)
      exact ⟨_, _, .reading opens isDirectory⟩
    | oneBest uncreated => cases opens.oneBest.symm.trans uncreated
    | oracle wants uncreated =>
      obtain ⟨location, isSecond⟩ := Option.isSome_iff_exists.mp (opens.wants.symm.trans wants)
      cases (opens.oracle location isSecond).symm.trans uncreated

theorem Fails.isOutput {failure : DecodeFailure} {created : List Location}
    (fails : Fails request files failure created) :
    ∀ location ∈ created, IsOutput request files location := by
  cases fails with
  | opening stops => exact stops.isOutput
  | reading opens => exact opens.isOutput

theorem Fails.run_eq (model : Model) {failure : DecodeFailure} {created : List Location}
    (fails : Fails request files failure created) :
    run model request files = (.error failure, creating files created) := by
  cases fails with
  | opening stops => exact run_of_stops model stops
  | @reading input first second opens isDirectory =>
    -- Creating files leaves every directory in its place, the matched one too.
    have kept := (keptOff_creating opens.isOutput).directories
    have unread : (Outputs.fresh files first second).files.read input = .error .isADirectory := by
      show (creating files (first :: second.toList)).read input = _
      rw [Files.read, (kept.directory input).mpr isDirectory]
    rw [run_fresh model opens, decodeInto, unread, Pipeline.run_unread]
    exact Prod.ext rfl (close_fresh files first second)

theorem root_not_isOutput : ¬IsOutput request files [] := by
  rintro (created | ⟨_, created⟩) <;> exact (createLocation_free created).1 rfl

theorem Fails.node?_run (model : Model) {failure : DecodeFailure} {created : List Location}
    (fails : Fails request files failure created) (location : Location) :
    (run model request files).2.node? location =
      if location ∈ created then emptied (files.node? location) else files.node? location := by
  rw [fails.run_eq model]
  exact node?_creating (fun root => root_not_isOutput (fails.isOutput [] root)) files location

/-- A run with a bad path fails. It leaves the files alone if the matched file is not there or the
one-best file cannot be created; otherwise the outputs that it has created by then are empty. -/
theorem run_of_badPath (model : Model) (bad : BadPath request files) :
    (∃ failure created, Fails request files failure created ∧
      (run model request files).1 = .error failure ∧
      ∀ location, (run model request files).2.node? location =
        if location ∈ created then emptied (files.node? location) else files.node? location) ∧
    ∀ error, files.locate request.matchedFile = .error error ∨
        files.createLocation request.oneBest = .error error →
      (run model request files).2 = files := by
  obtain ⟨failure, created, fails⟩ := bad.fails
  have failed := fails.run_eq model
  exact ⟨⟨failure, created, fails, by rw [failed], fails.node?_run model⟩,
    fun _ unopened => run_of_unopened model unopened⟩

/-- The run fails, and every file has its earlier content. -/
def Spares (model : Model) (request : Request) (files : Files) : Prop :=
  (∃ failure, (run model request files).1 = .error failure) ∧
    ∀ location content, files.node? location = some (.file content) →
      (run model request files).2.node? location = some (.file content)

theorem Fails.not_spares (model : Model) {failure : DecodeFailure} {created : List Location}
    (fails : Fails request files failure created) {location : Location} {content : List UInt8}
    (isCreated : location ∈ created) (held : files.node? location = some (.file content))
    (nonempty : content ≠ []) : ¬Spares model request files := by
  rintro ⟨-, keeps⟩
  have stands := keeps location content held
  rw [fails.node?_run model, if_pos isCreated, held] at stands
  exact nonempty (by simpa [emptied, eq_comm] using stands)

/-- A directory as the matched file. -/
theorem run_of_badPath_of_directory :
    ∃ (model : Model) (body : List UInt8) (files : Files) (request : Request),
      Request.parse body = .ok request ∧ BadPath request files ∧
      ∃ failure created, Fails request files failure created ∧
        (run model request files).1 = .error failure ∧
        ∀ location, (run model request files).2.node? location =
          if location ∈ created then emptied (files.node? location)
          else files.node? location := by
  let model : Model := ⟨3, .corpus (Model.Corpus.addLine ⟨.empty, 0, 0⟩ "a b".toList)⟩
  let body := Text.encode <| "score.lm=1\nscore.alignment=1\nscore.ngram=1\nscore.overlap=1\n" ++
    "output.one_best=f\ninput.matched_file=d\ninput.confidence=1\n"
  let files : Files := ⟨[(["d"], .directory), (["f"], .file (Text.encode "earlier\n"))], []⟩
  have shape : (Request.parse body).toOption.map Request.matchedFile = some "d" := by
    decide +kernel
  obtain ⟨request, accepted, matched⟩ := Request.exists_parse_eq_ok shape
  have isInput : files.locate request.matchedFile = .ok ["d"] := by
    rw [matched]
    decide +kernel
  have bad : BadPath request files := .directory isInput (by decide +kernel)
  exact ⟨model, body, files, request, accepted, bad, (run_of_badPath model bad).1⟩

/-- Earlier output is lost to a matched file that is a directory, and to an oracle that cannot be
created. -/
theorem not_spares_of_badPath :
    (¬∀ (model : Model) (body : List UInt8) (request : Request) (files : Files) (input : Location),
      Request.parse body = .ok request → files.locate request.matchedFile = .ok input →
      files.node? input = some .directory → Spares model request files) ∧
    ¬∀ (model : Model) (body : List UInt8) (request : Request) (files : Files) (error : IoError),
      Request.parse body = .ok request → request.wantsOracle = true →
      files.createLocation request.oraclePath = .error error → Spares model request files := by
  let model : Model := ⟨3, .corpus (Model.Corpus.addLine ⟨.empty, 0, 0⟩ "a b".toList)⟩
  let body (input oracle : String) := Text.encode <| "score.lm=1\nscore.alignment=1\n" ++
    "score.ngram=1\nscore.overlap=1\noutput.one_best=f\noutput.oracle_prefix=" ++ oracle ++
    "\ninput.matched_file=" ++ input ++ "\ninput.confidence=1\n"
  let files : Files := ⟨[(["d"], .directory), (["m"], .file (Text.encode "a\n")),
    (["f"], .file (Text.encode "earlier\n"))], []⟩
  have held : files.node? ["f"] = some (.file (Text.encode "earlier\n")) := by decide +kernel
  have nonempty : Text.encode "earlier\n" ≠ [] := by decide +kernel
  constructor
  · have shape : (Request.parse (body "d" "")).toOption.map (fun request => (request.matchedFile,
        request.oneBest, request.wantsOracle)) = some ("d", "f", false) := by
      decide +kernel
    obtain ⟨request, accepted, view⟩ := Request.exists_parse_eq_ok shape
    obtain ⟨matched, oneBest, wants⟩ : request.matchedFile = "d" ∧ request.oneBest = "f" ∧
        request.wantsOracle = false := by simpa using view
    have isInput : files.locate request.matchedFile = .ok ["d"] := by
      rw [matched]
      decide +kernel
    have isFirst : files.createLocation request.oneBest = .ok ["f"] := by
      rw [oneBest]
      decide +kernel
    have opens : Opens request files ["d"] ["f"] none :=
      ⟨isInput, isFirst, wants, fun _ isNone => nomatch isNone⟩
    have isDirectory : files.node? ["d"] = some .directory := by decide +kernel
    have lost := (Fails.reading opens isDirectory).not_spares model (by simp) held nonempty
    exact fun spared => lost (spared model _ request files ["d"] accepted isInput isDirectory)
  · have shape : (Request.parse (body "m" "absent/run")).toOption.map (fun request =>
        (request.matchedFile, request.oneBest, request.oraclePath, request.wantsOracle)) =
          some ("m", "f", "absent/run.oracle", true) := by
      decide +kernel
    obtain ⟨request, accepted, view⟩ := Request.exists_parse_eq_ok shape
    obtain ⟨matched, oneBest, oracle, wants⟩ : request.matchedFile = "m" ∧
        request.oneBest = "f" ∧ request.oraclePath = "absent/run.oracle" ∧
        request.wantsOracle = true := by simpa using view
    have isInput : files.locate request.matchedFile = .ok ["m"] := by
      rw [matched]
      decide +kernel
    have isFirst : files.createLocation request.oneBest = .ok ["f"] := by
      rw [oneBest]
      decide +kernel
    have uncreated : files.createLocation request.oraclePath = .error .notFound := by
      rw [oracle]
      decide +kernel
    have uncreated' : (files.truncate ["f"]).createLocation request.oraclePath =
        .error .notFound := by
      rw [oracle]
      decide +kernel
    have stops := Stops.oracle isInput isFirst wants uncreated'
    have lost := (Fails.opening stops).not_spares model (by simp) held nonempty
    exact fun spared => lost (spared model _ request files .notFound accepted wants uncreated)

end Engine

end SystemCombination
