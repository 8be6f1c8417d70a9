import SystemCombination.Engine
import SystemCombination.Proofs.Files.Writer
import SystemCombination.Proofs.Pipeline.Oracle

/-! What a run leaves in the files. The outputs are opened at locations of their own or not at all;
as long as they are apart, each writer is alone with its file, and a completed run leaves there
what the decode wrote. -/

namespace SystemCombination.Engine

open Files Pipeline

/-- What the outputs have been written that were opened on a tree, the one-best output at one
location and the oracle, if there is one, at another. -/
structure Outputs.Written (base : Files) (first : Location) (second : Option Location)
    (outputs : Outputs) (oneBest oracle : List UInt8) : Prop where
  oneBest : outputs.oneBest.Holds outputs.files first oneBest
  oracle : ∀ location, second = some location → first ≠ location ∧
    ∃ writer, outputs.oracle = some writer ∧ writer.Holds outputs.files location oracle
  none : second = none → outputs.oracle = none
  agree : AgreeOff (first :: second.toList) base outputs.files

variable {base : Files} {first : Location} {second : Option Location} {outputs : Outputs}
  {oneBest oracle : List UInt8}

theorem Outputs.Written.afterOneBest (h : outputs.Written base first second oneBest oracle)
    {writer : Writer} {files : Files} {bytes : List UInt8} (holds : writer.Holds files first bytes)
    (agree : AgreeOff [first] outputs.files files) :
    Outputs.Written base first second { outputs with oneBest := writer, files } bytes oracle where
  oneBest := holds
  oracle location isSecond := by
    obtain ⟨apart, other, isOracle, theirs⟩ := h.oracle location isSecond
    exact ⟨apart, other, isOracle, theirs.elsewhere agree apart.symm⟩
  none := h.none
  agree := (h.agree.trans agree).mono (by simp)

theorem Outputs.Written.afterOracle {location : Location}
    (h : outputs.Written base first (some location) oneBest oracle) {writer : Writer}
    {files : Files} {bytes : List UInt8} (holds : writer.Holds files location bytes)
    (agree : AgreeOff [location] outputs.files files) :
    Outputs.Written base first (some location) { outputs with oracle := some writer, files }
      oneBest bytes where
  oneBest := h.oneBest.elsewhere agree (h.oracle location rfl).1
  oracle other isSecond := by
    obtain rfl := Option.some.inj isSecond
    exact ⟨(h.oracle location rfl).1, writer, rfl, holds⟩
  none isNone := nomatch isNone
  agree := (h.agree.trans agree).mono (by simp)

theorem oneBestStream_faithful (base : Files) (first : Location) (second : Option Location)
    (oracle : List UInt8) :
    Outputs.oneBestStream.Faithful fun outputs oneBest =>
      outputs.Written base first second oneBest oracle where
  write {outputs _} bytes written := by
    obtain ⟨writer, files, run, holds, agree⟩ := written.oneBest.write bytes
    exact ⟨{ outputs with oneBest := writer, files },
      by simp [Outputs.oneBestStream, ExceptT.mk, run], written.afterOneBest holds agree⟩
  flush {outputs _} written := by
    obtain ⟨writer, files, run, _, holds, agree⟩ := written.oneBest.flush
    exact ⟨{ outputs with oneBest := writer, files },
      by simp [Outputs.oneBestStream, ExceptT.mk, run], written.afterOneBest holds agree⟩

theorem oracleStream_faithful (base : Files) (first location : Location) (oneBest : List UInt8) :
    Outputs.oracleStream.Faithful fun outputs oracle =>
      outputs.Written base first (some location) oneBest oracle where
  write {outputs _} bytes written := by
    obtain ⟨_, own, isOracle, holds⟩ := written.oracle location rfl
    obtain ⟨writer, files, run, holds, agree⟩ := holds.write bytes
    exact ⟨{ outputs with oracle := some writer, files },
      by simp [Outputs.oracleStream, Outputs.onOracle, ExceptT.mk, isOracle, run],
      written.afterOracle holds agree⟩
  flush {outputs _} written := by
    obtain ⟨_, own, isOracle, holds⟩ := written.oracle location rfl
    obtain ⟨writer, files, run, _, holds, agree⟩ := holds.flush
    exact ⟨{ outputs with oracle := some writer, files },
      by simp [Outputs.oracleStream, Outputs.onOracle, ExceptT.mk, isOracle, run],
      written.afterOracle holds agree⟩

theorem partners_faithful (model : Model) (request : Request) (base : Files) (first : Location)
    (wants : request.wantsOracle = second.isSome) :
    (Pipeline.partners model request Outputs.oneBestStream Outputs.oracleStream).Faithful
      (nbestOf model request) (Outputs.Written base first second) where
  decode _ := rfl
  oneBest oracle :=
    Output.oneBestSink_takes request.oneBest (oneBestStream_faithful base first second oracle)
  oracle sink isOracle oneBest := by
    cases second with
    | none => simp [Pipeline.partners, wants] at isOracle
    | some location =>
      obtain rfl : Output.oracleSink request.oraclePath Outputs.oracleStream = sink := by
        simpa [Pipeline.partners, wants] using isOracle
      exact Output.oracleSink_takes _ (oracleStream_faithful base first location oneBest)

/-- What is pending is written when the outputs are closed. -/
theorem Outputs.Written.close (h : outputs.Written base first second oneBest oracle) :
    outputs.close.node? first = some (.file oneBest) ∧
      (∀ location, second = some location →
        outputs.close.node? location = some (.file oracle)) ∧
      AgreeOff (first :: second.toList) base outputs.close := by
  cases second with
  | none =>
    have closed : outputs.close = outputs.oneBest.close outputs.files := by
      rw [Outputs.close, h.none rfl]
    obtain ⟨stands, agree⟩ := h.oneBest.close
    rw [closed]
    refine ⟨stands, fun _ isNone => ?_, (h.agree.trans agree).mono (by simp)⟩
    cases isNone
  | some location =>
    obtain ⟨apart, writer, isOracle, holds⟩ := h.oracle location rfl
    have closed : outputs.close = outputs.oneBest.close (writer.close outputs.files) := by
      rw [Outputs.close, isOracle]
    obtain ⟨written, agree⟩ := holds.close
    obtain ⟨stands, agree'⟩ := (h.oneBest.elsewhere agree apart).close
    rw [closed]
    refine ⟨stands, fun other isSecond => ?_, ((h.agree.trans agree).trans agree').mono (by simp)⟩
    obtain rfl := Option.some.inj isSecond
    rw [agree'.node location (by simpa using apart.symm), written]

/-! ### Opening -/

/-- The locations that the paths of a request lead to before the run, where an oracle is wanted or
not. -/
structure Opens (request : Request) (files : Files) (input first : Location)
    (second : Option Location) : Prop where
  input : files.locate request.matchedFile = .ok input
  oneBest : files.createLocation request.oneBest = .ok first
  wants : request.wantsOracle = second.isSome
  oracle : ∀ location, second = some location →
    files.createLocation request.oraclePath = .ok location

theorem createOutput_eq_ok_iff {files after : Files} {path : String} {writer : Writer} :
    createOutput files path = .ok (writer, after) ↔
      ∃ location, files.createLocation path = .ok location ∧ writer = { location } ∧
        after = files.truncate location := by
  unfold createOutput
  cases created : files.create path with
  | error error =>
    have refused : ∀ location, files.createLocation path ≠ .ok location := by
      intro location isLocation
      rw [create_eq_ok_iff.mpr ⟨isLocation, rfl⟩] at created
      cases created
    exact iff_of_false (fun h => nomatch h) fun ⟨location, isLocation, _⟩ =>
      refused location isLocation
  | ok result =>
    obtain ⟨location, after'⟩ := result
    obtain ⟨isLocation, rfl⟩ := create_eq_ok_iff.mp created
    constructor
    · intro h
      obtain ⟨rfl, rfl⟩ := Prod.mk.inj (Except.ok.inj h)
      exact ⟨location, isLocation, rfl, rfl⟩
    · rintro ⟨other, isOther, rfl, rfl⟩
      rw [Except.ok.inj (isLocation.symm.trans isOther)]

theorem createOutput_eq_error_iff {files : Files} {path : String} {failure : DecodeFailure} :
    createOutput files path = .error failure ↔
      ∃ error, files.createLocation path = .error error ∧ failure = .createOutput path error := by
  unfold createOutput create
  cases files.createLocation path with
  | error error => simp [bind, Except.bind, eq_comm]
  | ok location => simp [bind, Except.bind, pure, Except.pure]

theorem sameDirectories_truncate {files : Files} {path : String} {location : Location}
    (created : files.createLocation path = .ok location) :
    SameDirectories files (files.truncate location) := by
  obtain ⟨root, free⟩ := createLocation_free created
  refine (agreeOff_truncate files location).sameDirectories (by simpa using free) ?_
  rw [List.forall_mem_singleton, node?_truncate_eq files root, if_pos rfl]
  match stands : files.node? location with
  | none | some (.file _) | some .sink | some .full => simp [emptied]
  | some .directory => exact absurd stands free

/-- The files of a request are opened one after the other. Opening stops with a failure, when some
outputs have been created. -/
inductive Stops (request : Request) (files : Files) : DecodeFailure → List Location → Prop
  | input {error : IoError} (unopened : files.locate request.matchedFile = .error error) :
      Stops request files (.openInput request.matchedFile error) []
  | oneBest {input : Location} {error : IoError}
      (located : files.locate request.matchedFile = .ok input)
      (uncreated : files.createLocation request.oneBest = .error error) :
      Stops request files (.createOutput request.oneBest error) []
  | oracle {input first : Location} {error : IoError}
      (located : files.locate request.matchedFile = .ok input)
      (created : files.createLocation request.oneBest = .ok first)
      (wants : request.wantsOracle = true)
      (uncreated : (files.truncate first).createLocation request.oraclePath = .error error) :
      Stops request files (.createOutput request.oraclePath error) [first]

/-- The files in which the outputs at the locations have been created. -/
abbrev creating (files : Files) (created : List Location) : Files :=
  created.foldl Files.truncate files

/-- Outputs that have been created and written nothing. -/
def Outputs.fresh (files : Files) (first : Location) (second : Option Location) : Outputs :=
  ⟨creating files (first :: second.toList), { location := first },
    second.map fun location => { location }⟩

/-- Opening stops, or every file is opened. -/
theorem stops_or_opens (request : Request) (files : Files) :
    (∃ failure created, Stops request files failure created) ∨
      ∃ input first second, Opens request files input first second := by
  cases located : files.locate request.matchedFile with
  | error error => exact .inl ⟨_, _, .input located⟩
  | ok input =>
    cases isFirst : files.createLocation request.oneBest with
    | error error => exact .inl ⟨_, _, .oneBest located isFirst⟩
    | ok first =>
      cases wants : request.wantsOracle with
      | false =>
        exact .inr ⟨input, first, none, located, isFirst, wants, fun _ isNone => nomatch isNone⟩
      | true =>
        cases isSecond : (files.truncate first).createLocation request.oraclePath with
        | error error => exact .inl ⟨_, _, .oracle located isFirst wants isSecond⟩
        | ok second =>
          have isSecond := (sameDirectories_truncate isFirst).createLocation_iff.mp isSecond
          exact .inr ⟨input, first, some second, located, isFirst, wants,
            fun _ same => Option.some.inj same ▸ isSecond⟩

theorem run_of_stops (model : Model) {request : Request} {files : Files} {failure : DecodeFailure}
    {created : List Location} (stops : Stops request files failure created) :
    run model request files = (.error failure, creating files created) := by
  cases stops with
  | input unopened => simp [run, unopened]
  | @oneBest _ error located uncreated =>
    have fails := createOutput_eq_error_iff.mpr ⟨error, uncreated, rfl⟩
    simp [run, located, fails]
  | @oracle _ first error located isFirst wants uncreated =>
    have created := createOutput_eq_ok_iff.mpr ⟨first, isFirst, rfl, rfl⟩
    have fails := createOutput_eq_error_iff.mpr ⟨error, uncreated, rfl⟩
    simp [run, located, created, wants, fails]

theorem run_fresh (model : Model) {request : Request} {files : Files} {input first : Location}
    {second : Option Location} (opens : Opens request files input first second) :
    run model request files = decodeInto model request input (.fresh files first second) := by
  have created := createOutput_eq_ok_iff.mpr ⟨first, opens.oneBest, rfl, rfl⟩
  cases second with
  | none => simp [run, opens.input, created, opens.wants, Outputs.fresh]
  | some location =>
    have isSecond := (sameDirectories_truncate opens.oneBest).createLocation_iff.mpr
      (opens.oracle location rfl)
    have created' := createOutput_eq_ok_iff.mpr ⟨location, isSecond, rfl, rfl⟩
    simp [run, opens.input, created, opens.wants, created', Outputs.fresh]

/-- Without its matched file or its one-best file a run leaves the files alone. -/
theorem run_of_unopened (model : Model) {request : Request} {files : Files} {error : IoError}
    (unopened : files.locate request.matchedFile = .error error ∨
      files.createLocation request.oneBest = .error error) :
    (run model request files).2 = files := by
  rcases stops_or_opens request files with ⟨failure, created, stops⟩ | ⟨_, _, _, opens⟩
  · rw [run_of_stops model stops]
    cases stops with
    | input | oneBest => rfl
    | oracle located isFirst => simp [located, isFirst] at unopened
  · simp [opens.input, opens.oneBest] at unopened

/-- A run that gets as far as decoding has opened its files. -/
theorem opens_of_run {model : Model} {request : Request} {files after : Files} {summary : Summary}
    (h : run model request files = (.ok summary, after)) :
    ∃ input first second, Opens request files input first second := by
  rcases stops_or_opens request files with ⟨_, _, stops⟩ | opens
  · rw [run_of_stops model stops] at h
    cases h
  · exact opens

theorem holds_created {files : Files} {path : String} {location : Location}
    (regular : files.Regular) (created : files.createLocation path = .ok location) :
    Writer.Holds { location } (files.truncate location) location [] := by
  obtain ⟨root, free⟩ := createLocation_free created
  exact ⟨rfl, root, [], node?_truncate root free (regular location), rfl, rfl⟩

/-- Fresh outputs that are apart have been written nothing. -/
theorem Opens.written_fresh {request : Request} {files : Files} {input first : Location}
    {second : Option Location} (opens : Opens request files input first second)
    (regular : files.Regular) (apart : ∀ location, second = some location → first ≠ location) :
    (Outputs.fresh files first second).Written files first second [] [] := by
  have holds := holds_created regular opens.oneBest
  have agree := agreeOff_truncate files first
  cases second with
  | none => exact ⟨holds, fun _ isNone => (nomatch isNone), fun _ => rfl, agree.mono (by simp)⟩
  | some location =>
    have isSecond := opens.oracle location rfl
    have apart := apart location rfl
    have agree' := agreeOff_truncate (files.truncate first) location
    have elsewhere : (files.truncate first).node? location = files.node? location :=
      agree.node location (by simpa using apart.symm)
    have ⟨root, free⟩ := createLocation_free isSecond
    have empty : ((files.truncate first).truncate location).node? location = some (.file []) :=
      node?_truncate root (elsewhere ▸ free) (elsewhere ▸ regular location)
    refine ⟨holds.elsewhere agree' apart, fun other same => ?_, fun isNone => (nomatch isNone),
      (agree.trans agree').mono (by simp)⟩
    obtain rfl := Option.some.inj same
    exact ⟨apart, _, rfl, rfl, root, [], empty, rfl, rfl⟩

/-- Once its files are opened, a run decodes into outputs that have been written nothing. -/
theorem run_of_opens (model : Model) {request : Request} {files : Files} {input first : Location}
    {second : Option Location} (regular : files.Regular)
    (opens : Opens request files input first second)
    (apart : ∀ location, second = some location → first ≠ location) :
    ∃ outputs, run model request files = decodeInto model request input outputs ∧
      outputs.Written files first second [] [] :=
  ⟨_, run_fresh model opens, opens.written_fresh regular apart⟩

/-! ### Decoding -/

section Decoding

variable {model : Model} {request : Request} {input : Location} {body : List UInt8}
  (accepted : Request.parse body = .ok request)
  (wants : request.wantsOracle = second.isSome)
  (unwritten : outputs.Written base first second [] [])

include accepted wants unwritten

theorem results_of_decodeInto {summary : Summary} {after : Files}
    (h : decodeInto model request input outputs = (.ok summary, after)) :
    ∃ units : List Segment, Reader.results request.input model.vocabulary request.matchedFile
      { lines := Text.linesOfSource (outputs.files.read input) } = units.map .ok := by
  have completes : (Pipeline.run model request Outputs.oneBestStream Outputs.oracleStream
      (Text.linesOfSource (outputs.files.read input)) outputs).1 = .ok summary :=
    congrArg Prod.fst h
  exact results_of_decodeAll (partners_faithful model request base first wants) accepted unwritten
    (Prod.ext completes rfl)

/-- When every segment is read, both outputs are complete in the files. -/
theorem decodeInto_of_results {units : List Segment}
    (read : Reader.results request.input model.vocabulary request.matchedFile
      { lines := Text.linesOfSource (outputs.files.read input) } = units.map .ok) :
    ∃ after, decodeInto model request input outputs = (.ok ⟨units.length, units.length⟩, after) ∧
      after.node? first = some (.file (Partners.oneBestBytes (nbestOf model request) units)) ∧
      (∀ location, second = some location → after.node? location =
        some (.file (Partners.oracleBytes true (nbestOf model request) units))) ∧
      AgreeOff (first :: second.toList) base after := by
  have faithful := partners_faithful model request base first wants
  have decoded := (holds_of_results accepted read).1
  obtain ⟨last, run, written⟩ := faithful.decodeAll decoded unwritten
  rw [← map_ask, ← read, ← segments_eq request.matchedFile] at run
  have completes : decodeInto model request input outputs =
      (.ok ⟨units.length, units.length⟩, last.close) := by
    rw [decodeInto, Pipeline.run, run]
  obtain ⟨stands, stands', agree⟩ := written.close
  refine ⟨last.close, completes, stands, fun location isSecond => ?_, agree⟩
  have isOracle : (Pipeline.partners model request Outputs.oneBestStream
      Outputs.oracleStream).oracle.isSome = true := by
    simp [Pipeline.partners, wants, isSecond]
  rw [stands' location isSecond, isOracle]

end Decoding

/-- A matched file that the one-best output is created in is empty before it is read. -/
theorem run_of_same_file (model : Model) {body : List UInt8} {request : Request}
    (accepted : Request.parse body = .ok request) {files : Files} {input : Location}
    (regular : files.Regular) (opens : Opens request files input input none) :
    ∃ after, run model request files = (.ok ⟨0, 0⟩, after) ∧
      after.node? input = some (.file []) ∧ SameDirectories files after := by
  obtain ⟨outputs, runs, unwritten⟩ :=
    run_of_opens model regular opens fun _ isNone => nomatch isNone
  obtain ⟨content, stands, _, nothing⟩ := unwritten.oneBest.content
  obtain rfl := (List.append_eq_nil_iff.mp nothing).1
  have read : Reader.results request.input model.vocabulary request.matchedFile
      { lines := Text.linesOfSource (outputs.files.read input) } =
        ([] : List Segment).map .ok := by
    rw [Files.read, stands, Reader.results_eq]
    have empty : Text.linesOfSource (.ok []) = [] := rfl
    rw [empty, Reader.next_end]
    rfl
  obtain ⟨after, completes, written, _, agree⟩ :=
    decodeInto_of_results accepted opens.wants unwritten read
  refine ⟨after, runs.trans completes, written, agree.sameDirectories ?_ ?_⟩
  · simpa using (createLocation_free opens.oneBest).2
  · simp [written]

end SystemCombination.Engine
