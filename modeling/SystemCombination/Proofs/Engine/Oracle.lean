import SystemCombination.Proofs.Engine.Frame

/-! The oracle is a by-product. A run that writes an oracle, to a file of its own that has room, is
in step with the run of the same request without one: it comes to the same and leaves the same
files but for the oracle. -/

namespace SystemCombination

open Files Attempt

/-- The same request, for which no oracle is wanted. -/
def Request.withoutOracle (request : Request) : Request := { request with oraclePrefix := "" }

namespace Engine

variable {oracle : Location} {action : Writer → Files → Except IoError Unit × Writer × Files}

/-- Outputs with an oracle in a file that has room beside outputs without one. But for that file
they are the same. -/
structure Beside (oracle : Location) (outputs plain : Outputs) : Prop where
  oneBest : plain.oneBest = outputs.oneBest
  apart : outputs.oneBest.location ≠ oracle
  files : AgreeOff [oracle] plain.files outputs.files
  room : outputs.files.node? oracle ≠ some .full
  writes : ∃ writer, outputs.oracle = some writer ∧ writer.location = oracle
  plain : plain.oracle = none

/-! ### Writers -/

/-- The same writer on files that are the same but for the oracle's. -/
structure Alike (oracle : Location) (state plain : Writer × Files) : Prop where
  writer : plain.1 = state.1
  apart : state.1.location ≠ oracle
  files : AgreeOff [oracle] plain.2 state.2
  room : state.2.node? oracle ≠ some .full

theorem respects_alike (oracle : Location) : Writer.Respects (Alike oracle) fun _ => True where
  pending h := by rw [h.writer]
  keep pending h := ⟨by rw [h.writer], h.apart, h.files, h.room⟩
  send bytes := by
    rintro ⟨_, files⟩ ⟨writer, plain⟩ ⟨rfl, apart, agree, room⟩
    obtain ⟨result, after, agree⟩ := Writer.send_of_agreeOff agree (by simpa using apart) bytes
    have stays : (writer.send files bytes).2.2.node? oracle = files.node? oracle :=
      (Writer.agreeOff_send bytes).node oracle (by simpa using apart.symm)
    exact ⟨result, ⟨after.symm, (Writer.location_send bytes).symm ▸ apart, agree, stays ▸ room⟩,
      fun _ _ => trivial⟩

/-- The writer of an oracle that has room, on files that others know but for the oracle. -/
structure Writes (oracle : Location) (plain : Files) (state : Writer × Files) : Prop where
  location : state.1.location = oracle
  files : AgreeOff [oracle] plain state.2
  room : state.2.node? oracle ≠ some .full

theorem respects_writes (oracle : Location) (plain : Files) :
    Writer.Respects (Keeping (Writes oracle plain)) fun _ => False := by
  refine .of_invariant (fun _ h => ⟨h.location, h.files, h.room⟩) fun {writer files} bytes h => ?_
  obtain ⟨rfl, agree, room⟩ := h
  obtain ⟨succeeds, room⟩ := Writer.send_of_room room bytes
  refine ⟨⟨Writer.location_send bytes, (agree.trans (Writer.agreeOff_send bytes)).mono (by simp),
    room⟩, fun error fails => ?_⟩
  cases succeeds.symm.trans fails

/-! ### Decoding -/

theorem inStep_beside_onOneBest
    (h : InStep (Alike oracle) (fun _ => True) (Writer.acting action) (Writer.acting action)) :
    InStep (Beside oracle) (fun _ => True) (Outputs.onOneBest action)
      (Outputs.onOneBest action) := by
  intro outputs plain beside
  obtain ⟨result, alike, -⟩ := h (outputs.oneBest, outputs.files) (plain.oneBest, plain.files)
    ⟨beside.oneBest, beside.apart, beside.files, beside.room⟩
  exact ⟨result, ⟨alike.writer, alike.apart, alike.files, alike.room, beside.writes, beside.plain⟩,
    fun _ _ => trivial⟩

theorem inStep_beside_onOracle
    (h : ∀ files, InStep (Keeping (Writes oracle files)) (fun _ => False) (Writer.acting action)
      (Writer.acting action)) :
    InStep (Beside oracle) (fun _ => False) (Outputs.onOracle action) (pure ()) := by
  intro outputs plain beside
  obtain ⟨writer, isOracle, location⟩ := beside.writes
  obtain ⟨-, ⟨-, writes⟩, fails⟩ := h plain.files (writer, outputs.files) _
    ⟨rfl, location, beside.files, beside.room⟩
  rw [Outputs.onOracle_eq isOracle]
  refine ⟨?_, ⟨beside.oneBest, beside.apart, writes.files, writes.room, ⟨_, rfl, writes.location⟩,
    beside.plain⟩, fails⟩
  cases result : (action writer outputs.files).1 with
  | ok => rfl
  | error error => exact (fails error result).elim

theorem inStep_beside (model : Model) {request : Request} (wants : request.wantsOracle = true) :
    (Pipeline.partners model request Outputs.oneBestStream Outputs.oracleStream).InStep
      (Beside oracle) DecodeFailure.Opened
      (Pipeline.partners model request.withoutOracle Outputs.oneBestStream
        Outputs.oracleStream) where
  decode segment := inStep_pure _
  oneBest := Output.inStep_oneBestSink request.oneBest
    ⟨fun bytes => inStep_beside_onOneBest ((respects_alike oracle).write bytes),
      inStep_beside_onOneBest (respects_alike oracle).flush⟩
    fun error _ => opened_write _ error
  oracle := by
    have plain : request.withoutOracle.wantsOracle = false := rfl
    simp only [Pipeline.partners, wants, plain, if_true]
    show Sink.InStep _ _ _ (Sink.ofOption none)
    rw [← Output.oracleSink_silent request.oraclePath]
    exact Output.inStep_oracleSink request.oraclePath
      ⟨fun bytes => inStep_beside_onOracle fun files => (respects_writes oracle files).write bytes,
        inStep_beside_onOracle fun files => (respects_writes oracle files).flush⟩
      fun _ never => never.elim

theorem Beside.close {outputs plain : Outputs} (h : Beside oracle outputs plain) :
    AgreeOff [oracle] plain.close outputs.close := by
  have nothing : (Outputs.onOracle Writer.flush plain).2 = plain := by
    simp only [Outputs.onOracle, ExceptT.mk, h.plain]
  obtain ⟨-, flushed, -⟩ :=
    inStep_beside_onOracle (fun files => (respects_writes oracle files).flush) outputs plain h
  obtain ⟨-, beside, -⟩ := inStep_beside_onOneBest (respects_alike oracle).flush _ _ flushed
  rw [Outputs.close_eq, Outputs.close_eq, nothing]
  exact beside.files

theorem decodeInto_beside (model : Model) {request : Request} (wants : request.wantsOracle = true)
    {input : Location} (isInput : input ≠ oracle) {outputs plain : Outputs}
    (beside : Beside oracle outputs plain) :
    (decodeInto model request input outputs).1 =
        (decodeInto model request.withoutOracle input plain).1 ∧
      AgreeOff [oracle] (decodeInto model request.withoutOracle input plain).2
        (decodeInto model request input outputs).2 := by
  have same : outputs.files.read input = plain.files.read input := by
    rw [Files.read, Files.read, beside.files.node input (by simpa using isInput)]
  obtain ⟨result, beside, -⟩ := (inStep_beside model wants).decodeFrom
    (Pipeline.inStep_segments model request (Text.linesOfSource (outputs.files.read input))) {}
    outputs plain beside
  rw [decodeInto, decodeInto, ← same]
  exact ⟨result, beside.close⟩

/-! ### Running -/

/-- The oracle can be created in a file that is neither read nor the one-best file, and that has
room. -/
structure OracleApart (request : Request) (files : Files) (oracle : Location) : Prop where
  wants : request.wantsOracle = true
  created : files.createLocation request.oraclePath = .ok oracle
  input : files.locate request.matchedFile ≠ .ok oracle
  oneBest : files.createLocation request.oneBest ≠ .ok oracle
  room : files.node? oracle ≠ some .full

theorem run_beside (model : Model) {request : Request} {files : Files}
    (apart : OracleApart request files oracle) :
    (run model request files).1 = (run model request.withoutOracle files).1 ∧
      AgreeOff [oracle] (run model request.withoutOracle files).2
        (run model request files).2 := by
  rcases stops_or_opens request files with ⟨failure, created, stops⟩ | ⟨input, first, second, opens⟩
  · -- The oracle can be created, so opening stops before it, and does so without it too.
    have stops' : Stops request.withoutOracle files failure created := by
      cases stops with
      | input unopened => exact .input unopened
      | oneBest located uncreated => exact .oneBest located uncreated
      | oracle _ isFirst _ uncreated =>
        have isSecond := (sameDirectories_truncate isFirst).createLocation_iff.mpr apart.created
        cases isSecond.symm.trans uncreated
    rw [run_of_stops model stops, run_of_stops model stops']
    exact ⟨rfl, .refl _ _⟩
  · have opens' : Opens request.withoutOracle files input first none :=
      ⟨opens.input, opens.oneBest, rfl, fun _ isNone => nomatch isNone⟩
    obtain ⟨location, rfl⟩ := Option.isSome_iff_exists.mp (opens.wants.symm.trans apart.wants)
    obtain rfl := Except.ok.inj ((opens.oracle location rfl).symm.trans apart.created)
    have ne : first ≠ location := fun same => apart.oneBest (same ▸ opens.oneBest)
    have isInput : input ≠ location := fun same => apart.input (same ▸ opens.input)
    have stays : (files.truncate first).node? location = files.node? location :=
      (agreeOff_truncate files first).node location (by simpa using ne.symm)
    have beside : Beside location (.fresh files first (some location)) (.fresh files first none) :=
      ⟨rfl, ne, agreeOff_truncate _ location,
        room_truncate (createLocation_free apart.created).1 (stays ▸ apart.room),
        ⟨_, rfl, rfl⟩, rfl⟩
    rw [run_fresh model opens, run_fresh model opens']
    exact decodeInto_beside model apart.wants isInput beside

theorem readPath_beside (model : Model) {request : Request} {files : Files}
    (apart : OracleApart request files oracle) :
    (run model request files).2.readPath request.oneBest =
      (run model request.withoutOracle files).2.readPath request.oneBest := by
  cases isFirst : files.createLocation request.oneBest with
  | error cause =>
    have plainly : (run model request.withoutOracle files).2 = files :=
      run_of_unopened model (.inr isFirst)
    rw [run_of_unopened model (.inr isFirst), plainly]
  | ok first =>
    have ne : first ≠ oracle := fun same => apart.oneBest (same ▸ isFirst)
    obtain ⟨⟨_, _, kept⟩, -⟩ := run_kept model request files
    obtain ⟨⟨_, _, plainly⟩, -⟩ := run_kept model request.withoutOracle files
    rw [readPath_of_createLocation (kept.directories.createLocation_iff.mpr isFirst),
      readPath_of_createLocation (plainly.directories.createLocation_iff.mpr isFirst),
      Files.read, Files.read, (run_beside model apart).2.node first (by simpa using ne)]

/-- A run changes no file but its outputs; and where the oracle can be written apart from the other
files, it is of no consequence for what the run comes to nor for any other file. -/
theorem run_frame (model : Model) (request : Request) (files : Files) :
    (∀ location, ¬ IsOutput request files location →
      (run model request files).2.node? location = files.node? location) ∧
    ∀ oracle, OracleApart request files oracle →
      (run model request files).1 = (run model request.withoutOracle files).1 ∧
      (run model request files).2.readPath request.oneBest =
        (run model request.withoutOracle files).2.readPath request.oneBest ∧
      AgreeOff [oracle] (run model request.withoutOracle files).2
        (run model request files).2 := by
  obtain ⟨⟨places, outputs, kept⟩, -⟩ := run_kept model request files
  refine ⟨fun location other => ?_, fun oracle apart => ?_⟩
  · exact kept.agree.node location fun place => other (outputs location place)
  · obtain ⟨result, agree⟩ := run_beside model apart
    exact ⟨result, readPath_beside model apart, agree⟩

/-- A matched file beside two outputs that are not there yet. -/
theorem run_frame_of_matched_file :
    ∃ (model : Model) (body : List UInt8) (files : Files) (request : Request) (oracle : Location),
      Request.parse body = .ok request ∧ OracleApart request files oracle ∧
      ¬ IsOutput request files ["m"] ∧
      (run model request files).2.node? ["m"] = files.node? ["m"] ∧
      (run model request files).1 = (run model request.withoutOracle files).1 ∧
      (run model request files).2.readPath request.oneBest =
        (run model request.withoutOracle files).2.readPath request.oneBest ∧
      AgreeOff [oracle] (run model request.withoutOracle files).2
        (run model request files).2 := by
  let model : Model := ⟨3, .corpus (Model.Corpus.addLine ⟨.empty, 0, 0⟩ "a b".toList)⟩
  let body := Text.encode <| "score.lm=1\nscore.alignment=1\nscore.ngram=1\nscore.overlap=1\n" ++
    "output.one_best=f\noutput.oracle_prefix=o\ninput.matched_file=m\ninput.confidence=1 0.5\n"
  let files : Files := ⟨[(["m"], .file (Text.encode "a  b\nc\n\nd\ne\n"))], []⟩
  have shape : (Request.parse body).toOption.map (fun request => (request.matchedFile,
      request.oneBest, request.oraclePath, request.wantsOracle)) =
        some ("m", "f", "o.oracle", true) := by
    decide +kernel
  obtain ⟨request, accepted, view⟩ := Request.exists_parse_eq_ok shape
  obtain ⟨matched, oneBest, oracle, wants⟩ : request.matchedFile = "m" ∧
      request.oneBest = "f" ∧ request.oraclePath = "o.oracle" ∧ request.wantsOracle = true := by
    simpa using view
  have isInput : files.locate request.matchedFile = .ok ["m"] := by
    rw [matched]
    decide +kernel
  have isFirst : files.createLocation request.oneBest = .ok ["f"] := by
    rw [oneBest]
    decide +kernel
  have isSecond : files.createLocation request.oraclePath = .ok ["o.oracle"] := by
    rw [oracle]
    decide +kernel
  have apart : OracleApart request files ["o.oracle"] :=
    ⟨wants, isSecond, by simp [isInput], by simp [isFirst], by decide +kernel⟩
  have matchedOnly : ¬ IsOutput request files ["m"] := by simp [IsOutput, isFirst, isSecond]
  obtain ⟨frame, byProduct⟩ := run_frame model request files
  exact ⟨model, body, files, request, ["o.oracle"], accepted, apart, matchedOnly,
    frame ["m"] matchedOnly, byProduct ["o.oracle"] apart⟩

end Engine

end SystemCombination
