import SystemCombination.Proofs.Engine.Run
import SystemCombination.Proofs.Files.InStep

/-! What a run does to files. However it ends, it changes no file but its outputs, and none at all
when it cannot open its input. -/

namespace SystemCombination

open Files Attempt

/-- What comes while an opened file is decoded. -/
def DecodeFailure.Opened (failure : DecodeFailure) : Prop :=
  ∀ path error, failure ≠ .openInput path error

theorem opened_write (path : String) (error : IoError) :
    (DecodeFailure.write path error).Opened :=
  fun _ _ => DecodeFailure.noConfusion

theorem opened_of_yields {settings : InputSettings} {vocabulary : Vocabulary} {path : String}
    {index : Nat} {pieces : List Piece} {results : List (Except DecodeFailure Segment)}
    (yields : Yields settings vocabulary path index pieces results) {failure : DecodeFailure}
    (fails : .error failure ∈ results) : failure.Opened := by
  induction yields with
  | done => simp at fails
  | gap _ ih => exact ih fails
  | segment _ _ _ ih => exact ih (by simpa using fails)
  | shape _ _ ih =>
    rcases List.mem_cons.mp fails with same | fails
    · obtain rfl := Except.error.inj same
      exact fun _ _ same => nomatch same
    · exact ih fails
  | broken _ ih =>
    rcases List.mem_cons.mp fails with same | fails
    · obtain rfl := Except.error.inj same
      exact fun _ _ same => nomatch same
    · exact ih fails

namespace Pipeline

variable {σ σ' : Type} {R : σ → σ' → Prop}

/-- Segments are asked for in step: asking changes nothing. -/
theorem inStep_segments (model : Model) (request : Request) (lines : List Text.Line) :
    List.Forall₂ (Attempt.InStep R DecodeFailure.Opened) (segments model request lines)
      (segments model request lines) := by
  rw [segments_eq request.matchedFile, segments_eq request.matchedFile,
    List.forall₂_map_left_iff, List.forall₂_map_right_iff, List.forall₂_same]
  intro result member
  cases result with
  | ok segment => exact inStep_pure (some segment)
  | error failure =>
    exact inStep_throw (opened_of_yields (Reader.yields_results (isCut_cut lines) 0) member)

end Pipeline

namespace Engine

variable {base : Files} {places : List Location}
  {action : Writer → Files → Except IoError Unit × Writer × Files}

/-- An action on the one-best file. -/
def Outputs.onOneBest (action : Writer → Files → Except IoError Unit × Writer × Files) :
    Attempt IoError Outputs Unit :=
  ExceptT.mk fun outputs =>
    let (result, oneBest, files) := action outputs.oneBest outputs.files
    (result, { outputs with oneBest, files })

theorem Outputs.onOracle_eq {outputs : Outputs} {writer : Writer}
    (isOracle : outputs.oracle = some writer) :
    onOracle action outputs = ((action writer outputs.files).1,
      { outputs with
        oracle := some (action writer outputs.files).2.1
        files := (action writer outputs.files).2.2 }) := by
  simp only [onOracle, ExceptT.mk, isOracle]

/-- Writers that are open at the given places, on files that are kept everywhere else. -/
structure Outputs.Within (base : Files) (places : List Location) (outputs : Outputs) : Prop where
  kept : KeptOff places base outputs.files
  oneBest : outputs.oneBest.location ∈ places
  oracle : ∀ writer, outputs.oracle = some writer → writer.location ∈ places

/-! ### Decoding -/

/-- A writer at one of the places, with its files. -/
def Placed (base : Files) (places : List Location) (state : Writer × Files) : Prop :=
  KeptOff places base state.2 ∧ state.1.location ∈ places

theorem respects_placed (base : Files) (places : List Location) :
    Writer.Respects (Keeping (Placed base places)) fun _ => True :=
  .of_invariant (fun _ placed => placed) fun {writer files} bytes ⟨kept, inside⟩ => by
    have sent : KeptOff [writer.location] files _ := Writer.keptOff_send bytes
    have inside' : [writer.location] ⊆ places := by simpa using inside
    refine ⟨⟨kept.trans (sent.mono inside'), ?_⟩, fun _ _ => trivial⟩
    rwa [Writer.location_send]

theorem inStep_within_onOneBest
    (h : InStep (Keeping (Placed base places)) (fun _ => True) (Writer.acting action)
      (Writer.acting action)) :
    InStep (Keeping (Outputs.Within base places)) (fun _ => True) (Outputs.onOneBest action)
      (Outputs.onOneBest action) := by
  rintro outputs _ ⟨rfl, within⟩
  obtain ⟨-, ⟨-, kept, inside⟩, -⟩ :=
    h (outputs.oneBest, outputs.files) _ ⟨rfl, within.kept, within.oneBest⟩
  exact ⟨rfl, ⟨rfl, kept, inside, within.oracle⟩, fun _ _ => trivial⟩

theorem inStep_within_onOracle
    (h : InStep (Keeping (Placed base places)) (fun _ => True) (Writer.acting action)
      (Writer.acting action)) :
    InStep (Keeping (Outputs.Within base places)) (fun _ => True) (Outputs.onOracle action)
      (Outputs.onOracle action) := by
  rintro outputs _ ⟨rfl, within⟩
  refine ⟨rfl, ⟨rfl, ?_⟩, fun _ _ => trivial⟩
  cases isOracle : outputs.oracle with
  | none =>
    have run : Outputs.onOracle action outputs = (.ok (), outputs) := by
      simp only [Outputs.onOracle, ExceptT.mk, isOracle]
    rw [run]
    exact within
  | some writer =>
    obtain ⟨-, ⟨-, kept, inside⟩, -⟩ :=
      h (writer, outputs.files) _ ⟨rfl, within.kept, within.oracle writer isOracle⟩
    rw [Outputs.onOracle_eq isOracle]
    exact ⟨kept, within.oneBest, fun _ isWriter => Option.some.inj isWriter ▸ inside⟩

theorem inStep_within (model : Model) (request : Request) :
    (Pipeline.partners model request Outputs.oneBestStream Outputs.oracleStream).InStep
      (Keeping (Outputs.Within base places)) DecodeFailure.Opened
      (Pipeline.partners model request Outputs.oneBestStream Outputs.oracleStream) where
  decode segment := inStep_pure _
  oneBest := Output.inStep_oneBestSink request.oneBest
    ⟨fun bytes => inStep_within_onOneBest ((respects_placed base places).write bytes),
      inStep_within_onOneBest (respects_placed base places).flush⟩
    fun error _ => opened_write _ error
  oracle := by
    cases wants : request.wantsOracle with
    | false =>
      simp only [Pipeline.partners, wants]
      exact ⟨fun _ _ => inStep_pure (), inStep_pure ()⟩
    | true =>
      simp only [Pipeline.partners, wants, if_true]
      exact Output.inStep_oracleSink request.oraclePath
        ⟨fun bytes => inStep_within_onOracle ((respects_placed base places).write bytes),
          inStep_within_onOracle (respects_placed base places).flush⟩
        fun error _ => opened_write _ error

/-- Closing flushes the oracle and then the one-best output. -/
theorem Outputs.close_eq (outputs : Outputs) : outputs.close =
    (onOneBest Writer.flush (onOracle Writer.flush outputs).2).2.files := by
  unfold close
  cases isOracle : outputs.oracle with
  | none => simp only [onOracle, onOneBest, ExceptT.mk, isOracle, Writer.close]
  | some writer => simp only [onOracle, onOneBest, ExceptT.mk, isOracle, Writer.close]

theorem Outputs.Within.close {outputs : Outputs} (h : outputs.Within base places) :
    KeptOff places base outputs.close := by
  have flush := (respects_placed base places).flush
  obtain ⟨-, flushed, -⟩ := inStep_within_onOracle flush outputs outputs ⟨rfl, h⟩
  obtain ⟨-, ⟨-, within⟩, -⟩ := inStep_within_onOneBest flush _ _ flushed
  rw [close_eq]
  exact within.kept

/-- A decode changes its outputs alone, and its failure is not one to open its input. -/
theorem decodeInto_kept (model : Model) (request : Request) (input : Location) {outputs : Outputs}
    (within : outputs.Within base places) :
    KeptOff places base (decodeInto model request input outputs).2 ∧
      ∀ failure, (decodeInto model request input outputs).1 = .error failure →
        failure.Opened := by
  obtain ⟨-, ⟨-, within⟩, fails⟩ := (inStep_within model request).decodeFrom
    (Pipeline.inStep_segments model request _) {} outputs outputs ⟨rfl, within⟩
  exact ⟨within.close, fails⟩

/-! ### Running -/

/-- An output of the request is created at the location. -/
def IsOutput (request : Request) (files : Files) (location : Location) : Prop :=
  files.createLocation request.oneBest = .ok location ∨
    request.wantsOracle = true ∧ files.createLocation request.oraclePath = .ok location

theorem keptOff_truncate {files : Files} {path : String} {location : Location}
    (created : files.createLocation path = .ok location) :
    KeptOff [location] files (files.truncate location) :=
  ⟨agreeOff_truncate files location, sameDirectories_truncate created⟩

theorem Opens.isOutput {request : Request} {files : Files} {input first : Location}
    {second : Option Location} (opens : Opens request files input first second) :
    ∀ location ∈ first :: second.toList, IsOutput request files location := by
  rw [List.forall_mem_cons]
  refine ⟨.inl opens.oneBest, fun location isSecond => ?_⟩
  have isSecond := Option.mem_toList.mp isSecond
  exact .inr ⟨by rw [opens.wants, isSecond]; rfl, opens.oracle location isSecond⟩

theorem Stops.isOutput {request : Request} {files : Files} {failure : DecodeFailure}
    {created : List Location} (stops : Stops request files failure created) :
    ∀ location ∈ created, IsOutput request files location := by
  cases stops with
  | input | oneBest => simp
  | oracle _ isFirst => simpa using .inl isFirst

/-- Creating outputs empties them, and no other file. -/
theorem keptOff_creating {request : Request} {files : Files} {created : List Location}
    (areOutputs : ∀ location ∈ created, IsOutput request files location) :
    KeptOff created files (creating files created) := by
  induction created using List.reverseRecOn with
  | nil => exact .refl [] files
  | append_singleton created location ih =>
    have kept := ih fun location member => areOutputs location (by simp [member])
    have isCreated : ∃ path, (creating files created).createLocation path = .ok location := by
      rcases areOutputs location (by simp) with isFirst | ⟨_, isSecond⟩
      · exact ⟨_, kept.directories.createLocation_iff.mpr isFirst⟩
      · exact ⟨_, kept.directories.createLocation_iff.mpr isSecond⟩
    obtain ⟨path, isCreated⟩ := isCreated
    rw [creating, List.foldl_concat]
    exact (kept.mono (by simp)).trans ((keptOff_truncate isCreated).mono (by simp))

theorem Opens.within_fresh {request : Request} {files : Files} {input first : Location}
    {second : Option Location} (opens : Opens request files input first second) :
    (Outputs.fresh files first second).Within files (first :: second.toList) where
  kept := keptOff_creating opens.isOutput
  oneBest := by simp [Outputs.fresh]
  oracle writer isWriter := by
    obtain ⟨location, isSecond, rfl⟩ := Option.map_eq_some_iff.mp isWriter
    simp [isSecond]

/-- A run changes its outputs alone, and nothing at all when it cannot open its input. -/
theorem run_kept (model : Model) (request : Request) (files : Files) :
    (∃ places, (∀ location ∈ places, IsOutput request files location) ∧
      KeptOff places files (run model request files).2) ∧
    ∀ path error, (run model request files).1 = .error (.openInput path error) →
      (run model request files).2 = files := by
  rcases stops_or_opens request files with ⟨failure, created, stops⟩ | ⟨input, _, _, opens⟩
  · rw [run_of_stops model stops]
    refine ⟨⟨created, stops.isOutput, keptOff_creating stops.isOutput⟩, ?_⟩
    rintro path error failed
    obtain rfl := Except.error.inj failed
    cases stops
    rfl
  · rw [run_fresh model opens]
    have ⟨kept, opened⟩ := decodeInto_kept model request input opens.within_fresh
    exact ⟨⟨_, opens.isOutput, kept⟩,
      fun path error failed => absurd rfl (opened _ failed path error)⟩

end Engine

end SystemCombination
