import SystemCombination.Files.Writer
import SystemCombination.Proofs.Files.Tree
import SystemCombination.Proofs.Output.InStep

/-! Writers in step. All that a writer does to files it does by sending bytes at once, so flushing
and writing are in step wherever sending is. Sending has to do with one file alone, and is refused
only for want of room. -/

namespace SystemCombination.Writer

open Attempt Files

/-- What a writer does, as an action on the writer and the files. -/
def acting (action : Writer → Files → Except IoError Unit × Writer × Files) :
    Attempt IoError (Writer × Files) Unit :=
  ExceptT.mk fun state => action state.1 state.2

/-- Related writers keep the same bytes pending and send in step. -/
structure Respects (R : Writer × Files → Writer × Files → Prop) (may : IoError → Prop) : Prop where
  pending : ∀ {state state'}, R state state' → state'.1.pending = state.1.pending
  keep : ∀ {state state'} pending, R state state' →
    R ({ state.1 with pending }, state.2) ({ state'.1 with pending }, state'.2)
  send : ∀ bytes, InStep R may (acting fun writer files => writer.send files bytes)
    (acting fun writer files => writer.send files bytes)

section Respects

variable {R : Writer × Files → Writer × Files → Prop} {may : IoError → Prop}

/-- What sending keeps true of a writer and its files is respected. -/
theorem Respects.of_invariant {Inv : Writer × Files → Prop}
    (keep : ∀ {writer files} pending, Inv (writer, files) → Inv ({ writer with pending }, files))
    (send : ∀ {writer files} bytes, Inv (writer, files) → Inv (writer.send files bytes).2 ∧
      ∀ error, (writer.send files bytes).1 = .error error → may error) :
    Respects (Keeping Inv) may where
  pending related := by rw [related.1]
  keep pending related := by
    obtain ⟨rfl, inv⟩ := related
    exact ⟨rfl, keep pending inv⟩
  send bytes state _ related := by
    obtain ⟨rfl, inv⟩ := related
    have ⟨inv, fails⟩ := send bytes inv
    exact ⟨rfl, ⟨rfl, inv⟩, fails⟩

/-- A writer that does nothing but change what is pending. -/
def changing (change : Array UInt8 → Array UInt8) : Attempt IoError (Writer × Files) Unit :=
  acting fun writer files => (.ok (), { writer with pending := change writer.pending }, files)

theorem acting_flush (state : Writer × Files) :
    acting flush state = if state.1.pending.isEmpty then (.ok (), state)
      else (acting (fun writer files => writer.send files state.1.pending.toList) >>= fun _ =>
        changing fun _ => #[]) state := by
  show Writer.flush state.1 state.2 = _
  unfold Writer.flush
  split
  · rfl
  · match run : acting (fun writer files => writer.send files state.1.pending.toList) state with
    | (.ok (), _) =>
      have sent : state.1.send state.2 state.1.pending.toList = _ := run
      rw [bind_ok run, sent]
      rfl
    | (.error _, _) =>
      have sent : state.1.send state.2 state.1.pending.toList = _ := run
      rw [bind_error run, sent]

theorem acting_write (bytes : List UInt8) (state : Writer × Files) :
    acting (fun writer files => writer.write files bytes) state =
      if state.1.pending.size + bytes.length ≤ capacity then
        acting (fun writer files => writer.place files bytes) state
      else (acting flush >>= fun _ =>
        acting fun writer files => writer.place files bytes) state := by
  show Writer.write state.1 state.2 bytes = _
  unfold Writer.write
  split
  · rfl
  · match run : acting flush state with
    | (.ok (), _) =>
      have flushed : state.1.flush state.2 = _ := run
      rw [bind_ok run, flushed]
      rfl
    | (.error _, _) =>
      have flushed : state.1.flush state.2 = _ := run
      rw [bind_error run, flushed]

theorem Respects.changing (h : Respects R may) (change : Array UInt8 → Array UInt8) :
    InStep R may (changing change) (changing change) := by
  intro state state' related
  refine ⟨rfl, ?_, fun _ failed => nomatch failed⟩
  show R ({ state.1 with pending := change state.1.pending }, state.2)
    ({ state'.1 with pending := change state'.1.pending }, state'.2)
  rw [h.pending related]
  exact h.keep _ related

theorem Respects.flush (h : Respects R may) : InStep R may (acting flush) (acting flush) := by
  intro state state' related
  rw [acting_flush, acting_flush, h.pending related]
  split
  · exact inStep_pure () state state' related
  · exact (h.send _).bind (fun _ => h.changing _) state state' related

theorem Respects.place (h : Respects R may) (bytes : List UInt8) :
    InStep R may (acting fun writer files => writer.place files bytes)
      (acting fun writer files => writer.place files bytes) := by
  by_cases small : bytes.length < capacity
  · simp only [Writer.place, if_pos small]
    exact h.changing (· ++ bytes)
  · simp only [Writer.place, if_neg small]
    exact h.send bytes

theorem Respects.write (h : Respects R may) (bytes : List UInt8) :
    InStep R may (acting fun writer files => writer.write files bytes)
      (acting fun writer files => writer.write files bytes) := by
  intro state state' related
  rw [acting_write, acting_write, h.pending related]
  split
  · exact h.place bytes state state' related
  · exact h.flush.bind (fun _ => h.place bytes) state state' related

end Respects

/-! ### Sending -/

variable {writer : Writer} {files files' : Files}

/-- What bytes are sent to is a regular file, a full device or something that takes them all. -/
theorem send_cases (writer : Writer) (files : Files) (bytes : List UInt8) :
    (∃ before after, files.node? writer.location = some (.file before) ∧
      writer.send files bytes = (.ok (), { writer with offset := writer.offset + bytes.length },
        files.put writer.location (.file after))) ∨
    (files.node? writer.location = some .full ∧
      writer.send files bytes = (.error .noSpace, writer, files)) ∨
    (files.node? writer.location ≠ some .full ∧ writer.send files bytes =
      (.ok (), { writer with offset := writer.offset + bytes.length }, files)) := by
  unfold send writeAt
  match stands : files.node? writer.location with
  | some (.file before) => exact .inl ⟨before, _, rfl, rfl⟩
  | some .full => exact .inr (.inl ⟨rfl, rfl⟩)
  | some .directory | some .sink | none => exact .inr (.inr ⟨by simp, rfl⟩)

theorem ne_root_of_file {location : Location} {content : List UInt8}
    (stands : files.node? location = some (.file content)) : location ≠ [] := by
  rintro rfl
  simp [node?] at stands

theorem location_send (bytes : List UInt8) :
    (writer.send files bytes).2.1.location = writer.location := by
  obtain ⟨_, _, _, sent⟩ | ⟨_, sent⟩ | ⟨_, sent⟩ := send_cases writer files bytes <;> rw [sent]

theorem agreeOff_send (bytes : List UInt8) :
    AgreeOff [writer.location] files (writer.send files bytes).2.2 := by
  obtain ⟨_, _, _, sent⟩ | ⟨_, sent⟩ | ⟨_, sent⟩ := send_cases writer files bytes <;> rw [sent]
  · exact agreeOff_put files _ _
  · exact .refl _ files
  · exact .refl _ files

theorem sameDirectories_send (bytes : List UInt8) :
    SameDirectories files (writer.send files bytes).2.2 := by
  obtain ⟨_, _, stands, sent⟩ | ⟨_, sent⟩ | ⟨_, sent⟩ := send_cases writer files bytes <;> rw [sent]
  · refine (agreeOff_put files _ _).sameDirectories ?_ ?_
    · simp [stands]
    · simp [node?_put_same (ne_root_of_file stands)]
  · exact .refl files
  · exact .refl files

theorem keptOff_send (bytes : List UInt8) :
    KeptOff [writer.location] files (writer.send files bytes).2.2 :=
  ⟨agreeOff_send bytes, sameDirectories_send bytes⟩

/-- Where there is room, sending succeeds and leaves room. -/
theorem send_of_room (room : files.node? writer.location ≠ some .full) (bytes : List UInt8) :
    (writer.send files bytes).1 = .ok () ∧
      (writer.send files bytes).2.2.node? writer.location ≠ some .full := by
  obtain ⟨_, _, stands, sent⟩ | ⟨full, _⟩ | ⟨_, sent⟩ := send_cases writer files bytes
  · rw [sent]
    exact ⟨rfl, by simp [node?_put_same (ne_root_of_file stands)]⟩
  · exact absurd full room
  · rw [sent]
    exact ⟨rfl, room⟩

/-- Sending is the same to files that differ elsewhere, and they go on differing only there. -/
theorem send_of_agreeOff {changed : List Location} (agree : AgreeOff changed files files')
    (away : writer.location ∉ changed) (bytes : List UInt8) :
    (writer.send files' bytes).1 = (writer.send files bytes).1 ∧
      (writer.send files' bytes).2.1 = (writer.send files bytes).2.1 ∧
      AgreeOff changed (writer.send files bytes).2.2 (writer.send files' bytes).2.2 := by
  unfold send writeAt
  rw [agree.node _ away]
  match files.node? writer.location with
  | some (.file before) => exact ⟨rfl, rfl, agree.put _ _⟩
  | some .full => exact ⟨rfl, rfl, agree⟩
  | some .directory | some .sink | none => exact ⟨rfl, rfl, agree⟩

end SystemCombination.Writer
