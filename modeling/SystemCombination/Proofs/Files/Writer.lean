import SystemCombination.Files.Writer
import SystemCombination.Proofs.Files.Tree

/-! What a writer has written. As long as nobody else changes its file, the file holds what was
flushed and the buffer what comes behind it; each operation changes that file alone. -/

namespace SystemCombination.Writer

/-- A writer at the end of a file that holds the bytes, once what is pending is written. -/
structure Holds (writer : Writer) (files : Files) (location : Location) (bytes : List UInt8) :
    Prop where
  opened : writer.location = location
  root : location ≠ []
  content : ∃ content, files.node? location = some (.file content) ∧
    writer.offset = content.length ∧ content ++ writer.pending.toList = bytes

variable {writer : Writer} {files : Files} {location : Location} {bytes : List UInt8}

/-- A change elsewhere is none of the writer's. -/
theorem Holds.elsewhere {after : Files} {other : Location}
    (h : writer.Holds files location bytes) (agree : Files.AgreeOff [other] files after)
    (apart : location ≠ other) : writer.Holds after location bytes where
  opened := h.opened
  root := h.root
  content := by
    rw [agree.node location (by simpa using apart)]
    exact h.content

theorem overwrite_length (content bytes : List UInt8) :
    Files.overwrite content content.length bytes = content ++ bytes := by
  simp [Files.overwrite]

/-- Bytes that are written at once come behind the content, and what is pending stays. -/
theorem send_eq {content : List UInt8} (opened : writer.location = location)
    (stands : files.node? location = some (.file content))
    (at_end : writer.offset = content.length) (bytes : List UInt8) :
    writer.send files bytes = (.ok (), { writer with offset := writer.offset + bytes.length },
      files.put location (.file (content ++ bytes))) := by
  have written : files.writeAt writer.location writer.offset bytes =
      .ok (files.put location (.file (content ++ bytes))) := by
    rw [opened, at_end, Files.writeAt, stands]
    dsimp only
    rw [overwrite_length]
  rw [send, written]

theorem Holds.flush (h : writer.Holds files location bytes) :
    ∃ writer' files', writer.flush files = (.ok (), writer', files') ∧
      writer'.pending = #[] ∧ writer'.Holds files' location bytes ∧
      Files.AgreeOff [location] files files' := by
  obtain ⟨content, stands, at_end, rfl⟩ := h.content
  unfold Writer.flush
  split
  · next empty =>
    exact ⟨writer, files, rfl, Array.isEmpty_iff.mp empty, ⟨h.opened, h.root, content, stands,
      at_end, rfl⟩, .refl _ files⟩
  · rw [send_eq h.opened stands at_end]
    refine ⟨_, _, rfl, rfl, ⟨h.opened, h.root, _, Files.node?_put_same h.root _, ?_, ?_⟩,
      Files.agreeOff_put files location _⟩
    · simp [at_end]
    · simp

theorem Holds.place (h : writer.Holds files location bytes) (more : List UInt8)
    (room : more.length < capacity ∨ writer.pending = #[]) :
    ∃ writer' files', writer.place files more = (.ok (), writer', files') ∧
      writer'.Holds files' location (bytes ++ more) ∧ Files.AgreeOff [location] files files' := by
  obtain ⟨content, stands, at_end, rfl⟩ := h.content
  unfold Writer.place
  split
  · exact ⟨_, files, rfl, ⟨h.opened, h.root, content, stands, at_end, by simp⟩, .refl _ files⟩
  · next large =>
    have empty := room.resolve_left large
    rw [send_eq h.opened stands at_end]
    refine ⟨_, _, rfl, ⟨h.opened, h.root, _, Files.node?_put_same h.root _, ?_, ?_⟩,
      Files.agreeOff_put files location _⟩
    · simp [at_end]
    · simp [empty]

theorem Holds.write (h : writer.Holds files location bytes) (more : List UInt8) :
    ∃ writer' files', writer.write files more = (.ok (), writer', files') ∧
      writer'.Holds files' location (bytes ++ more) ∧ Files.AgreeOff [location] files files' := by
  unfold Writer.write
  split
  · next fits =>
    -- Bytes that fill the buffer alone fit only if nothing is pending.
    refine h.place more ?_
    by_cases small : more.length < capacity
    · exact .inl small
    · exact .inr (Array.size_eq_zero_iff.mp (by omega))
  · obtain ⟨flushed, between, run, empty, holds, agree⟩ := h.flush
    obtain ⟨writer', files', run', holds, agree'⟩ := holds.place more (.inr empty)
    rw [run]
    exact ⟨writer', files', run', holds, (agree.trans agree').mono (by simp)⟩

/-- Closing writes what is pending. -/
theorem Holds.close (h : writer.Holds files location bytes) :
    (writer.close files).node? location = some (.file bytes) ∧
      Files.AgreeOff [location] files (writer.close files) := by
  obtain ⟨flushed, files', run, empty, holds, agree⟩ := h.flush
  obtain ⟨content, stands, _, rfl⟩ := holds.content
  have closed : writer.close files = files' := by rw [Writer.close, run]
  rw [closed, stands, empty]
  exact ⟨by simp, agree⟩

end SystemCombination.Writer
