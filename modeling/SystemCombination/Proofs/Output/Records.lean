import Mathlib.Data.List.Basic
import Std.Data.String.ToNat
import SystemCombination.Output.Sink
import SystemCombination.Proofs.Decimal.Fixed
import SystemCombination.Proofs.Text.Lines

/-! The oracle output as a table. Cutting its bytes at the line feeds and each line at its tabs
gives a record for every hypothesis, since no field of a record holds either; no other records are
written with the same bytes. -/

namespace SystemCombination

/-- What a line of the oracle output says of a hypothesis. -/
structure Record where
  segment : Nat
  rank : Nat
  system : Nat
  /-- The score as it is printed. -/
  score : String
  text : String

/-- The cells of each line, and what follows the last line. -/
def cells (bytes : List UInt8) : List (List (List UInt8)) :=
  (bytes.splitOn 10).map fun line => line.splitOn 9

namespace Record

def fields (record : Record) : List String :=
  [toString record.segment, toString record.rank, toString record.system, record.score,
    record.text]

def bytes (record : Record) : List UInt8 :=
  [9].intercalate (record.fields.map Text.encode) ++ [10]

/-- The cells of records that are written line by line; nothing follows the last. -/
def table (records : List Record) : List (List (List UInt8)) :=
  records.map (fun record => record.fields.map Text.encode) ++ [[[]]]

/-- A record each field of which is a cell. -/
def Tabular (record : Record) : Prop := Text.Inline record.score ∧ Text.Inline record.text

theorem Tabular.fields {record : Record} (h : record.Tabular) :
    ∀ field ∈ record.fields, Text.Inline field := by
  simp only [Record.fields, List.forall_mem_cons]
  exact ⟨Text.inline_toString _, Text.inline_toString _, Text.inline_toString _, h.1, h.2,
    List.forall_mem_nil _⟩

/-- A byte for a blank other than the space is in no field. -/
theorem Tabular.not_mem_field {record : Record} (h : record.Tabular) {c : Char}
    (ascii : c.toNat < 128) (blank : Text.isBlank c = true) (other : c ≠ ' ') :
    ∀ field ∈ record.fields.map Text.encode, UInt8.ofNat c.toNat ∉ field := by
  intro field member found
  obtain ⟨text, isField, rfl⟩ := List.mem_map.mp member
  exact (h.fields text isField).not_mem blank other ((Text.mem_encode_ascii ascii).mp found)

theorem Tabular.splitOn_line {record : Record} (h : record.Tabular) :
    ([9].intercalate (record.fields.map Text.encode)).splitOn 9 = record.fields.map Text.encode :=
  List.splitOn_intercalate 9
    (h.not_mem_field (c := '\t') (by decide) (by decide) (by decide)) (by simp [Record.fields])

theorem Tabular.newline_not_mem {record : Record} (h : record.Tabular) :
    10 ∉ [9].intercalate (record.fields.map Text.encode) := by
  intro found
  rcases Text.mem_intercalate found with tab | ⟨field, member, inside⟩
  · exact absurd tab (by decide)
  · exact h.not_mem_field (c := '\n') (by decide) (by decide) (by decide) field member inside

/-- The induction is on the records: each is one line of the table. -/
theorem cells_bytes {records : List Record} (h : ∀ record ∈ records, record.Tabular) :
    cells (records.flatMap bytes) = table records := by
  induction records with
  | nil => rfl
  | cons record records ih =>
    have ⟨first, others⟩ := List.forall_mem_cons.mp h
    rw [List.flatMap_cons, bytes, cells, List.append_assoc, List.singleton_append,
      List.splitOn_append_cons_self_of_not_mem first.newline_not_mem, List.map_cons, ← cells,
      ih others, first.splitOn_line]
    rfl

theorem fields_injective {a b : Record} (h : a.fields = b.fields) : a = b := by
  obtain ⟨segment, rank, system, score, text⟩ := a
  obtain ⟨segment', rank', system', score', text'⟩ := b
  simpa [fields, Nat.repr_inj] using h

/-- A table holds no other records. -/
theorem table_injective {records others : List Record} (h : table records = table others) :
    records = others := by
  have encode_injective : Function.Injective Text.encode := by
    intro left right same
    have decoded := Text.decode?_encode left
    rw [same, Text.decode?_encode] at decoded
    exact (Option.some.inj decoded).symm
  have injective : Function.Injective fun record : Record => record.fields.map Text.encode :=
    fun _ _ same => fields_injective (List.map_injective_iff.mpr encode_injective same)
  exact List.map_injective_iff.mpr injective (List.append_cancel_right h)

end Record

/-! ### The records of hypotheses -/

namespace Output

/-- The records of the hypotheses for a segment, the first of which has the given rank. -/
def records (segment rank : Nat) (nbest : List Hypothesis) : List Record :=
  (nbest.zipIdx rank).map fun (hypothesis, rank) =>
    ⟨segment, rank, hypothesis.system, Decimal.fixed scorePlaces hypothesis.score,
      hypothesis.text⟩

theorem encode_oraclePieces (segment rank : Nat) (hypothesis : Hypothesis) :
    (oraclePieces segment rank hypothesis).flatMap Text.encode =
      Record.bytes ⟨segment, rank, hypothesis.system,
        Decimal.fixed scorePlaces hypothesis.score, hypothesis.text⟩ := by
  simp [oraclePieces, Record.bytes, Record.fields, Text.encode_newline,
    show Text.encode "\t" = [9] from rfl]

/-- The lines of an oracle are the bytes of the records. -/
theorem encode_oracleLines (segment rank : Nat) (nbest : List Hypothesis) :
    (oracleLines segment rank nbest).flatten.flatMap Text.encode =
      (records segment rank nbest).flatMap Record.bytes := by
  induction nbest generalizing rank with
  | nil => rfl
  | cons hypothesis nbest ih =>
    rw [oracleLines, List.flatten_cons, List.flatMap_append, encode_oraclePieces, ih]
    rfl

theorem segment_of_mem_records {segment rank : Nat} {nbest : List Hypothesis} {record : Record}
    (h : record ∈ records segment rank nbest) : record.segment = segment := by
  obtain ⟨_, _, rfl⟩ := List.mem_map.mp h
  rfl

theorem map_rank_records (segment rank : Nat) (nbest : List Hypothesis) :
    (records segment rank nbest).map Record.rank = List.range' rank nbest.length := by
  rw [records, List.map_map, ← List.zipIdx_map_snd]
  rfl

theorem map_system_records (segment rank : Nat) (nbest : List Hypothesis) :
    (records segment rank nbest).map Record.system = nbest.map Hypothesis.system := by
  have same : (records segment rank nbest).map Record.system =
      ((nbest.zipIdx rank).map Prod.fst).map Hypothesis.system := by
    rw [records, List.map_map, List.map_map]
    rfl
  rw [same, List.zipIdx_map_fst]

end Output

/-! ### Scores -/

namespace Decimal

theorem inline_padded (width value : Nat) : Text.Inline (padded width value) := by
  refine Text.inline_ofList fun c member => ?_
  apply isDigit_of_mem_padded
  rwa [padded, String.toList_ofList]

theorem inline_fixed (places : Nat) (value : Binary64) : Text.Inline (fixed places value) := by
  have sign : Text.Inline (if value.negative then "-" else "") := by
    split <;> decide
  unfold fixed
  split
  · decide
  · dsimp only
    split
    · exact sign.append (by decide)
    · exact ((sign.append (Text.inline_toString _)).append (by decide)).append
        (inline_padded _ _)

end Decimal

end SystemCombination
