import SystemCombination.Proofs.Model.NgramText
import SystemCombination.Proofs.Text.Lines

/-! What follows the end of a table of n-grams. Lines that are no headers are skipped there, but
another header opens its section again: `Continues` is what such lines leave of what has been read,
the counts and the words with their numbers. -/

namespace SystemCombination.Model.NgramTable

open Text

/-- The header that ends the table. -/
def endHeader : List Char := "\\end\\".toList

/-- The text is readable, and its last line that is not blank ends the table. -/
def Ended (lines : List Text.Line) : Prop :=
  ∃ texts : List String, lines = texts.map .ok ∧ (contents texts).getLast? = some endHeader

/-- Behind the end, the line leaves the table closed. -/
def StaysClosed (line : List Char) : Prop := line.head? = some '\\' → line = endHeader

instance (line : List Char) : Decidable (StaysClosed line) :=
  inferInstanceAs (Decidable (line.head? = some '\\' → line = endHeader))

section Closed

variable {progress next : Progress} {line : List Char}

theorem step_of_staysClosed (closed : progress.part = .closing) (h : StaysClosed line) :
    progress.step line = .ok progress := by
  by_cases backslash : line.head? = some '\\'
  · obtain rfl := h backslash
    have opened : opened? progress.part endHeader = some progress.part := by
      rw [closed]
      decide
    exact step_header progress backslash opened
  · rw [Progress.step, if_neg backslash, closed]

theorem foldlM_of_staysClosed (closed : progress.part = .closing) {lines : List (List Char)}
    (h : ∀ line ∈ lines, StaysClosed line) :
    lines.foldlM Progress.step progress = .ok progress := by
  induction lines with
  | nil => rfl
  | cons line lines ih =>
    rw [List.foldlM_cons, step_of_staysClosed closed (h line List.mem_cons_self)]
    exact ih fun other member => h other (List.mem_cons_of_mem line member)

end Closed

/-! ### Sections that are opened again -/

/-- The part comes after the counts. -/
def AfterCounts (part : Part) : Prop := part ≠ .preamble ∧ part ≠ .counts

/-- More lines have been read behind the counts. -/
structure Continues (progress next : Progress) : Prop where
  part : AfterCounts next.part
  counts : next.counts = progress.counts
  words : progress.vocabulary.words.toList <+: next.vocabulary.words.toList

theorem afterCounts_closing : AfterCounts .closing := ⟨nofun, nofun⟩

theorem afterCounts_grams (order : Nat) : AfterCounts (.grams order) := ⟨nofun, nofun⟩

theorem Continues.refl {progress : Progress} (h : AfterCounts progress.part) :
    Continues progress progress :=
  ⟨h, rfl, List.prefix_rfl⟩

theorem Continues.trans {first second third : Progress} (h : Continues first second)
    (h' : Continues second third) : Continues first third :=
  ⟨h'.part, h'.counts.trans h.counts, h.words.trans h'.words⟩

/-- Whatever a header opens once the counts have been opened comes after them. -/
theorem afterCounts_of_opened? {part next : Part} {header : List Char} (started : part ≠ .preamble)
    (opened : opened? part header = some next) : AfterCounts next := by
  by_cases data : header = dataHeader
  · rw [data, opened?_dataHeader, if_neg started] at opened
    cases opened
  · cases (opened?_eq_some_iff started data).mp opened with
    | data => exact absurd rfl data
    | closing => exact afterCounts_closing
    | grams => exact afterCounts_grams _

section Continue

variable {progress next : Progress} {line : List Char}

theorem continues_step_header (started : progress.part ≠ .preamble)
    (backslash : line.head? = some '\\') (step : progress.step line = .ok next) :
    Continues progress next := by
  rw [Progress.step, if_pos backslash] at step
  split at step
  · next part opened =>
    obtain rfl := Except.ok.inj step
    exact ⟨afterCounts_of_opened? started opened, rfl, List.prefix_rfl⟩
  · cases step

theorem continues_step_entry {order : Nat} (part : progress.part = .grams order)
    (plain : line.head? ≠ some '\\') (step : progress.step line = .ok next) :
    Continues progress next := by
  rw [Progress.step, if_neg plain, part] at step
  simp only at step
  split at step
  · next words _ =>
    split at step
    · obtain rfl := Except.ok.inj step
      exact ⟨afterCounts_grams order, rfl, Vocabulary.prefix_words_insertAll _ _⟩
    · obtain rfl := Except.ok.inj step
      apply Continues.refl
      rw [part]
      exact afterCounts_grams order
  · cases step

/-- A line behind the counts adds none, and what words it adds come last. -/
theorem continues_step (h : AfterCounts progress.part) (step : progress.step line = .ok next) :
    Continues progress next := by
  by_cases backslash : line.head? = some '\\'
  · exact continues_step_header h.1 backslash step
  · cases part : progress.part with
    | preamble => exact absurd part h.1
    | counts => exact absurd part h.2
    | grams order => exact continues_step_entry part backslash step
    | closing =>
      rw [Progress.step, if_neg backslash, part] at step
      obtain rfl := Except.ok.inj step
      exact .refl h

theorem continues_foldlM {lines : List (List Char)} (h : AfterCounts progress.part)
    (run : lines.foldlM Progress.step progress = .ok next) : Continues progress next := by
  induction lines generalizing progress with
  | nil =>
    obtain rfl := Except.ok.inj run
    exact .refl h
  | cons line lines ih =>
    obtain ⟨between, step, run⟩ := foldlM_cons_iff.mp run
    have first := continues_step h step
    exact first.trans (ih first.part run)

end Continue

/-! ### Texts behind the end -/

/-- The lines of a table that is accepted are read to their end. -/
theorem exists_run {texts : List String} {table : NgramTable}
    (loads : ofLines (texts.map .ok) = .ok table) :
    ∃ progress counts words, (contents texts).foldlM Progress.step {} = .ok progress ∧
      Tracks (contents texts) counts words progress ∧ dataHeader ∈ contents texts ∧
      progress.finish = .ok table := by
  generalize result : Except.ok table = accepted at loads
  cases verdict_iff.mp loads with
  | @accepted texts' counts words readable said started declared known =>
    obtain rfl : texts = texts' := (List.map_inj_right fun _ _ => Except.ok.inj).mp readable
    obtain ⟨progress, run, tracks⟩ := said.tracks
    refine ⟨progress, counts, words, run, tracks, started, ?_⟩
    rw [tracks.finish, if_neg (not_not.mpr started), if_neg declared, if_neg known]
  | _ => cases result

theorem ofLines_of_run {texts : List String} {progress : Progress}
    (run : (contents texts).foldlM Progress.step {} = .ok progress) :
    ofLines (texts.map .ok) = progress.finish := by
  have read := readFrom_texts texts [] 1 run
  rw [List.append_nil] at read
  rw [ofLines, read]
  rfl

theorem eq_of_finish {progress : Progress} {table : NgramTable}
    (h : progress.finish = .ok table) :
    table = ⟨progress.vocabulary, progress.counts.reverse⟩ := by
  simp only [Progress.finish] at h
  split at h
  · cases h
  · split at h
    · cases h
    · split at h
      · cases h
      · exact (Except.ok.inj h).symm

section Rest

variable {texts more : List String} {table table' : NgramTable} {progress : Progress}

theorem exists_closed (loads : ofLines (texts.map .ok) = .ok table)
    (ended : (contents texts).getLast? = some endHeader) :
    ∃ progress, progress.part = .closing ∧
      (contents texts).foldlM Progress.step {} = .ok progress ∧ progress.finish = .ok table := by
  obtain ⟨progress, counts, words, run, tracks, started, finish⟩ := exists_run loads
  obtain ⟨before, last⟩ := List.getLast?_eq_some_iff.mp ended
  have closed : StandsIn (contents texts) .closing := by
    rw [last] at started ⊢
    exact .header .closing started
  exact ⟨progress, tracks.part.unique closed, run, finish⟩

variable (closed : progress.part = .closing)
  (run : (contents texts).foldlM Progress.step {} = .ok progress)
  (finish : progress.finish = .ok table)

include closed run finish

theorem ofLines_of_staysClosed (h : ∀ line ∈ contents more, StaysClosed line) :
    ofLines ((texts ++ more).map .ok) = .ok table := by
  rw [← finish]
  apply ofLines_of_run
  rw [contents_append, List.foldlM_append, run]
  exact foldlM_of_staysClosed closed h

omit finish in
/-- A header that opens nothing is refused where it stands. -/
theorem ofLines_of_unknown_header {before after : List String} {line : String}
    (h : ∀ line ∈ contents before, StaysClosed line)
    (backslash : (trim line.toList).head? = some '\\') (other : trim line.toList ≠ endHeader)
    (unknown : gramsOrder? (trim line.toList) = none) :
    ofLines ((texts ++ (before ++ line :: after)).map .ok) =
      .error (.malformed (texts.length + before.length + 1)
        (.misplacedHeader (String.ofList (trim line.toList)))) := by
  have nonempty : trim line.toList ≠ [] := by
    intro none
    rw [none] at backslash
    cases backslash
  have unopened : opened? progress.part (trim line.toList) = none := by
    have noEnd : trim line.toList ≠ "\\end\\".toList := other
    rw [closed]
    by_cases data : trim line.toList = dataHeader
    · rw [data]
      rfl
    · have noData : trim line.toList ≠ "\\data\\".toList := data
      rw [opened?, if_neg noData, if_neg (by simp), if_neg noEnd, unknown]
      rfl
  have refused := step_misplaced progress backslash unopened
  have start : (contents (texts ++ before)).foldlM Progress.step {} = .ok progress := by
    rw [contents_append, List.foldlM_append, run]
    exact foldlM_of_staysClosed closed h
  have read := readFrom_texts (texts ++ before) (.ok line :: after.map .ok) 1 start
  rw [ofLines, ← List.append_assoc, List.map_append, List.map_cons, read, Progress.readFrom]
  simp only [List.isEmpty_iff, nonempty, if_false, refused, List.length_append]
  rw [Nat.add_comm 1]
  rfl

/-- A longer table that is accepted declares the same counts, and its further words come last. -/
theorem eq_of_ofLines_append (loads : ofLines ((texts ++ more).map .ok) = .ok table') :
    table'.declared = table.declared ∧
      table.vocabulary.words.toList <+: table'.vocabulary.words.toList := by
  obtain ⟨progress', _, _, run', _, _, finish'⟩ := exists_run loads
  rw [contents_append, List.foldlM_append, run] at run'
  have after : AfterCounts progress.part := closed ▸ afterCounts_closing
  have further := continues_foldlM after run'
  rw [eq_of_finish finish, eq_of_finish finish', further.counts]
  exact ⟨rfl, further.words⟩

end Rest

/-- Behind a table that has ended, a text changes nothing as long as all its headers end the table
again. The first other header is refused if it names no order. Whatever else is accepted keeps the
counts and the words with their numbers, but may add words behind them. -/
theorem ofLines_behind_end {text : List UInt8} {table : NgramTable}
    (loads : ofLines (linesOfBytes text) = .ok table) (ended : Ended (linesOfBytes text))
    (newLine : text.getLast? = some 10) (rest : String) :
    let more := (linesOfText rest).map String.ofList
    let whole := ofLines (linesOfBytes (text ++ encode rest))
    ((∀ line ∈ contents more, StaysClosed line) → whole = .ok table) ∧
    (∀ before line after, more = before ++ line :: after →
      (∀ line ∈ contents before, StaysClosed line) →
      (trim line.toList).head? = some '\\' → trim line.toList ≠ endHeader →
      gramsOrder? (trim line.toList) = none →
      whole = .error (.malformed ((linesOfBytes text).length + before.length + 1)
        (.misplacedHeader (String.ofList (trim line.toList))))) ∧
    ∀ table', whole = .ok table' →
      table'.declared = table.declared ∧ table'.declaredOrder = table.declaredOrder ∧
      table.vocabulary.words.toList <+: table'.vocabulary.words.toList ∧
      ∀ word number, table.vocabulary.index? word = some number →
        table'.vocabulary.index? word = some number := by
  intro more whole
  obtain ⟨texts, readable, last⟩ := ended
  obtain ⟨start, rfl⟩ := List.getLast?_eq_some_iff.mp newLine
  -- The text ends with a line end, so the rest is cut on its own.
  have lines : linesOfBytes (start ++ [10] ++ encode rest) = (texts ++ more).map .ok := by
    rw [List.map_append, ← readable, List.map_map, Function.comp_def, ← linesOfBytes_encode,
      List.append_assoc, List.singleton_append, linesOfBytes, lines_append_lineEnd,
      List.map_append]
    rfl
  rw [readable] at loads
  obtain ⟨progress, closed, run, finish⟩ := exists_closed loads last
  simp only [whole, lines]
  refine ⟨ofLines_of_staysClosed closed run finish, ?_, fun table' loads' => ?_⟩
  · intro before line after cut same backslash other unknown
    rw [cut, readable, List.length_map]
    exact ofLines_of_unknown_header closed run same backslash other unknown
  · obtain ⟨counts, words⟩ := eq_of_ofLines_append closed run finish loads'
    refine ⟨counts, ?_, words, fun word number found => Vocabulary.index?_of_prefix words found⟩
    rw [declaredOrder, declaredOrder, counts]

/-! ### A table of one word -/

def oneWord : String := "\\data\\\nngram 1=1\n\n\\1-grams:\n-1 a\n\n\\end\\\n"

theorem ofLines_oneWord : ofLines (linesOfBytes (encode oneWord)) = .ok ⟨.ofList ["a"], [1]⟩ :=
  ofLines_of_read .closing ["a"] [1] rfl (by simp) (by simp) (by simp)

theorem ended_oneWord : Ended (linesOfBytes (encode oneWord)) := by
  refine ⟨(linesOfText oneWord).map String.ofList, ?_, by decide⟩
  rw [linesOfBytes_encode, List.map_map]
  rfl

/-- What a remark, a misspelt header and a section add to a table of one word. -/
theorem ofLines_behind_end_of_oneWord :
    let whole (rest : String) := ofLines (linesOfBytes (encode oneWord ++ encode rest))
    whole "and so on\n\\end\\\n" = .ok ⟨.ofList ["a"], [1]⟩ ∧
    whole "and so on\n\\1-gram\n" = .error (.malformed 9 (.misplacedHeader "\\1-gram")) ∧
    ∃ table', whole "\\1-grams:\n-1 b\n" = .ok table' ∧ table'.declared = [1] ∧
      table'.vocabulary.index? "a" = some 0 := by
  have behind := ofLines_behind_end ofLines_oneWord ended_oneWord (by decide)
  have number : (Vocabulary.ofList ["a"]).index? "a" = some 0 := by
    have stands : (Vocabulary.ofList ["a"]).words[0]? = some "a" := by
      rw [← Array.getElem?_toList, Vocabulary.toList_words_ofList]
      rfl
    exact Vocabulary.index?_of_word stands
  have opened : ofLines (linesOfBytes (encode oneWord ++ encode "\\1-grams:\n-1 b\n")) =
      .ok ⟨.ofList ["a", "b"], [1]⟩ :=
    ofLines_of_read (.grams 1) ["a", "b"] [1] rfl (by simp) (by simp) (by simp)
  obtain ⟨declared, -, -, kept⟩ := (behind "\\1-grams:\n-1 b\n").2.2 _ opened
  refine ⟨(behind "and so on\n\\end\\\n").1 (by decide), ?_, _, opened, declared,
    kept "a" 0 number⟩
  exact (behind "and so on\n\\1-gram\n").2.1 ["and so on"] "\\1-gram" [] (by decide) (by decide)
    (by decide) (by decide) (by decide)

/-- A section behind the end of a table adds its word to the vocabulary. -/
theorem exists_word_behind_end :
    ∃ table table', ofLines (linesOfBytes (encode oneWord)) = .ok table ∧
      Ended (linesOfBytes (encode oneWord)) ∧ (encode oneWord).getLast? = some 10 ∧
      ofLines (linesOfBytes (encode oneWord ++ encode "\\1-grams:\n-1 b\n")) = .ok table' ∧
      table.vocabulary.words.toList = ["a"] ∧ table'.vocabulary.words.toList = ["a", "b"] := by
  refine ⟨_, _, ofLines_oneWord, ended_oneWord, by decide,
    ofLines_of_read (.grams 1) ["a", "b"] [1] rfl (by simp) (by simp) (by simp), ?_, ?_⟩
  · rw [Vocabulary.toList_words_ofList]
    rfl
  · rw [Vocabulary.toList_words_ofList]
    rfl

end SystemCombination.Model.NgramTable
