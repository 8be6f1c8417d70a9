import SystemCombination.Proofs.Cut
import SystemCombination.Proofs.Text.Blank
import SystemCombination.Request.Assignment

/-! What a line of a request means, as a grammar. `Content` relates a line to what stands before its
comment, `Means` relates it to a statement, and `means_iff` says that `Statement.ofLine` finds the
one statement that the grammar gives. -/

namespace SystemCombination.Request

open Text

/-- `content` is the line up to its first `#`, without the blanks around it. -/
def Content (line content : List Char) : Prop :=
  ∃ said comment, line = said ++ comment ∧ '#' ∉ said ∧ (∀ c ∈ comment.head?, c = '#') ∧
    Trims said content

theorem content_uncommented (line : List Char) : Content line (uncommented line) := by
  refine ⟨_, _, List.takeWhile_append_dropWhile.symm, ?_, ?_, trims_trim _⟩
  · intro found
    simpa using List.mem_takeWhile_imp found
  · intro c first
    have h := List.head?_dropWhile_not (· ≠ '#') line
    rw [Option.mem_def.mp first] at h
    simpa using h

theorem uncommented_eq_iff {line content : List Char} :
    uncommented line = content ↔ Content line content := by
  constructor
  · rintro rfl
    exact content_uncommented line
  · rintro ⟨said, comment, rfl, fresh, first, trims⟩
    rw [uncommented, (takeWhile_ne_append fresh first).1, trim_of_trims trims]

theorem Content.subset {line content : List Char} (h : Content line content) : content ⊆ line := by
  obtain ⟨said, comment, rfl, -, -, trims⟩ := h
  exact List.subset_append_of_subset_left comment trims.subset

/-- A blank at the end of a line says nothing: it is trimmed off or stands in the comment. -/
theorem Content.concat_blank {line content : List Char} {c : Char} (h : Content line content)
    (blank : isBlank c = true) : Content (line ++ [c]) content := by
  obtain ⟨said, comment, rfl, fresh, first, left, right, rfl, blankLeft, blankRight, tight⟩ := h
  have last : AllBlank [c] := by simpa [AllBlank] using blank
  by_cases none : comment = []
  · subst none
    refine ⟨left ++ content ++ right ++ [c], [], by simp, ?_, by simp,
      left, right ++ [c], by simp, blankLeft, blankRight.append last, tight⟩
    rw [List.mem_append, not_or]
    exact ⟨fresh, last.not_mem (by decide)⟩
  · obtain ⟨mark, text, rfl⟩ := List.exists_cons_of_ne_nil none
    exact ⟨left ++ content ++ right, mark :: (text ++ [c]), by simp, fresh, first,
      left, right, rfl, blankLeft, blankRight, tight⟩

/-- A content that stands between brackets is a header. -/
def IsHeader (content : List Char) : Prop := ∃ inner, content = '[' :: (inner ++ [']'])

theorem bracketed?_eq_some_iff {content inner : List Char} :
    bracketed? content = some inner ↔ content = '[' :: (inner ++ [']']) := by
  constructor
  · intro h
    unfold bracketed? at h
    split at h
    · next rest =>
      split at h
      · next last =>
        obtain ⟨before, rfl⟩ := List.getLast?_eq_some_iff.mp last
        cases h
        rw [List.dropLast_concat]
      · cases h
    · cases h
  · rintro rfl
    simp [bracketed?]

theorem bracketed?_eq_none_iff {content : List Char} :
    bracketed? content = none ↔ ¬ IsHeader content := by
  rw [Option.eq_none_iff_forall_ne_some]
  simp only [ne_eq, bracketed?_eq_some_iff, IsHeader, not_exists]

theorem sides?_eq_none_of_not_mem {content : List Char} (h : '=' ∉ content) :
    sides? content = none := by
  have none_left : content.dropWhile (· ≠ '=') = [] :=
    List.dropWhile_eq_nil_iff.mpr fun c member => decide_eq_true fun same => h (same ▸ member)
  simp only [sides?, none_left]

theorem sides?_append {left right : List Char} (h : '=' ∉ left) :
    sides? (left ++ '=' :: right) =
      if trim left = [] then none else some (trim left, trim right) := by
  have first : ∀ c ∈ ('=' :: right).head?, c = '=' := by simp
  obtain ⟨before, after⟩ := takeWhile_ne_append h first
  simp only [sides?, before, after, List.isEmpty_iff]

/-- The grammar of lines. -/
inductive Means (line : List Char) : Statement → Prop
  | blank (content : Content line []) : Means line .blank
  | header {inner title : List Char} (content : Content line ('[' :: (inner ++ [']'])))
      (trims : Trims inner title) : Means line (.header title)
  | assignment {left right name value : List Char} (content : Content line (left ++ '=' :: right))
      (plain : ¬ IsHeader (left ++ '=' :: right)) (first : '=' ∉ left) (trims : Trims left name)
      (named : name ≠ []) (trims' : Trims right value) : Means line (.assignment name value)
  /-- There is no `=`. -/
  | unassigned {content : List Char} (h : Content line content) (nonempty : content ≠ [])
      (plain : ¬ IsHeader content) (missing : '=' ∉ content) : Means line (.malformed content)
  /-- There is nothing but blanks before the first `=`. -/
  | unnamed {left right : List Char} (content : Content line (left ++ '=' :: right))
      (plain : ¬ IsHeader (left ++ '=' :: right)) (blank : AllBlank left) :
      Means line (.malformed (left ++ '=' :: right))

theorem ofLine_of_means {line : List Char} {statement : Statement} (h : Means line statement) :
    Statement.ofLine line = statement := by
  cases h with
  | blank content => simp [Statement.ofLine, uncommented_eq_iff.mpr content]
  | header content trims =>
    simp [Statement.ofLine, uncommented_eq_iff.mpr content, bracketed?_eq_some_iff.mpr rfl,
      trim_of_trims trims]
  | assignment content plain first trims named trims' =>
    simp [Statement.ofLine, uncommented_eq_iff.mpr content, bracketed?_eq_none_iff.mpr plain,
      sides?_append first, trim_of_trims trims, trim_of_trims trims', named]
  | unassigned content nonempty plain missing =>
    simp [Statement.ofLine, uncommented_eq_iff.mpr content, bracketed?_eq_none_iff.mpr plain,
      sides?_eq_none_of_not_mem missing, nonempty]
  | unnamed content plain blank =>
    simp [Statement.ofLine, uncommented_eq_iff.mpr content, bracketed?_eq_none_iff.mpr plain,
      sides?_append (blank.not_mem (c := '=') (by decide)), trim_eq_nil_iff.mpr blank]

/-- Every line means something. -/
theorem exists_means (line : List Char) : ∃ statement, Means line statement := by
  have content := content_uncommented line
  revert content
  generalize uncommented line = content
  intro h
  by_cases empty : content = []
  · subst empty
    exact ⟨_, .blank h⟩
  by_cases header : IsHeader content
  · obtain ⟨inner, rfl⟩ := header
    exact ⟨_, .header h (trims_trim inner)⟩
  by_cases assigned : '=' ∈ content
  · obtain ⟨left, right, rfl, first⟩ := List.eq_append_cons_of_mem assigned
    by_cases named : trim left = []
    · exact ⟨_, .unnamed h header (trim_eq_nil_iff.mp named)⟩
    · exact ⟨_, .assignment h header first (trims_trim left) named (trims_trim right)⟩
  · exact ⟨_, .unassigned h empty header assigned⟩

theorem means_iff {line : List Char} {statement : Statement} :
    Means line statement ↔ Statement.ofLine line = statement := by
  refine ⟨ofLine_of_means, ?_⟩
  rintro rfl
  obtain ⟨statement, h⟩ := exists_means line
  rwa [ofLine_of_means h]

/-- What a statement quotes of its line. -/
def Statement.text : Statement → List Char
  | .blank => []
  | .header title => title
  | .assignment name value => name ++ value
  | .malformed content => content

/-- A statement quotes nothing that its line does not hold. -/
theorem Means.text_subset {line : List Char} {statement : Statement} (h : Means line statement) :
    statement.text ⊆ line := by
  cases h with
  | blank => exact List.nil_subset line
  | header content trims =>
    refine List.Subset.trans trims.subset (List.Subset.trans ?_ content.subset)
    exact List.subset_cons_of_subset _ (List.subset_append_left _ _)
  | assignment content _ _ trims _ trims' =>
    refine List.Subset.trans ?_ content.subset
    refine List.append_subset.mpr ⟨?_, ?_⟩
    · exact List.subset_append_of_subset_left _ trims.subset
    · exact List.subset_append_of_subset_right _ (List.subset_cons_of_subset _ trims'.subset)
  | unassigned content => exact content.subset
  | unnamed content => exact content.subset

end SystemCombination.Request
