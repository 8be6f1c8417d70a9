import SystemCombination.Proofs.Request.Statement
import SystemCombination.Proofs.Text.Lines

/-! Layouts of a block. The same keys and values can be written in many ways: with sections or
without, with blanks and comments, with blank lines, and with two kinds of line ends. `Layout` says
which texts write a sequence of entries, and `assignments` finds the entries in each of them. -/

namespace SystemCombination.Request

open Text

/-- Blanks that stay in their line. -/
structure Padding (cs : List Char) : Prop where
  blank : AllBlank cs
  inLine : '\n' ∉ cs

/-- What may follow on a line: nothing, or a comment. -/
inductive Remark : List Char → Prop
  | none : Remark []
  | comment {text : List Char} (inLine : '\n' ∉ text) : Remark ('#' :: text)

/-- A text that stands on a line as it is. -/
structure Literal (cs : List Char) : Prop where
  tight : Tight cs
  plain : '#' ∉ cs
  inLine : '\n' ∉ cs

/-- The ways to write a statement on a line. -/
inductive Written : Statement → List Char → Prop
  | blank {padding remark : List Char} (isPadding : Padding padding) (isRemark : Remark remark) :
      Written .blank (padding ++ remark)
  | header {before left title right after remark : List Char} (isBefore : Padding before)
      (isLeft : Padding left) (literal : Literal title) (isRight : Padding right)
      (isAfter : Padding after) (isRemark : Remark remark) :
      Written (.header title)
        (before ++ ('[' :: (left ++ title ++ right ++ [']'])) ++ after ++ remark)
  | assignment {before name left right value after remark : List Char} (isBefore : Padding before)
      (isLeft : Padding left) (isRight : Padding right) (literal : Literal value)
      (isAfter : Padding after) (isRemark : Remark remark) :
      Written (.assignment name value)
        (before ++ (name ++ left ++ '=' :: (right ++ value)) ++ after ++ remark)

/-- The name that is written for a key: all of it where no section is open, and else what comes
behind the section and a dot. -/
inductive Names (key : Key) : (title name : List Char) → Prop
  | whole : Names key [] key.name.toList
  | rest {title name : List Char} (opened : title ≠ [])
      (split : key.name.toList = title ++ '.' :: name) : Names key title name

/-- A key, its value and the number of the line that they stand on. -/
structure Entry where
  key : Key
  value : List Char
  line : Nat

def Entry.assignment (entry : Entry) : Assignment :=
  ⟨entry.key.name, String.ofList entry.value, entry.line⟩

/-- Lines that write entries, the first of which has the given number and stands in the section with
the given title; the title is empty where no section is open. -/
inductive Rows : (title : List Char) → (number : Nat) → List (List Char) → List Entry → Prop
  | done {title : List Char} {number : Nat} : Rows title number [] []
  | blank {title line : List Char} {number : Nat} {lines : List (List Char)}
      {entries : List Entry} (written : Written .blank line)
      (later : Rows title (number + 1) lines entries) : Rows title number (line :: lines) entries
  | header {title opened line : List Char} {number : Nat} {lines : List (List Char)}
      {entries : List Entry} (written : Written (.header opened) line)
      (later : Rows opened (number + 1) lines entries) : Rows title number (line :: lines) entries
  | entry {title name value line : List Char} {key : Key} {number : Nat}
      {lines : List (List Char)} {entries : List Entry} (names : Names key title name)
      (written : Written (.assignment name value) line)
      (later : Rows title (number + 1) lines entries) :
      Rows title number (line :: lines) (⟨key, value, number⟩ :: entries)

/-- The lines make up the text, each with a line end; the last may go without. -/
inductive Ended : List (List Char) → List Char → Prop
  | done : Ended [] []
  | last {line : List Char} (nonempty : line ≠ []) : Ended [line] line
  | newline {line : List Char} {lines : List (List Char)} {text : List Char}
      (later : Ended lines text) : Ended (line :: lines) (line ++ '\n' :: text)
  | carriageReturn {line : List Char} {lines : List (List Char)} {text : List Char}
      (later : Ended lines text) : Ended (line :: lines) (line ++ '\r' :: '\n' :: text)

/-- The text writes the entries. -/
def Layout (text : String) (entries : List Entry) : Prop :=
  ∃ lines, Ended lines text.toList ∧ Rows [] 1 lines entries

/-! ### Names -/

theorem name_chars (key : Key) :
    ∀ c ∈ key.name.toList, isBlank c = false ∧ c ≠ '#' ∧ c ≠ '=' ∧ c ≠ '[' := by
  have plain : key.name.toList.all
      (fun c => !isBlank c && c != '#' && c != '=' && c != '[') = true := by
    cases key <;> decide
  simpa [and_assoc] using plain

theorem name_ends (key : Key) : key.name.toList ≠ [] ∧ key.name.toList.getLast? ≠ some '.' := by
  cases key <;> decide

/-- A text that is read back as the name of an assignment. -/
structure Nameable (name : List Char) : Prop where
  nonempty : name ≠ []
  chars : ∀ c ∈ name, isBlank c = false ∧ c ≠ '#' ∧ c ≠ '=' ∧ c ≠ '['

theorem Names.nameable {key : Key} {title name : List Char} (h : Names key title name) :
    Nameable name := by
  cases h with
  | whole => exact ⟨(name_ends key).1, name_chars key⟩
  | rest _ split =>
    refine ⟨?_, fun c member => name_chars key c (by simp [split, member])⟩
    rintro rfl
    exact (name_ends key).2 (by simp [split])

/-- The section puts back what a name leaves out. -/
theorem Names.qualified {key : Key} {title name : List Char} (h : Names key title name) :
    qualifier title ++ String.ofList name = key.name := by
  apply String.toList_inj.mp
  cases h with
  | whole => simp [qualifier]
  | rest opened split => simp [qualifier, opened, split]

/-! ### Lines -/

theorem padding_nil : Padding [] := ⟨by simp [AllBlank], List.not_mem_nil⟩

theorem Padding.append {left right : List Char} (h : Padding left) (h' : Padding right) :
    Padding (left ++ right) :=
  ⟨h.blank.append h'.blank, by simp [h.inLine, h'.inLine]⟩

theorem Padding.plain {cs : List Char} (h : Padding cs) : '#' ∉ cs :=
  h.blank.not_mem (by decide)

theorem Remark.head?_eq {remark : List Char} (h : Remark remark) : ∀ c ∈ remark.head?, c = '#' := by
  cases h <;> simp

theorem Remark.inLine {remark : List Char} (h : Remark remark) : '\n' ∉ remark := by
  cases h with
  | none => exact List.not_mem_nil
  | comment inLine => simp [inLine]

theorem Literal.trims {left cs right : List Char} (h : Literal cs) (isLeft : Padding left)
    (isRight : Padding right) : Trims (left ++ cs ++ right) cs :=
  ⟨left, right, rfl, isLeft.blank, isRight.blank, h.tight⟩

/-- What a line says stands between the paddings. -/
theorem content_append {before content after remark : List Char} (isBefore : Padding before)
    (plain : '#' ∉ content) (tight : Tight content) (isAfter : Padding after)
    (isRemark : Remark remark) : Content (before ++ content ++ after ++ remark) content := by
  refine ⟨before ++ content ++ after, remark, rfl, ?_, isRemark.head?_eq,
    before, after, rfl, isBefore.blank, isAfter.blank, tight⟩
  simp [isBefore.plain, plain, isAfter.plain]

theorem Written.means_blank {line : List Char} (h : Written .blank line) : Means line .blank := by
  cases h with
  | blank isPadding isRemark =>
    have content := content_append isPadding List.not_mem_nil tight_nil padding_nil isRemark
    simp only [List.append_nil] at content
    exact .blank content

theorem Written.means_header {line title : List Char} (h : Written (.header title) line) :
    Means line (.header title) := by
  cases h with
  | @header before left _ right after remark isBefore isLeft literal isRight isAfter isRemark =>
    have plain : '#' ∉ '[' :: (left ++ title ++ right ++ [']']) := by
      simp [isLeft.plain, literal.plain, isRight.plain]
    have tight : Tight (['['] ++ (left ++ title ++ right) ++ [']']) :=
      tight_append (by simp) (by rintro c ⟨⟩; decide) (by simp) (by rintro c ⟨⟩; decide)
    exact .header (content_append isBefore plain tight isAfter isRemark)
      (literal.trims isLeft isRight)

/-- The blanks behind the `=` belong to the value unless it is empty: then they end the line. -/
theorem Written.means_assignment {line name value : List Char}
    (h : Written (.assignment name value) line) (named : Nameable name) :
    Means line (.assignment name value) := by
  cases h with
  | @assignment before _ left right _ after remark isBefore isLeft isRight literal isAfter
      isRemark =>
    have first : ∀ c ∈ name.head?, isBlank c = false := fun c isFirst =>
      (named.chars c (List.mem_of_mem_head? isFirst)).1
    have unsigned : '=' ∉ name ++ left := by
      have blank := isLeft.blank.not_mem (c := '=') (by decide)
      simpa [blank] using fun member => (named.chars '=' member).2.2.1 rfl
    have plain : '#' ∉ name := fun member => (named.chars '#' member).2.1 rfl
    have noHeader (rest : List Char) : ¬ IsHeader (name ++ left ++ '=' :: rest) := by
      obtain ⟨c, cs, rfl⟩ := List.exists_cons_of_ne_nil named.nonempty
      rintro ⟨inner, same⟩
      exact (named.chars c List.mem_cons_self).2.2.2 (List.cons.inj same).1
    have nameTrims : Trims (name ++ left) name := by
      refine ⟨[], left, rfl, padding_nil.blank, isLeft.blank, first, fun c isLast => ?_⟩
      exact (named.chars c (List.mem_of_mem_getLast? isLast)).1
    by_cases empty : value = []
    · subst empty
      have content : Content (before ++ (name ++ left ++ ['=']) ++ (right ++ after) ++ remark)
          (name ++ left ++ ['=']) :=
        content_append isBefore (by simp [plain, isLeft.plain])
          (tight_append named.nonempty first (by simp) (by rintro c ⟨⟩; decide))
          (isRight.append isAfter) isRemark
      have same : before ++ (name ++ left ++ '=' :: (right ++ [])) ++ after ++ remark =
          before ++ (name ++ left ++ ['=']) ++ (right ++ after) ++ remark := by
        simp
      rw [same]
      exact .assignment content (noHeader []) unsigned nameTrims named.nonempty
        (trims_nil_iff.mpr padding_nil.blank)
    · have tight : Tight (name ++ (left ++ '=' :: right) ++ value) :=
        tight_append named.nonempty first empty literal.tight.2
      have same : name ++ (left ++ '=' :: right) ++ value =
          name ++ left ++ '=' :: (right ++ value) := by
        simp
      rw [same] at tight
      have content := content_append isBefore (by simp [plain, isLeft.plain, isRight.plain,
        literal.plain]) tight isAfter isRemark
      refine .assignment content (noHeader _) unsigned nameTrims named.nonempty ?_
      simpa using literal.trims isRight padding_nil

theorem Written.inLine {statement : Statement} {line : List Char} (h : Written statement line)
    (named : ∀ name value, statement = .assignment name value → Nameable name) :
    '\n' ∉ line := by
  cases h with
  | blank isPadding isRemark => simp [isPadding.inLine, isRemark.inLine]
  | header isBefore isLeft literal isRight isAfter isRemark =>
    simp [isBefore.inLine, isLeft.inLine, literal.inLine, isRight.inLine, isAfter.inLine,
      isRemark.inLine]
  | @assignment _ name _ _ _ _ _ isBefore isLeft isRight literal isAfter isRemark =>
    have fresh : '\n' ∉ name := fun member =>
      absurd ((named _ _ rfl).chars '\n' member).1 (by decide)
    simp [isBefore.inLine, fresh, isLeft.inLine, isRight.inLine, literal.inLine, isAfter.inLine,
      isRemark.inLine]

/-! ### Blocks -/

theorem Rows.inLine {title : List Char} {number : Nat} {lines : List (List Char)}
    {entries : List Entry} (h : Rows title number lines entries) : ∀ line ∈ lines, '\n' ∉ line := by
  induction h with
  | done => simp
  | blank written _ ih => exact List.forall_mem_cons.mpr ⟨written.inLine nofun, ih⟩
  | header written _ ih => exact List.forall_mem_cons.mpr ⟨written.inLine nofun, ih⟩
  | entry names written _ ih =>
    refine List.forall_mem_cons.mpr ⟨written.inLine fun name value same => ?_, ih⟩
    cases same
    exact names.nameable

/-- The invariant is that the section that the reader has open is the one that the rows stand
in. -/
theorem assignmentsFrom_rows {title : List Char} {number : Nat} {lines : List (List Char)}
    {entries : List Entry} (h : Rows title number lines entries) (found : List Assignment) :
    assignmentsFrom found (qualifier title) number lines =
      .ok (found.reverse ++ entries.map Entry.assignment) := by
  induction h generalizing found with
  | done => simp [assignmentsFrom]
  | blank written _ ih =>
    rw [assignmentsFrom, means_iff.mp written.means_blank]
    exact ih found
  | header written _ ih =>
    rw [assignmentsFrom, means_iff.mp written.means_header]
    exact ih found
  | entry names written _ ih =>
    rw [assignmentsFrom, means_iff.mp (written.means_assignment names.nameable)]
    dsimp only
    rw [names.qualified, ih]
    simp [Entry.assignment]

/-- Reading takes nothing from a line but its statement. -/
theorem assignmentsFrom_congr {lines others : List (List Char)}
    (same : lines.map Statement.ofLine = others.map Statement.ofLine) (found : List Assignment)
    (opened : String) (number : Nat) :
    assignmentsFrom found opened number lines = assignmentsFrom found opened number others := by
  induction lines generalizing others found opened number with
  | nil =>
    obtain rfl : others = [] := by simpa [eq_comm] using same
    rfl
  | cons line lines ih =>
    obtain ⟨other, others, rfl⟩ : ∃ other rest, others = other :: rest :=
      List.exists_cons_of_ne_nil (by rintro rfl; simp at same)
    obtain ⟨first, rest⟩ := List.cons.inj same
    rw [assignmentsFrom, assignmentsFrom, first]
    split <;> simp only [ih rest]

theorem ofLine_dropEnd (line : List Char) :
    Statement.ofLine (dropEnd '\r' line) = Statement.ofLine line := by
  unfold dropEnd
  split
  · next last isLast =>
    split
    · next isReturn =>
      obtain ⟨before, rfl⟩ := List.getLast?_eq_some_iff.mp isLast
      obtain rfl : last = '\r' := by simpa using isReturn
      rw [List.dropLast_concat, Statement.ofLine, Statement.ofLine,
        uncommented_eq_iff.mpr ((content_uncommented before).concat_blank (by decide))]
    · rfl
  · rfl

/-- The lines that make up a text are found in it, up to a carriage return at their end. -/
theorem statements_ended {lines : List (List Char)} {text : List Char} (h : Ended lines text)
    (inLine : ∀ line ∈ lines, '\n' ∉ line) :
    (Text.lines '\r' '\n' text).map Statement.ofLine = lines.map Statement.ofLine := by
  induction h with
  | done => rw [lines_nil]
  | last nonempty => rw [lines_of_not_mem _ (inLine _ List.mem_cons_self) nonempty]
  | newline _ ih =>
    have ⟨fresh, inLine⟩ := List.forall_mem_cons.mp inLine
    rw [lines_append _ _ fresh, List.map_cons, List.map_cons, ih inLine, ofLine_dropEnd]
  | @carriageReturn line _ text _ ih =>
    have ⟨fresh, inLine⟩ := List.forall_mem_cons.mp inLine
    have whole : line ++ '\r' :: '\n' :: text = (line ++ ['\r']) ++ '\n' :: text := by simp
    rw [whole, lines_append _ _ (by simp [fresh]), List.map_cons, List.map_cons, ih inLine]
    simp [dropEnd]

/-- Every layout is read as the entries that it writes, in order and with their lines. -/
theorem assignments_of_layout {text : String} {entries : List Entry} (h : Layout text entries) :
    assignments text = .ok (entries.map Entry.assignment) := by
  obtain ⟨lines, ended, rows⟩ := h
  have read := assignmentsFrom_congr (statements_ended ended rows.inLine) [] "" 1
  rw [assignments, linesOfText, read]
  exact assignmentsFrom_rows rows []

/-- A section, both line ends, a value with brackets and an empty value on a last line without an
end. -/
theorem assignments_of_layout_of_sections :
    let text := "[ score ]\r\n\tlm = 1.5  # first\n\n[]\noutput.one_best=a=[b]\n" ++
      "output.oracle_prefix ="
    let entries : List Entry := [⟨.lmWeight, "1.5".toList, 2⟩, ⟨.oneBest, "a=[b]".toList, 5⟩,
      ⟨.oraclePrefix, [], 6⟩]
    Layout text entries ∧ assignments text = .ok (entries.map Entry.assignment) := by
  refine ⟨?layout, assignments_of_layout ?layout⟩
  have nothing : Literal [] := ⟨tight_nil, List.not_mem_nil, List.not_mem_nil⟩
  have space : Padding [' '] := ⟨by decide, by decide⟩
  have blank : Written .blank [] := @Written.blank [] [] padding_nil .none
  have opens : Written (.header "score".toList) "[ score ]".toList :=
    @Written.header [] [' '] _ [' '] [] [] padding_nil space
      ⟨by decide, by decide, by decide⟩ space padding_nil .none
  have closes : Written (.header []) "[]".toList :=
    @Written.header [] [] [] [] [] [] padding_nil padding_nil nothing padding_nil padding_nil .none
  have weight : Written (.assignment "lm".toList "1.5".toList) "\tlm = 1.5  # first".toList :=
    @Written.assignment ['\t'] _ [' '] [' '] _ [' ', ' '] _ ⟨by decide, by decide⟩ space space
      ⟨by decide, by decide, by decide⟩ ⟨by decide, by decide⟩
      (@Remark.comment " first".toList (by decide))
  have best : Written (.assignment "output.one_best".toList "a=[b]".toList)
      "output.one_best=a=[b]".toList :=
    @Written.assignment [] _ [] [] _ [] [] padding_nil padding_nil padding_nil
      ⟨by decide, by decide, by decide⟩ padding_nil .none
  have start : Written (.assignment "output.oracle_prefix".toList [])
      "output.oracle_prefix =".toList :=
    @Written.assignment [] _ [' '] [] [] [] [] padding_nil space padding_nil nothing padding_nil
      .none
  have last := @Ended.last "output.oracle_prefix =".toList (by decide)
  have ended := @Ended.carriageReturn "[ score ]".toList _ _
    (@Ended.newline "\tlm = 1.5  # first".toList _ _ (@Ended.newline [] _ _
      (@Ended.newline "[]".toList _ _ (@Ended.newline "output.one_best=a=[b]".toList _ _ last))))
  exact ⟨_, ended, .header opens (.entry (.rest (by decide) rfl) weight (.blank blank
    (.header closes (.entry .whole best (.entry .whole start .done)))))⟩

end SystemCombination.Request
