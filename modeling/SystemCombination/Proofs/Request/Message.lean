import SystemCombination.Proofs.Request.Verdict
import SystemCombination.Proofs.Text.Lines

/-! The messages of rejections are single lines. They quote contents, names and values, each of
which stands in one line of the request, so no text that a client sends brings a line end into a
message. -/

namespace SystemCombination.Request

open Text

/-- A text without a line end. -/
def SingleLine (text : String) : Prop := '\n' ∉ text.toList

instance (text : String) : Decidable (SingleLine text) :=
  inferInstanceAs (Decidable ('\n' ∉ text.toList))

theorem SingleLine.append {left right : String} (h : SingleLine left) (h' : SingleLine right) :
    SingleLine (left ++ right) := by
  rw [SingleLine, String.toList_append, List.mem_append, not_or]
  exact ⟨h, h'⟩

theorem singleLine_ofList {cs : List Char} (h : '\n' ∉ cs) : SingleLine (String.ofList cs) := by
  rwa [SingleLine, String.toList_ofList]

theorem singleLine_toString (n : Nat) : SingleLine (toString n) := by
  rw [Nat.toString_eq_repr, Nat.repr_eq_ofList_toDigits]
  refine singleLine_ofList fun member => ?_
  have digit := Nat.isDigit_of_mem_toDigits (by decide) (by decide) member
  exact absurd digit (by decide)

theorem singleLine_name (key : Key) : SingleLine key.name := by
  cases key <;> decide

theorem singleLine_expected (kind : Kind) : SingleLine kind.expected := by
  cases kind <;> decide

/-! ### What a block quotes -/

theorem newline_not_mem_of_hasLines {body : List UInt8} {lines : List (List Char)}
    (h : HasLines body lines) : ∀ line ∈ lines, '\n' ∉ line := by
  obtain ⟨-, text, -, rfl⟩ := h
  intro line
  exact newline_not_mem_of_mem_linesOfText

theorem newline_not_mem_of_opens {before : List (List Char)} {title : List Char}
    (h : Opens before title) (single : ∀ line ∈ before, '\n' ∉ line) : '\n' ∉ title := by
  rcases h with ⟨rfl, -⟩ | ⟨earlier, line, later, rfl, means, -⟩
  · exact List.not_mem_nil
  · exact fun found => single line (by simp) (means.text_subset found)

theorem singleLine_qualifier {title : List Char} (h : '\n' ∉ title) :
    SingleLine (qualifier title) := by
  unfold qualifier
  split
  · exact List.not_mem_nil
  · exact (singleLine_ofList h).append (by decide)

/-- The names and the values of assignments are parts of lines. -/
theorem Makes.singleLine {lines : List (List Char)} {a : Assignment} (h : Makes lines a)
    (single : ∀ line ∈ lines, '\n' ∉ line) : SingleLine a.name ∧ SingleLine a.value := by
  obtain ⟨rfl, means, opens⟩ := h
  next before after line name value title =>
  have quoted : '\n' ∉ name ++ value := fun found =>
    single line (by simp) (means.text_subset found)
  rw [List.mem_append, not_or] at quoted
  have section_single := newline_not_mem_of_opens opens fun line member =>
    single line (List.mem_append_left _ member)
  exact ⟨(singleLine_qualifier section_single).append (singleLine_ofList quoted.1),
    singleLine_ofList quoted.2⟩

/-! ### Messages -/

theorem Judged.singleLine_message {as : List Assignment} {error : Error}
    (h : Judged as (.error error))
    (single : ∀ a ∈ as, SingleLine a.name ∧ SingleLine a.value) : SingleLine error.message := by
  cases h with
  | unknownKey fault =>
    obtain ⟨before, after, rfl, -, -⟩ := fault
    next a =>
    have name := (single a (by simp)).1
    exact (((SingleLine.append (by decide) (singleLine_toString _)).append (by decide)).append
      name).append (by decide)
  | keyCount names fault =>
    exact ((SingleLine.append (by decide) (singleLine_name _)).append (by decide)).append
      (singleLine_toString _)
  | invalidValue names counts fault gives =>
    obtain ⟨a, member, -, rfl⟩ := gives
    exact ((((SingleLine.append (by decide) (single a member).2).append (by decide)).append
      (singleLine_name _)).append (by decide)).append (singleLine_expected _)
  | badConfidence names counts values gives =>
    obtain ⟨a, member, -, rfl⟩ := gives
    exact (SingleLine.append (by decide) (single a member).2).append (by decide)

/-- The message of a rejection is a single line, whatever the body is. -/
theorem Verdict.singleLine_message {body : List UInt8} {error : Error}
    (h : Verdict body (.error error)) : SingleLine error.message := by
  cases h with
  | tooLarge => exact (SingleLine.append (by decide) (singleLine_toString _)).append (by decide)
  | notUtf8 => exact (by decide : SingleLine (Error.message .notUtf8))
  | malformedLine hasLines earlier means =>
    have quoted := fun found =>
      newline_not_mem_of_hasLines hasLines _ (by simp) (means.text_subset found)
    exact (((SingleLine.append (by decide) (singleLine_toString _)).append (by decide)).append
      (singleLine_ofList quoted)).append (by decide)
  | judged hasLines formed lists judged =>
    refine judged.singleLine_message fun a member => ?_
    exact ((lists.mem_iff a).mp member).singleLine (newline_not_mem_of_hasLines hasLines)

end SystemCombination.Request
