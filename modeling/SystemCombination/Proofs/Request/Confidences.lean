import Mathlib.Data.List.Forall2
import SystemCombination.Proofs.Decimal.Numeral
import SystemCombination.Proofs.Request.Stages
import SystemCombination.Proofs.Text.Runs

/-! Confidences in a text. All of the text counts: it is read when each of its words denotes a
finite number, and rejected with all that it holds otherwise. Texts with blanks between them are
read one after the other, and blanks at either end change nothing. -/

namespace SystemCombination.Request

open Text

/-- The text consists of blanks and of words that denote the values, in this order. -/
def Enumerates (raw : String) (values : List Binary64) : Prop :=
  ∃ runs, Runs raw.toList runs ∧ List.Forall₂ Decimal.Denotes runs values

theorem confidences_iff_enumerates {raw : String} {values : List Binary64} :
    confidences raw = .ok values ↔ Enumerates raw values := by
  have related : (words raw.toList).map Decimal.finite? = values.map some ↔
      List.Forall₂ Decimal.Denotes (words raw.toList) values := by
    rw [← List.forall₂_eq_eq_eq, List.forall₂_map_left_iff, List.forall₂_map_right_iff]
    simp only [Decimal.finite?_eq_some_iff]
  rw [confidences_eq_ok_iff, related, Enumerates]
  simp only [← words_eq_iff, exists_eq_left']

/-- The text has a word that denotes no finite number. -/
def HasResidue (raw : String) : Prop :=
  ∃ runs, Runs raw.toList runs ∧ ∃ run ∈ runs, ∀ value, ¬ Decimal.Denotes run value

theorem confidences_iff_hasResidue {raw : String} {error : Error} :
    confidences raw = .error error ↔ HasResidue raw ∧ error = .badConfidence raw := by
  rw [confidences_eq_error_iff, HasResidue]
  simp only [← words_eq_iff, exists_eq_left', Option.eq_none_iff_forall_ne_some, ne_eq,
    Decimal.finite?_eq_some_iff]

/-! ### Texts that are put together -/

theorem confidences_append {left gap right : String} (nonempty : gap ≠ "")
    (blank : AllBlank gap.toList) {values : List Binary64} :
    confidences (left ++ gap ++ right) = .ok values ↔
      ∃ first second, confidences left = .ok first ∧ confidences right = .ok second ∧
        values = first ++ second := by
  have some_blank : gap.toList ≠ [] := fun none => nonempty (String.toList_inj.mp none)
  simp only [confidences_eq_ok_iff, String.toList_append,
    words_append_gap left.toList some_blank blank, List.map_append]
  constructor
  · intro read
    obtain ⟨first, second, rfl, isFirst, isSecond⟩ := List.map_eq_append_iff.mp read.symm
    exact ⟨first, second, isFirst.symm, isSecond.symm, rfl⟩
  · rintro ⟨first, second, isFirst, isSecond, rfl⟩
    rw [isFirst, isSecond, List.map_append]

theorem confidences_blanks {before raw after : String} (blank : AllBlank before.toList)
    (blank' : AllBlank after.toList) {values : List Binary64} :
    confidences (before ++ raw ++ after) = .ok values ↔ confidences raw = .ok values := by
  simp only [confidences_eq_ok_iff, String.toList_append, words_append_blank blank',
    words_blank_append blank]

/-- A word that denotes no finite number is not left over: the whole text is rejected. -/
theorem confidences_residue {raw gap token : String} (nonempty : gap ≠ "")
    (blank : AllBlank gap.toList) (word : Runs token.toList [token.toList])
    (bad : ∀ value, ¬ Decimal.Denotes token.toList value) :
    confidences (raw ++ gap ++ token) = .error (.badConfidence (raw ++ gap ++ token)) := by
  have rejected : confidences token = .error (.badConfidence token) :=
    confidences_iff_hasResidue.mpr ⟨⟨_, word, _, List.mem_singleton_self _, bad⟩, rfl⟩
  cases read : confidences (raw ++ gap ++ token) with
  | ok values =>
    obtain ⟨_, second, _, isSecond, _⟩ := (confidences_append nonempty blank).mp read
    rw [rejected] at isSecond
    cases isSecond
  | error error => rw [(confidences_iff_hasResidue.mp read).2]

/-- A text is read as a whole. It is accepted when each of its words denotes a finite number, with
these numbers as its values, and rejected with all of its text when one does not. Behind blanks,
another text is read on its own, and both must be accepted; blanks at the ends change nothing; and a
last word that denotes no finite number has the whole text rejected. -/
theorem confidences_whole (raw : String) :
    (∀ values, confidences raw = .ok values ↔ Enumerates raw values) ∧
    (∀ error, confidences raw = .error error ↔ HasResidue raw ∧ error = .badConfidence raw) ∧
    (∀ gap other : String, gap ≠ "" → AllBlank gap.toList → ∀ values,
      confidences (raw ++ gap ++ other) = .ok values ↔
        ∃ first second, confidences raw = .ok first ∧ confidences other = .ok second ∧
          values = first ++ second) ∧
    (∀ before after : String, AllBlank before.toList → AllBlank after.toList → ∀ values,
      confidences (before ++ raw ++ after) = .ok values ↔ confidences raw = .ok values) ∧
    ∀ gap token : String, gap ≠ "" → AllBlank gap.toList → Runs token.toList [token.toList] →
      (∀ value, ¬ Decimal.Denotes token.toList value) →
      confidences (raw ++ gap ++ token) = .error (.badConfidence (raw ++ gap ++ token)) :=
  ⟨fun _ => confidences_iff_enumerates, fun _ => confidences_iff_hasResidue,
    fun _ _ nonempty blank _ => confidences_append nonempty blank,
    fun _ _ blank blank' _ => confidences_blanks blank blank',
    fun _ _ nonempty blank word bad => confidences_residue nonempty blank word bad⟩

/-- Two numbers with a third behind them, and with a letter that belongs to none. -/
theorem confidences_whole_of_letter :
    confidences "0.9 0.8" = .ok [⟨0x3FECCCCCCCCCCCCD⟩, ⟨0x3FE999999999999A⟩] ∧
    confidences "0.9 0.8\t -1e-3" =
      .ok [⟨0x3FECCCCCCCCCCCCD⟩, ⟨0x3FE999999999999A⟩, ⟨0xBF50624DD2F1A9FC⟩] ∧
    confidences "\n0.9 0.8 " = .ok [⟨0x3FECCCCCCCCCCCCD⟩, ⟨0x3FE999999999999A⟩] ∧
    (∀ value, ¬ Decimal.Denotes "0.5x".toList value) ∧
    confidences "0.9 0.8 0.5x" = .error (.badConfidence "0.9 0.8 0.5x") := by
  obtain ⟨-, -, append, blanks, residue⟩ := confidences_whole "0.9 0.8"
  have pair : confidences "0.9 0.8" = .ok [⟨0x3FECCCCCCCCCCCCD⟩, ⟨0x3FE999999999999A⟩] := by
    decide +kernel
  have single : confidences "-1e-3" = .ok [⟨0xBF50624DD2F1A9FC⟩] := by decide +kernel
  have word : Runs "0.5x".toList ["0.5x".toList] := words_eq_iff.mp (by decide)
  have bad (value : Binary64) : ¬ Decimal.Denotes "0.5x".toList value := by
    have unread : Decimal.finite? "0.5x".toList = none := by decide
    rw [← Decimal.finite?_eq_some_iff, unread]
    simp
  exact ⟨pair, (append "\t " "-1e-3" (by decide) (by decide) _).mpr ⟨_, _, pair, single, rfl⟩,
    (blanks "\n" " " (by decide) (by decide) _).mpr pair, bad,
    residue " " "0.5x" (by decide) (by decide) word bad⟩

end SystemCombination.Request
