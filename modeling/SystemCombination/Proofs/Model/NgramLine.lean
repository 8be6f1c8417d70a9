import SystemCombination.Model.NgramTable
import SystemCombination.Proofs.Cut
import SystemCombination.Proofs.Text.Blank
import SystemCombination.Proofs.Text.Count

/-! What a line of a table of n-grams says, as a grammar: `Opens` for headers, `Declares` for
counts, and `Entry` for n-grams. Each is tied to the function that reads such a line. -/

namespace SystemCombination.Model.NgramTable

open Text

/-- The header that opens the counts. -/
def dataHeader : List Char := "\\data\\".toList

/-- The header and the part that it opens. -/
inductive Opens : List Char → Part → Prop
  | data : Opens dataHeader .counts
  | closing : Opens "\\end\\".toList .closing
  | grams {numeral : List Char} {order : Nat} (denotes : Denotes numeral order)
      (positive : 1 ≤ order) (fits : order ≤ largestNumber) :
      Opens ('\\' :: (numeral ++ "-grams:".toList)) (.grams order)

/-- `ngram`, a label without `=`, `=`, and a number with blanks around it. -/
def Declares (line : List Char) (count : Nat) : Prop :=
  ∃ label tail numeral, line = "ngram".toList ++ label ++ '=' :: tail ∧ '=' ∉ label ∧
    Trims tail numeral ∧ Denotes numeral count ∧ count ≤ largestNumber

/-- A number, and behind it words, at least as many as an n-gram of the order has. -/
def Entry (order : Nat) (line : List Char) (words : List (List Char)) : Prop :=
  ∃ probability, Text.words line = probability :: words ∧
    (Decimal.number? probability).isSome = true ∧ order ≤ words.length

theorem gramsOrder?_eq_some_iff {header : List Char} {order : Nat} :
    gramsOrder? header = some order ↔
      ∃ numeral, header = '\\' :: (numeral ++ "-grams:".toList) ∧ Denotes numeral order ∧
        1 ≤ order ∧ order ≤ largestNumber := by
  have numbered {numeral : List Char} :
      (natural? largestNumber numeral).filter (1 ≤ ·) = some order ↔
        Denotes numeral order ∧ 1 ≤ order ∧ order ≤ largestNumber := by
    rw [Option.filter_eq_some_iff, natural?_eq_some_iff, decide_eq_true_eq]
    exact and_assoc.trans (and_congr_right fun _ => and_comm)
  constructor
  · intro h
    simp only [gramsOrder?] at h
    split at h
    · next rest =>
      split at h
      · next ending =>
        obtain ⟨numeral, rfl⟩ := List.isSuffixOf_iff_suffix.mp ending
        rw [List.length_append, Nat.add_sub_cancel, List.take_left] at h
        exact ⟨numeral, rfl, numbered.mp h⟩
      · cases h
    · cases h
  · rintro ⟨numeral, rfl, isOrder⟩
    have ending : ("-grams:".toList.isSuffixOf (numeral ++ "-grams:".toList)) = true :=
      List.isSuffixOf_iff_suffix.mpr (List.suffix_append ..)
    simp only [gramsOrder?, ending, if_true, List.length_append, Nat.add_sub_cancel,
      List.take_left]
    exact numbered.mpr isOrder

example : gramsOrder? "\\+2-grams:".toList = some 2 ∧ gramsOrder? "\\0-grams:".toList = none := by
  decide

theorem getLast?_gramsHeader (numeral : List Char) :
    ('\\' :: (numeral ++ "-grams:".toList)).getLast? = some ':' := by
  rw [← List.cons_append, List.getLast?_append]
  rfl

theorem Opens.head? {header : List Char} {part : Part} (h : Opens header part) :
    header.head? = some '\\' := by
  cases h <;> rfl

theorem opened?_dataHeader (part : Part) :
    opened? part dataHeader = if part = .preamble then some .counts else none :=
  if_pos rfl

theorem opened?_of_preamble {header : List Char} (other : header ≠ dataHeader) :
    opened? .preamble header = some .preamble := by
  have other' : header ≠ "\\data\\".toList := other
  rw [opened?, if_neg other', if_pos rfl]

/-- Once the counts have been opened, a header other than theirs opens the part that the grammar
gives. -/
theorem opened?_eq_some_iff {part next : Part} {header : List Char} (started : part ≠ .preamble)
    (other : header ≠ dataHeader) : opened? part header = some next ↔ Opens header next := by
  have other' : header ≠ "\\data\\".toList := other
  rw [opened?, if_neg other', if_neg started]
  split
  · next closing =>
    subst closing
    constructor
    · intro same
      obtain rfl := Option.some.inj same
      exact .closing
    · intro opens
      generalize isHeader : "\\end\\".toList = header at opens
      cases opens with
      | data => exact absurd isHeader (by decide)
      | closing => rfl
      | grams =>
        have last := getLast?_gramsHeader _ ▸ congrArg List.getLast? isHeader
        exact absurd last (by decide)
  · next open' =>
    rw [Option.map_eq_some_iff]
    simp only [gramsOrder?_eq_some_iff]
    constructor
    · rintro ⟨order, ⟨numeral, rfl, denotes, positive, fits⟩, rfl⟩
      exact .grams denotes positive fits
    · intro opens
      cases opens with
      | data => exact absurd rfl other
      | closing => exact absurd rfl open'
      | grams denotes positive fits => exact ⟨_, ⟨_, rfl, denotes, positive, fits⟩, rfl⟩

theorem Opens.unique {header : List Char} {part part' : Part} (h : Opens header part)
    (h' : Opens header part') : part = part' := by
  by_cases data : header = dataHeader
  · have only {part : Part} (h : Opens header part) : part = .counts := by
      cases h with
      | data => rfl
      | closing => exact absurd data (by decide)
      | grams =>
        have last := getLast?_gramsHeader _ ▸ congrArg List.getLast? data
        exact absurd last (by decide)
    rw [only h, only h']
  · have started : Part.counts ≠ .preamble := by decide
    have found := (opened?_eq_some_iff started data).mpr h
    have found' := (opened?_eq_some_iff started data).mpr h'
    exact Option.some.inj (found.symm.trans found')

theorem count?_eq_some_iff {line : List Char} {count : Nat} :
    count? line = some count ↔ Declares line count := by
  have first (tail : List Char) : ∀ c ∈ ('=' :: tail).head?, c = '=' := by simp
  constructor
  · intro h
    simp only [count?] at h
    split at h
    · next starts =>
      obtain ⟨rest, rfl⟩ := List.isPrefixOf_iff_prefix.mp starts
      rw [List.drop_left] at h
      split at h
      · next mark number cut =>
        have mark' : mark = '=' := by
          have stops := List.head?_dropWhile_not (· ≠ '=') rest
          rw [cut] at stops
          simpa using stops
        subst mark'
        obtain ⟨denotes, fits⟩ := natural?_eq_some_iff.mp h
        refine ⟨rest.takeWhile (· ≠ '='), number, trim number, ?_, ?_, trims_trim number, denotes,
          fits⟩
        · rw [List.append_assoc, ← cut, List.takeWhile_append_dropWhile]
        · intro found
          simpa using List.mem_takeWhile_imp found
      · cases h
    · cases h
  · rintro ⟨label, tail, numeral, rfl, fresh, trims, denotes, fits⟩
    have starts : ("ngram".toList.isPrefixOf ("ngram".toList ++ label ++ '=' :: tail)) = true := by
      rw [List.isPrefixOf_iff_prefix, List.append_assoc]
      exact List.prefix_append ..
    have cut : (("ngram".toList ++ label ++ '=' :: tail).drop "ngram".toList.length).dropWhile
        (· ≠ '=') = '=' :: tail := by
      rw [List.append_assoc, List.drop_left]
      exact (takeWhile_ne_append fresh (first tail)).2
    simp only [count?, starts, if_true, cut, trim_of_trims trims]
    exact natural?_eq_some_iff.mpr ⟨denotes, fits⟩

example : Declares "ngrams of order 1= +7 ".toList 7 := count?_eq_some_iff.mp (by decide)

theorem read_of_entry {order : Nat} {line : List Char} {words : List (List Char)}
    (h : Entry order line words) : gram? order line = some (words.take order) := by
  obtain ⟨probability, cut, number, long⟩ := h
  simp only [gram?, cut, number, long, and_self, if_true]

theorem unread_of_no_entry {order : Nat} {line : List Char}
    (h : ∀ words, ¬ Entry order line words) : gram? order line = none := by
  unfold gram?
  split
  · next probability words cut =>
    exact if_neg fun ⟨number, long⟩ => h words ⟨probability, cut, number, long⟩
  · rfl

end SystemCombination.Model.NgramTable
