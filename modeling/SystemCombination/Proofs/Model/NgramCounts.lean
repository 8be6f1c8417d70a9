import Mathlib.Order.Bounds.Basic
import Mathlib.Order.Interval.Finset.Nat
import SystemCombination.Proofs.Model.NgramEnd

/-! The counts of a table of n-grams. `countLines` are the lines between the header of the counts
and the next header; a table that is accepted has one count for each of them, and its declared order
is how many there are. What stands in front of `=` is not read, so this is the highest order that
they name just as long as they name every order up to it once. -/

namespace SystemCombination.Model.NgramTable

open Text

/-- The lines between the header of the counts and the next header. -/
def countLines (contents : List (List Char)) : List (List Char) :=
  (contents.dropWhile (· ≠ dataHeader)).tail.takeWhile fun line => line.head? ≠ some '\\'

/-- `ngram` and an order in front of the first `=`, with blanks around the order. -/
def NamesOrder (line : List Char) (order : Nat) : Prop :=
  ∃ label tail numeral, line = "ngram".toList ++ label ++ '=' :: tail ∧ '=' ∉ label ∧
    Trims label numeral ∧ Denotes numeral order ∧ 1 ≤ order

/-- What stands in front of the lines of counts and behind them. -/
theorem exists_cut_countLines {contents : List (List Char)} (started : dataHeader ∈ contents) :
    ∃ before after, contents = before ++ dataHeader :: (countLines contents ++ after) ∧
      dataHeader ∉ before ∧ (∀ line ∈ countLines contents, line.head? ≠ some '\\') ∧
      ∀ line ∈ after.head?, line.head? = some '\\' := by
  obtain ⟨before, rest, cut, fresh⟩ := List.eq_append_cons_of_mem started
  have behind : contents.dropWhile (· ≠ dataHeader) = dataHeader :: rest := by
    rw [cut]
    exact (takeWhile_ne_append fresh (by simp)).2
  have lines : countLines contents = rest.takeWhile fun line => line.head? ≠ some '\\' := by
    rw [countLines, behind, List.tail_cons]
  refine ⟨before, rest.dropWhile fun line => line.head? ≠ some '\\', ?_, fresh, ?_, ?_⟩
  · rw [lines, List.takeWhile_append_dropWhile, cut]
  · intro line member
    rw [lines] at member
    simpa using List.mem_takeWhile_imp member
  · intro line first
    have stops := List.head?_dropWhile_not (fun line => line.head? ≠ some '\\') rest
    rw [Option.mem_def.mp first] at stops
    simpa using stops

/-! ### Reading the parts -/

section Reading

variable {progress next : Progress} {lines : List (List Char)}

/-- Up to the header of the counts nothing is read. -/
theorem foldlM_of_fresh (fresh : dataHeader ∉ lines) :
    lines.foldlM Progress.step {} = .ok {} := by
  induction lines with
  | nil => rfl
  | cons line lines ih =>
    rw [List.mem_cons, not_or] at fresh
    have ⟨other, fresh⟩ := fresh
    have stays : Progress.step {} line = .ok {} := by
      by_cases backslash : line.head? = some '\\'
      · exact step_header {} backslash (opened?_of_preamble (Ne.symm other))
      · rw [Progress.step, if_neg backslash]
    rw [List.foldlM_cons, stays]
    exact ih fresh

/-- Each line of counts that is read declares a count. -/
theorem exists_counts (plain : ∀ line ∈ lines, line.head? ≠ some '\\')
    (part : progress.part = .counts) (run : lines.foldlM Progress.step progress = .ok next) :
    ∃ counts, List.Forall₂ Declares lines counts ∧ next.part = .counts ∧
      next.counts = counts.reverse ++ progress.counts := by
  induction lines generalizing progress with
  | nil =>
    obtain rfl := Except.ok.inj run
    exact ⟨[], .nil, part, rfl⟩
  | cons line lines ih =>
    have ⟨plainLine, plain⟩ := List.forall_mem_cons.mp plain
    obtain ⟨between, step, run⟩ := foldlM_cons_iff.mp run
    rw [Progress.step, if_neg plainLine, part] at step
    cases read : count? line with
    | none =>
      simp only [read] at step
      cases step
    | some count =>
      simp only [read] at step
      obtain rfl := Except.ok.inj step
      obtain ⟨counts, declare, part, eq⟩ := ih plain rfl run
      refine ⟨count :: counts, .cons (count?_eq_some_iff.mp read) declare, part, ?_⟩
      rw [eq, List.reverse_cons, List.append_assoc, List.singleton_append]

/-- From the next header on, no count is added. -/
theorem counts_of_header (first : ∀ line ∈ lines.head?, line.head? = some '\\')
    (part : progress.part = .counts) (run : lines.foldlM Progress.step progress = .ok next) :
    next.counts = progress.counts := by
  cases lines with
  | nil => rw [← Except.ok.inj run]
  | cons line lines =>
    have started : progress.part ≠ .preamble := by simp [part]
    obtain ⟨between, step, rest⟩ := foldlM_cons_iff.mp run
    have header := continues_step_header started (first line rfl) step
    exact (header.trans (continues_foldlM header.part rest)).counts

end Reading

theorem ne_nil_of_finish {progress : Progress} {table : NgramTable}
    (h : progress.finish = .ok table) : table.declared ≠ [] := by
  have eq := eq_of_finish h
  simp only [Progress.finish] at h
  split at h
  · cases h
  · split at h
    · cases h
    · next declared =>
      rw [eq, ne_eq, List.reverse_eq_nil_iff, ← List.isEmpty_iff]
      exact declared

/-- A table that is accepted has one count for each line of counts, and at least one. -/
theorem forall₂_declares {texts : List String} {table : NgramTable}
    (loads : ofLines (texts.map .ok) = .ok table) :
    List.Forall₂ Declares (countLines (contents texts)) table.declared ∧ table.declared ≠ [] := by
  obtain ⟨progress, _, _, run, _, started, finish⟩ := exists_run loads
  obtain ⟨before, after, cut, fresh, plain, first⟩ := exists_cut_countLines started
  rw [cut, List.append_cons] at run
  obtain ⟨between, opening, run⟩ := foldlM_append_iff.mp run
  obtain rfl : { part := .counts } = between := by
    rw [List.foldlM_append, foldlM_of_fresh fresh] at opening
    exact Except.ok.inj opening
  obtain ⟨last, read, rest⟩ := foldlM_append_iff.mp run
  obtain ⟨counts, declare, part, eq⟩ := exists_counts plain rfl read
  have kept := counts_of_header first part rest
  refine ⟨?_, ne_nil_of_finish finish⟩
  rw [eq_of_finish finish, kept, eq, List.append_nil, List.reverse_reverse]
  exact declare

/-! ### The orders that are named -/

section Orders

variable {orders : List Nat} {highest : Nat} (within : ∀ n ∈ orders, n ∈ Finset.Icc 1 highest)

include within

theorem toFinset_subset : orders.toFinset ⊆ Finset.Icc 1 highest :=
  fun n member => within n (List.mem_toFinset.mp member)

/-- Where no order is named twice, there are no more than the highest one, and as many just if none
is left out. -/
theorem length_of_nodup (once : orders.Nodup) : orders.length ≤ highest ∧
    (orders.length = highest ↔ ∀ n ∈ Finset.Icc 1 highest, n ∈ orders) := by
  have inside := toFinset_subset within
  have count := List.toFinset_card_of_nodup once
  have all : (Finset.Icc 1 highest).card = highest := by simp
  have fewer := Finset.card_le_card inside
  refine ⟨by omega, fun same n member => ?_, fun every => ?_⟩
  · rw [← Finset.eq_of_subset_of_card_le inside (by omega), List.mem_toFinset] at member
    exact member
  · have more := Finset.card_le_card fun n member => List.mem_toFinset.mpr (every n member)
    omega

/-- Where no order is left out, there are no fewer than the highest one, and as many just if none is
named twice. -/
theorem length_of_every (every : ∀ n ∈ Finset.Icc 1 highest, n ∈ orders) :
    highest ≤ orders.length ∧ (orders.length = highest ↔ orders.Nodup) := by
  have same : orders.toFinset = Finset.Icc 1 highest :=
    Finset.Subset.antisymm (toFinset_subset within)
      fun n member => List.mem_toFinset.mpr (every n member)
  have count : orders.toFinset.card = highest := by simp [same]
  refine ⟨count ▸ List.toFinset_card_le orders, fun length => ?_, fun once => ?_⟩
  · exact Multiset.toFinset_card_eq_card_iff_nodup.mp (count.trans length.symm)
  · rw [← List.toFinset_card_of_nodup once, count]

end Orders

theorem one_le_of_namesOrder {lines : List (List Char)} {orders : List Nat}
    (names : List.Forall₂ NamesOrder lines orders) : ∀ n ∈ orders, 1 ≤ n := by
  induction names with
  | nil => simp
  | cons names _ ih =>
    obtain ⟨_, _, _, _, _, _, _, positive⟩ := names
    exact List.forall_mem_cons.mpr ⟨positive, ih⟩

/-- Every line between the header of the counts and the next one declares a count of its own, and
the declared order of the table is how many of these lines there are. Where they name orders, this
is at most the highest one unless an order is repeated, at least the highest one unless an order is
left out, and the highest one itself if neither is so. -/
theorem declaredOrder_of_countLines {bytes : List UInt8} {table : NgramTable}
    (loads : ofLines (linesOfBytes bytes) = .ok table) :
    ∃ texts, linesOfBytes bytes = texts.map .ok ∧
      let lines := countLines (contents texts)
      lines ≠ [] ∧ List.Forall₂ Declares lines table.declared ∧
      table.declaredOrder = lines.length ∧
      ∀ orders highest, List.Forall₂ NamesOrder lines orders →
        IsGreatest {n | n ∈ orders} highest →
        (orders.Nodup → table.declaredOrder ≤ highest ∧
          (table.declaredOrder = highest ↔ ∀ n ∈ Finset.Icc 1 highest, n ∈ orders)) ∧
        ((∀ n ∈ Finset.Icc 1 highest, n ∈ orders) → highest ≤ table.declaredOrder ∧
          (table.declaredOrder = highest ↔ orders.Nodup)) := by
  obtain ⟨texts, _, _, readable, -⟩ := (ofLines_linesOfBytes bytes).2 table loads
  rw [readable] at loads
  have ⟨declare, declared⟩ := forall₂_declares loads
  have count : table.declaredOrder = (countLines (contents texts)).length := declare.length_eq.symm
  refine ⟨texts, readable, ?_, declare, count, fun orders highest names isHighest => ?_⟩
  · rw [ne_eq, ← List.length_eq_zero_iff, declare.length_eq, List.length_eq_zero_iff]
    exact declared
  · have within : ∀ n ∈ orders, n ∈ Finset.Icc 1 highest := fun n member =>
      Finset.mem_Icc.mpr ⟨one_le_of_namesOrder names n member, isHighest.2 member⟩
    rw [count, names.length_eq]
    exact ⟨length_of_nodup within, length_of_every within⟩

/-! ### Tables with two lines of counts -/

theorem texts_of_encode {text : String} {texts : List String}
    (readable : linesOfBytes (encode text) = texts.map .ok) :
    texts = (linesOfText text).map String.ofList := by
  rw [linesOfBytes_encode, ← Function.comp_def, ← List.map_map] at readable
  exact ((List.map_inj_right fun _ _ => Except.ok.inj).mp readable).symm

/-- The usual form of a line of counts. -/
theorem namesOrder_of_digits (digits count : List Char) {order : Nat} (nonempty : digits ≠ [])
    (allDigits : digits.all Char.isDigit = true) (value : Nat.ofDigitChars 10 digits 0 = order)
    (positive : 1 ≤ order) :
    NamesOrder ("ngram ".toList ++ digits ++ '=' :: count) order := by
  have isDigit := List.all_eq_true.mp allDigits
  have visible : ∀ c ∈ digits, isBlank c = false := fun c member =>
    isBlank_of_isDigit (isDigit c member)
  refine ⟨' ' :: digits, count, digits, rfl, ?_, ⟨[' '], [], by simp, by decide, by simp [AllBlank],
    fun c first => visible c (List.mem_of_mem_head? first),
    fun c last => visible c (List.mem_of_getLast? last)⟩,
    ⟨digits, .inl rfl, nonempty, isDigit, value⟩, positive⟩
  intro found
  rcases List.mem_cons.mp found with same | inside
  · exact absurd same (by decide)
  · exact absurd (isDigit '=' inside) (by decide)

/-- A table of two orders, the higher one first. -/
def twoOrders : String :=
  "\\data\\\nngram 2=1\nngram 1=2\n\n\\1-grams:\n-1 a\n-1 b\n\n\\2-grams:\n-1 a b\n\n\\end\\\n"

/-- A table that names the orders 2 and 1 is of order 2. -/
theorem declaredOrder_of_countLines_of_twoOrders :
    ∃ table, ofLines (linesOfBytes (encode twoOrders)) = .ok table ∧ table.declared = [1, 2] ∧
      table.declaredOrder = 2 := by
  have loads : ofLines (linesOfBytes (encode twoOrders)) = .ok ⟨.ofList ["a", "b"], [1, 2]⟩ :=
    ofLines_of_read .closing ["a", "b"] [2, 1] rfl (by simp) (by simp) (by simp)
  obtain ⟨texts, readable, -, -, -, compare⟩ := declaredOrder_of_countLines loads
  have lines : countLines (contents texts) = ["ngram 2=1".toList, "ngram 1=2".toList] := by
    rw [texts_of_encode readable]
    decide
  have names : List.Forall₂ NamesOrder (countLines (contents texts)) [2, 1] := by
    rw [lines]
    exact .cons (namesOrder_of_digits ['2'] ['1'] (by decide) (by decide) rfl (by decide))
      (.cons (namesOrder_of_digits ['1'] ['2'] (by decide) (by decide) rfl (by decide))
        .nil)
  have highest : IsGreatest {n | n ∈ [2, 1]} 2 := ⟨by simp, by simp [mem_upperBounds]⟩
  have ⟨_, same⟩ := (compare [2, 1] 2 names highest).1 (by decide)
  exact ⟨_, loads, rfl, same.mpr (by decide)⟩

/-- A table that leaves out an order. -/
def gapped : String :=
  "\\data\\\nngram 1=1\nngram 3=0\n\n\\1-grams:\n-1 a\n\n\\3-grams:\n\n\\end\\\n"

/-- A table whose line of counts names no order. -/
def unnamed : String := "\\data\\\nngram abc=1\n\n\\1-grams:\n-1 a\n\n\\end\\\n"

theorem not_namesOrder_of_letters (order : Nat) : ¬NamesOrder "ngram abc=1".toList order := by
  rintro ⟨label, tail, numeral, line, fresh, trims, ⟨digits, form, -, isDigit, -⟩, -⟩
  have isLabel : " abc".toList = label := by
    have cut : (label ++ '=' :: tail).takeWhile (· ≠ '=') = label :=
      (takeWhile_ne_append fresh (by simp)).1
    have behind := congrArg (List.drop "ngram".toList.length) line
    rw [List.append_assoc, List.drop_left] at behind
    rw [← cut, ← behind]
    decide
  obtain rfl : "abc".toList = numeral := by
    rw [← trim_of_trims trims, ← isLabel]
    decide
  rcases form with rfl | same
  · exact absurd (isDigit 'a' (by decide)) (by decide)
  · exact absurd (List.cons.inj same).1 (by decide)

/-- A table that names the orders 1 and 3 has two lines of counts and the declared order 2, and a
line of counts that names no order is accepted. -/
theorem exists_declaredOrder_ne_highest :
    (∃ table, ofLines (linesOfBytes (encode gapped)) = .ok table ∧
      List.Forall₂ NamesOrder (countLines (contents ((linesOfText gapped).map String.ofList)))
        [1, 3] ∧ IsGreatest {n | n ∈ [1, 3]} 3 ∧ table.declaredOrder = 2) ∧
    ∃ table, ofLines (linesOfBytes (encode unnamed)) = .ok table ∧
      ∃ line ∈ countLines (contents ((linesOfText unnamed).map String.ofList)),
        ∀ order, ¬NamesOrder line order := by
  have lines : countLines (contents ((linesOfText gapped).map String.ofList)) =
      ["ngram 1=1".toList, "ngram 3=0".toList] := by decide
  constructor
  · refine ⟨_, ofLines_of_read .closing ["a"] [0, 1] rfl (by simp) (by simp) (by simp), ?_,
      ⟨by simp, by simp [mem_upperBounds]⟩, rfl⟩
    rw [lines]
    exact .cons (namesOrder_of_digits ['1'] ['1'] (by decide) (by decide) rfl (by decide))
      (.cons (namesOrder_of_digits ['3'] ['0'] (by decide) (by decide) rfl (by decide))
        .nil)
  · exact ⟨_, ofLines_of_read .closing ["a"] [1] rfl (by simp) (by simp) (by simp), _, by decide,
      not_namesOrder_of_letters⟩

end SystemCombination.Model.NgramTable
