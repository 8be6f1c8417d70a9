import Mathlib.Data.List.TakeWhile
import SystemCombination.Text.Blank

/-! What trimming and cutting into words do to a text. `Trims` describes the trimmed text by what
was taken off, and `trim_eq_iff` says that `trim` finds it. -/

namespace SystemCombination.Text

/-- A text with no blank at either end. -/
def Tight (cs : List Char) : Prop :=
  (∀ c ∈ cs.head?, isBlank c = false) ∧ ∀ c ∈ cs.getLast?, isBlank c = false

instance (cs : List Char) : Decidable (Tight cs) :=
  decidable_of_iff (cs.head?.all (fun c => !isBlank c) = true ∧
    cs.getLast?.all (fun c => !isBlank c) = true) (by simp [Tight, Option.all_eq_true])

/-- `content` is `raw` without the blanks around it. -/
def Trims (raw content : List Char) : Prop :=
  ∃ left right, raw = left ++ content ++ right ∧ AllBlank left ∧ AllBlank right ∧ Tight content

theorem AllBlank.append {left right : List Char} (h : AllBlank left) (h' : AllBlank right) :
    AllBlank (left ++ right) :=
  fun c member => (List.mem_append.mp member).elim (h c) (h' c)

/-- What is not blank is not among blanks. -/
theorem AllBlank.not_mem {cs : List Char} {c : Char} (h : AllBlank cs)
    (visible : isBlank c = false) : c ∉ cs := by
  intro member
  rw [h c member] at visible
  cases visible

theorem allBlank_reverse {cs : List Char} : AllBlank cs.reverse ↔ AllBlank cs := by
  simp [AllBlank]

theorem tight_nil : Tight [] := by simp [Tight]

/-- Whether a text is tight is decided at its ends. -/
theorem tight_append {left middle right : List Char} (nonempty : left ≠ [])
    (first : ∀ c ∈ left.head?, isBlank c = false) (nonempty' : right ≠ [])
    (last : ∀ c ∈ right.getLast?, isBlank c = false) : Tight (left ++ middle ++ right) := by
  constructor
  · obtain ⟨c, cs, rfl⟩ := List.exists_cons_of_ne_nil nonempty
    exact first
  · intro c isLast
    rw [List.getLast?_append, List.getLast?_eq_some_getLast nonempty', Option.some_or] at isLast
    exact last c ((List.getLast?_eq_some_getLast nonempty').trans isLast)

theorem allBlank_takeWhile (cs : List Char) : AllBlank (cs.takeWhile isBlank) :=
  fun _ => List.mem_takeWhile_imp

theorem head?_dropWhile_blank (cs : List Char) :
    ∀ c ∈ (cs.dropWhile isBlank).head?, isBlank c = false := by
  intro c first
  have h := List.head?_dropWhile_not isBlank cs
  rw [Option.mem_def.mp first] at h
  exact h

/-- Blanks in front of a text that does not begin with one are dropped, and only they. -/
theorem dropWhile_blank_append {left cs : List Char} (blank : AllBlank left)
    (tight : ∀ c ∈ cs.head?, isBlank c = false) : (left ++ cs).dropWhile isBlank = cs := by
  rw [List.dropWhile_append_of_pos blank]
  cases cs with
  | nil => rfl
  | cons c cs => exact List.dropWhile_cons_of_neg (by simp [tight c rfl])

/-- What `trimEnd` leaves and the blanks that it takes off make up the text. -/
theorem trimEnd_spec (cs : List Char) :
    ∃ right, cs = trimEnd cs ++ right ∧ AllBlank right ∧
      ∀ c ∈ (trimEnd cs).getLast?, isBlank c = false := by
  refine ⟨(cs.reverse.takeWhile isBlank).reverse, ?_, ?_, ?_⟩
  · rw [trimEnd, ← List.reverse_append, List.takeWhile_append_dropWhile, List.reverse_reverse]
  · exact allBlank_reverse.mpr (allBlank_takeWhile _)
  · rw [trimEnd, List.getLast?_reverse]
    exact head?_dropWhile_blank _

theorem trims_trim (raw : List Char) : Trims raw (trim raw) := by
  obtain ⟨right, whole, blank, last⟩ := trimEnd_spec (raw.dropWhile isBlank)
  refine ⟨raw.takeWhile isBlank, right, ?_, allBlank_takeWhile raw, blank, ?_, last⟩
  · rw [List.append_assoc, trim, ← whole, List.takeWhile_append_dropWhile]
  · intro c first
    refine head?_dropWhile_blank raw c ?_
    rw [whole, List.head?_append, ← trim, Option.mem_def.mp first]
    rfl

theorem trim_of_trims {raw content : List Char} (h : Trims raw content) : trim raw = content := by
  obtain ⟨left, right, rfl, blank, blank', first, last⟩ := h
  rw [List.append_assoc, trim]
  by_cases empty : content = []
  · have all : (left ++ ([] ++ right)).dropWhile isBlank = [] :=
      List.dropWhile_eq_nil_iff.mpr (blank.append blank')
    rw [empty, all]
    rfl
  · have front : ∀ c ∈ (content ++ right).head?, isBlank c = false := by
      obtain ⟨c, cs, rfl⟩ := List.exists_cons_of_ne_nil empty
      exact first
    rw [dropWhile_blank_append blank front, trimEnd, List.reverse_append,
      dropWhile_blank_append (allBlank_reverse.mpr blank') (by rwa [List.head?_reverse]),
      List.reverse_reverse]

theorem trim_eq_iff {raw content : List Char} : trim raw = content ↔ Trims raw content :=
  ⟨fun h => h ▸ trims_trim raw, trim_of_trims⟩

theorem Trims.subset {raw content : List Char} (h : Trims raw content) : content ⊆ raw := by
  obtain ⟨left, right, rfl, -⟩ := h
  intro c member
  simp [member]

/-- A text is blank when nothing stays of it. -/
theorem trims_nil_iff {raw : List Char} : Trims raw [] ↔ AllBlank raw := by
  constructor
  · rintro ⟨left, right, rfl, blank, blank', -⟩
    simpa using blank.append blank'
  · intro blank
    exact ⟨raw, [], by simp, blank, by simp [AllBlank], tight_nil⟩

theorem trim_eq_nil_iff {raw : List Char} : trim raw = [] ↔ AllBlank raw :=
  trim_eq_iff.trans trims_nil_iff

end SystemCombination.Text
