import SystemCombination.Proofs.Request.Statement

/-! The assignments of a block, by the places of their lines. `Opens` finds the section that a line
stands in, `Makes` relates a block to each assignment in it, and `Lists` to all of them in order.
`assignments` gives that list, or the first line that is malformed. -/

namespace SystemCombination.Request

open Text

theorem Means.unique {line : List Char} {statement statement' : Statement}
    (h : Means line statement) (h' : Means line statement') : statement = statement' :=
  (ofLine_of_means h).symm.trans (ofLine_of_means h')

def Malformed (line : List Char) : Prop := ∃ content, Means line (.malformed content)

def Heads (line : List Char) : Prop := ∃ title, Means line (.header title)

/-- The section that is open behind the lines `before` has the given title, which is empty where
there is no header. -/
def Opens (before : List (List Char)) (title : List Char) : Prop :=
  (title = [] ∧ ∀ line ∈ before, ¬ Heads line) ∨
    ∃ earlier line later, before = earlier ++ line :: later ∧ Means line (.header title) ∧
      ∀ line ∈ later, ¬ Heads line

/-- An assignment that a line of the block makes. -/
inductive Makes (lines : List (List Char)) : Assignment → Prop
  | intro {before after : List (List Char)} {line name value title : List Char}
      (place : lines = before ++ line :: after) (means : Means line (.assignment name value))
      (opens : Opens before title) :
      Makes lines ⟨qualifier title ++ String.ofList name, String.ofList value, before.length + 1⟩

/-- The assignments of the block, in the order of their lines. -/
structure Lists (lines : List (List Char)) (as : List Assignment) : Prop where
  sorted : as.Pairwise fun a b => a.line < b.line
  mem_iff : ∀ a, a ∈ as ↔ Makes lines a

/-! ### Uniqueness -/

theorem Opens.unique {before : List (List Char)} {title title' : List Char}
    (h : Opens before title) (h' : Opens before title') : title = title' := by
  rcases h with ⟨rfl, none⟩ | ⟨earlier, line, later, rfl, means, none⟩
  · rcases h' with ⟨rfl, -⟩ | ⟨earlier, line, later, rfl, means, -⟩
    · rfl
    · exact absurd ⟨_, means⟩ (none line (by simp))
  · rcases h' with ⟨rfl, none'⟩ | ⟨earlier', line', later', eq, means', none'⟩
    · exact absurd ⟨_, means⟩ (none' line (by simp))
    · obtain ⟨-, rfl, -⟩ := cut_last_unique (p := Heads) eq ⟨_, means⟩ ⟨_, means'⟩ none none'
      cases means.unique means'
      rfl

/-- A block has one list of assignments. -/
theorem Lists.unique {lines : List (List Char)} {as as' : List Assignment} (h : Lists lines as)
    (h' : Lists lines as') : as = as' := by
  have nodup {bs : List Assignment} (sorted : bs.Pairwise fun a b => a.line < b.line) : bs.Nodup :=
    sorted.imp fun {a b} less same => absurd less (by simp [same])
  have perm : as.Perm as' := (List.perm_ext_iff_of_nodup (nodup h.sorted) (nodup h'.sorted)).mpr
    fun a => (h.mem_iff a).trans (h'.mem_iff a).symm
  refine perm.eq_of_pairwise ?_ h.sorted h'.sorted
  intro a b _ _ less less'
  omega

/-! ### One more line -/

theorem opens_nil : Opens [] [] := .inl ⟨rfl, by simp⟩

theorem Opens.concat {before : List (List Char)} {title line : List Char} (h : Opens before title)
    (plain : ¬ Heads line) : Opens (before ++ [line]) title := by
  rcases h with ⟨rfl, none⟩ | ⟨earlier, header, later, rfl, means, none⟩
  · refine .inl ⟨rfl, fun other member => ?_⟩
    rcases List.mem_append.mp member with old | new
    · exact none other old
    · rwa [List.mem_singleton.mp new]
  · refine .inr ⟨earlier, header, later ++ [line], by simp, means, fun other member => ?_⟩
    rcases List.mem_append.mp member with old | new
    · exact none other old
    · rwa [List.mem_singleton.mp new]

theorem opens_header {before : List (List Char)} {title line : List Char}
    (means : Means line (.header title)) : Opens (before ++ [line]) title :=
  .inr ⟨before, line, [], rfl, means, by simp⟩

theorem Makes.line_le {lines : List (List Char)} {a : Assignment} (h : Makes lines a) :
    a.line ≤ lines.length := by
  obtain ⟨rfl, -, -⟩ := h
  simp only [List.length_append, List.length_cons]
  omega

theorem lists_nil : Lists [] [] := by
  refine ⟨.nil, fun a => iff_of_false List.not_mem_nil ?_⟩
  rintro ⟨place, -, -⟩
  simp at place

/-- What one more line adds to the assignments of a block. -/
theorem makes_concat_iff {before : List (List Char)} {line : List Char} {a : Assignment} :
    Makes (before ++ [line]) a ↔ Makes before a ∨
      ∃ name value title, Means line (.assignment name value) ∧ Opens before title ∧
        a = ⟨qualifier title ++ String.ofList name, String.ofList value, before.length + 1⟩ := by
  constructor
  · rintro ⟨place, means, opens⟩
    next earlier later other name value title =>
    rcases List.eq_nil_or_concat later with rfl | ⟨later, last, rfl⟩
    · obtain ⟨rfl, same⟩ := List.append_inj' place rfl
      cases same
      exact .inr ⟨name, value, title, means, opens, rfl⟩
    · rw [List.concat_eq_append, ← List.cons_append, ← List.append_assoc] at place
      obtain ⟨rfl, -⟩ := List.append_inj' place rfl
      exact .inl ⟨rfl, means, opens⟩
  · rintro (⟨place, means, opens⟩ | ⟨name, value, title, means, opens, rfl⟩)
    · next earlier later other name value title =>
      have place' : before ++ [line] = earlier ++ other :: (later ++ [line]) := by simp [place]
      exact .intro place' means opens
    · exact .intro rfl means opens

/-- A line that is no assignment leaves the list as it is. -/
theorem Lists.skip {before : List (List Char)} {as : List Assignment} {line : List Char}
    (h : Lists before as) (plain : ∀ name value, ¬ Means line (.assignment name value)) :
    Lists (before ++ [line]) as := by
  refine ⟨h.sorted, fun a => ?_⟩
  rw [h.mem_iff, makes_concat_iff, or_iff_left]
  rintro ⟨name, value, -, means, -⟩
  exact plain name value means

/-- An assignment is listed last. -/
theorem Lists.concat {before : List (List Char)} {as : List Assignment}
    {line name value title : List Char} (h : Lists before as)
    (means : Means line (.assignment name value)) (opens : Opens before title) :
    Lists (before ++ [line]) (as ++
      [⟨qualifier title ++ String.ofList name, String.ofList value, before.length + 1⟩]) := by
  constructor
  · refine List.pairwise_append.mpr ⟨h.sorted, List.pairwise_singleton _ _, ?_⟩
    intro a member b isNew
    rw [List.mem_singleton.mp isNew]
    have := ((h.mem_iff a).mp member).line_le
    show a.line < before.length + 1
    omega
  · intro a
    rw [List.mem_append, List.mem_singleton, h.mem_iff, makes_concat_iff]
    refine or_congr_right ⟨fun same => ⟨name, value, title, means, opens, same⟩, ?_⟩
    rintro ⟨name', value', title', means', opens', rfl⟩
    cases means.unique means'
    cases opens.unique opens'
    rfl

/-! ### The whole block -/

/-- What reading lines gives, after the lines `before`: all assignments, or the first malformed
line. -/
def Outcome (before lines : List (List Char)) : Except Error (List Assignment) → Prop
  | .ok as => Lists (before ++ lines) as ∧ ∀ line ∈ lines, ¬ Malformed line
  | .error error => ∃ earlier line later content, lines = earlier ++ line :: later ∧
      (∀ other ∈ earlier, ¬ Malformed other) ∧ Means line (.malformed content) ∧
      error = .malformedLine (before.length + earlier.length + 1) (String.ofList content)

/-- The outcome for lines, one of which has been read. -/
theorem Outcome.cons {before lines : List (List Char)} {line : List Char}
    {result : Except Error (List Assignment)} (h : Outcome (before ++ [line]) lines result)
    (formed : ¬ Malformed line) : Outcome before (line :: lines) result := by
  cases result with
  | ok as =>
    obtain ⟨lists, none⟩ := h
    refine ⟨by simpa using lists, fun other member => ?_⟩
    rcases List.mem_cons.mp member with rfl | later
    · exact formed
    · exact none other later
  | error error =>
    obtain ⟨earlier, bad, later, content, rfl, none, means, rfl⟩ := h
    refine ⟨line :: earlier, bad, later, content, rfl, fun other member => ?_, means, ?_⟩
    · rcases List.mem_cons.mp member with rfl | later
      · exact formed
      · exact none other later
    · simp only [List.length_append, List.length_cons, List.length_nil]
      congr 1
      omega

/-- The invariant of reading is that the assignments found so far are those of the lines that have
been read, and that the open section is theirs. -/
theorem outcome_assignmentsFrom (lines : List (List Char)) :
    ∀ {before : List (List Char)} {found : List Assignment} {title : List Char},
      Lists before found.reverse → Opens before title →
      Outcome before lines
        (assignmentsFrom found (qualifier title) (before.length + 1) lines) := by
  induction lines with
  | nil =>
    intro before found title lists opens
    exact ⟨by simpa using lists, by simp⟩
  | cons line lines ih =>
    intro before found title lists opens
    have next : (before ++ [line]).length = before.length + 1 := by simp
    unfold assignmentsFrom
    -- Each case hands the invariant for one more line to the induction hypothesis.
    cases h : Statement.ofLine line with
    | blank =>
      have means := means_iff.mpr h
      have lists' := lists.skip fun name value other => nomatch means.unique other
      have opens' := opens.concat fun ⟨title, other⟩ => nomatch means.unique other
      have rest := ih lists' opens'
      rw [next] at rest
      exact rest.cons fun ⟨content, other⟩ => nomatch means.unique other
    | header title' =>
      have means := means_iff.mpr h
      have lists' := lists.skip fun name value other => nomatch means.unique other
      have rest := ih lists' (opens_header means)
      rw [next] at rest
      exact rest.cons fun ⟨content, other⟩ => nomatch means.unique other
    | assignment name value =>
      have means := means_iff.mpr h
      have lists' := lists.concat means opens
      rw [← List.reverse_cons] at lists'
      have opens' := opens.concat fun ⟨title, other⟩ => nomatch means.unique other
      have rest := ih lists' opens'
      rw [next] at rest
      exact rest.cons fun ⟨content, other⟩ => nomatch means.unique other
    | malformed content =>
      exact ⟨[], line, lines, content, rfl, by simp, means_iff.mpr h, rfl⟩

theorem outcome_assignments (text : String) : Outcome [] (linesOfText text) (assignments text) :=
  outcome_assignmentsFrom (linesOfText text) lists_nil opens_nil

theorem Outcome.unique {lines : List (List Char)} {result result' : Except Error (List Assignment)}
    (h : Outcome [] lines result) (h' : Outcome [] lines result') : result = result' := by
  cases result with
  | ok as =>
    cases result' with
    | ok as' => rw [h.1.unique h'.1]
    | error error' =>
      obtain ⟨earlier, line, later, content, rfl, -, means, -⟩ := h'
      exact absurd ⟨content, means⟩ (h.2 line (by simp))
  | error error =>
    obtain ⟨earlier, line, later, content, rfl, none, means, rfl⟩ := h
    cases result' with
    | ok as' => exact absurd ⟨content, means⟩ (h'.2 line (by simp))
    | error error' =>
      obtain ⟨earlier', line', later', content', cut, none', means', rfl⟩ := h'
      obtain ⟨rfl, rfl, -⟩ :=
        cut_first_unique (p := Malformed) cut ⟨_, means⟩ ⟨_, means'⟩ none none'
      cases means.unique means'
      rfl

theorem assignments_eq_iff {text : String} {result : Except Error (List Assignment)} :
    assignments text = result ↔ Outcome [] (linesOfText text) result :=
  ⟨fun h => h ▸ outcome_assignments text, (outcome_assignments text).unique⟩

end SystemCombination.Request
