/-! Lines. `lines cr lf xs` cuts `xs` at every `lf` and takes one `cr` off the end of each line
that an `lf` ends; what follows the last `lf` is a line of its own unless it is empty. The same
rule cuts characters and bytes. -/

namespace SystemCombination.Text

variable {α : Type} [BEq α]

/-- The line without one `cr` at its end. -/
def dropEnd (cr : α) (line : List α) : List α :=
  match line.getLast? with
  | some last => if last == cr then line.dropLast else line
  | none => line

/-- The lines of `xs`, each without its end. -/
def lines (cr lf : α) (xs : List α) : List (List α) :=
  let cut := xs.splitOn lf
  cut.dropLast.map (dropEnd cr) ++
    match cut.getLast? with
    | some last => if last.isEmpty then [] else [last]
    | none => []

@[simp] theorem lines_nil (cr lf : α) : lines cr lf [] = [] := by
  simp [lines, List.splitOn_nil]

/-- A line that is ended stands in front of the lines of what follows. -/
theorem lines_append [LawfulBEq α] (cr lf : α) {line : List α} (h : lf ∉ line) (rest : List α) :
    lines cr lf (line ++ lf :: rest) = dropEnd cr line :: lines cr lf rest := by
  have cut := List.splitOn_append_cons_self_of_not_mem h rest
  have ne := List.splitOn_ne_nil lf rest
  obtain ⟨first, others, eq⟩ := List.exists_cons_of_ne_nil ne
  simp [lines, cut, eq, List.dropLast_cons_of_ne_nil]

end SystemCombination.Text
