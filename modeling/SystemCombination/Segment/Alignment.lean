import SystemCombination.Distinct
import SystemCombination.Request.Basic
import SystemCombination.Segment.Basic

/-! The alignment of the lines of a segment. A token matches the same word in another line at most
`radius` positions away. With `pickBest` only the nearest match in each line counts, the leftmost
of two as near. With `transitive` a token is also aligned with what its matches match, one in each
line with `pickBest`. -/

namespace SystemCombination.Alignment

def distance (p q : Nat) : Nat := (p - q) + (q - p)

/-- The positions of a word that are at most `radius` away from `position`, in order. -/
def candidates (word : String) (position radius : Nat) (tokens : Array String) : List Nat :=
  let first := position - radius
  let count := min (position + radius + 1) tokens.size - first
  (List.range' first count).filter fun q => tokens[q]?.any fun token => token = word

theorem mem_candidates {word : String} {position radius : Nat} {tokens : Array String} {q : Nat} :
    q ∈ candidates word position radius tokens ↔
      tokens[q]? = some word ∧ distance position q ≤ radius := by
  have stands : (tokens[q]?.any fun token => token = word) = true ↔ tokens[q]? = some word := by
    cases tokens[q]? <;> simp
  simp only [candidates, List.mem_filter, List.mem_range'_1, stands, distance]
  constructor
  · rintro ⟨_, found⟩
    exact ⟨found, by omega⟩
  · rintro ⟨found, near⟩
    have ⟨inside, _⟩ := Array.getElem?_eq_some_iff.mp found
    exact ⟨by omega, found⟩

/-- The candidates that count as matches. -/
def chosen (pickBest : Bool) (position : Nat) (positions : List Nat) : List Nat :=
  if pickBest then (positions.minOn? (distance position)).toList else positions

/-- The tokens that match a word at a place of a line, by system and then by position. -/
def matchesOf (settings : InputSettings) (lines : List (Array String)) (place : TokenRef)
    (word : String) : List TokenRef :=
  lines.zipIdx.flatMap fun (line, other) =>
    if other = place.system then []
    else
      (chosen settings.pickBest place.position
        (candidates word place.position settings.radius line)).map fun q => ⟨other, q⟩

def direct (settings : InputSettings) (lines : List (List String)) : AlignmentTable :=
  let arrays := lines.map List.toArray
  lines.zipIdx.map fun (line, system) =>
    line.zipIdx.map fun (word, position) => matchesOf settings arrays ⟨system, position⟩ word

/-- What a token is known by: with `pickBest` its line alone. -/
def knownBy (pickBest : Bool) (token : TokenRef) : Nat × Nat :=
  (token.system, if pickBest then 0 else token.position)

/-- The matches of a token of `system`, and after them those tokens of other lines that they match
in turn and that are not known yet, each once. -/
def closeCell (pickBest : Bool) (matched : TokenRef → List TokenRef) (system : Nat)
    (cell : List TokenRef) : List TokenRef :=
  let onward := (cell.flatMap matched).filter fun target => target.system ≠ system
  cell ++ distinct (knownBy pickBest) (Std.HashSet.ofList (cell.map (knownBy pickBest))) onward

/-- The table with every cell closed by one step through a third system. -/
def close (pickBest : Bool) (table : AlignmentTable) : AlignmentTable :=
  let rows := (table.map List.toArray).toArray
  let matched := fun (token : TokenRef) =>
    (rows[token.system]?.getD #[])[token.position]?.getD []
  table.zipIdx.map fun (row, system) => row.map (closeCell pickBest matched system)

/-- The cells are looked up by their places. -/
theorem close_eq (pickBest : Bool) (table : AlignmentTable) :
    close pickBest table =
      table.zipIdx.map fun (row, system) => row.map (closeCell pickBest table.at system) := by
  have same : (fun (token : TokenRef) =>
      ((table.map List.toArray).toArray[token.system]?.getD #[])[token.position]?.getD []) =
      table.at := by
    funext token
    simp only [AlignmentTable.at, AlignmentTable.row, List.getElem?_toArray, List.getElem?_map]
    cases table[token.system]? <;> simp
  simp only [close, same]

def table (settings : InputSettings) (lines : List (List String)) : AlignmentTable :=
  let matched := direct settings lines
  if settings.transitive then close settings.pickBest matched else matched

end SystemCombination.Alignment
