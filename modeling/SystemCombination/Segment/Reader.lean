import SystemCombination.Segment.Alignment
import SystemCombination.Segment.Failure
import SystemCombination.Text.Blank
import SystemCombination.Text.Input

/-! Reading a matched file. A segment is a paragraph, a maximal run of lines that are not blank,
with a line for each confidence. A line that cannot be read ends the paragraph without a segment;
a paragraph of another size uses up a number. Reading goes on after either. -/

namespace SystemCombination

/-- What is left of a matched file. -/
structure Reader where
  lines : List Text.Line
  /-- The number of the next segment. -/
  nextIndex : Nat := 0

namespace Reader

/-- The line of a system, with its tokens looked up. -/
def rendition (vocabulary : Vocabulary) (line : String) (confidence : Binary64) : Rendition :=
  let tokens := (Text.words line.toList).map String.ofList
  { tokens, numbers := tokens.map vocabulary.index?, confidence }

def segmentOf (settings : InputSettings) (vocabulary : Vocabulary) (index : Nat)
    (paragraph : List String) : Segment :=
  let systems := paragraph.zipWith (rendition vocabulary) settings.confidences
  { index, systems, alignments := Alignment.table settings (systems.map Rendition.tokens) }

/-- The rest of the paragraph that `found` begins, the latest line first, and the lines after it.
The paragraph is empty only when the lines are used up. -/
def paragraph : List String → List Text.Line → Except IoError (List String) × List Text.Line
  | found, [] => (.ok found.reverse, [])
  | _, .error error :: lines => (.error error, lines)
  | found, .ok line :: lines =>
    if Text.AllBlank line.toList then
      match found with
      | [] => paragraph [] lines
      | _ :: _ => (.ok found.reverse, lines)
    else paragraph (line :: found) lines

/-- No line is read twice. -/
theorem paragraph_length_le (found : List String) (lines : List Text.Line) :
    (paragraph found lines).2.length ≤ lines.length := by
  induction lines generalizing found with
  | nil => simp [paragraph]
  | cons line lines ih =>
    rcases line with error | line
    · simp [paragraph]
    · simp only [paragraph]
      split
      · split
        · exact Nat.le_succ_of_le (ih [])
        · simp
      · exact Nat.le_succ_of_le (ih _)

/-- A paragraph that is not empty takes a line. -/
theorem paragraph_length_lt {found : List String} {line : Text.Line} {lines : List Text.Line} :
    (paragraph found (line :: lines)).2.length < (line :: lines).length := by
  rcases line with error | line
  · simp [paragraph]
  · simp only [paragraph]
    split
    · split
      · exact Nat.lt_succ_of_le (paragraph_length_le [] lines)
      · simp
    · exact Nat.lt_succ_of_le (paragraph_length_le _ lines)

/-- The next segment of the file at `path`, if there is one, and what is left after it. -/
def next (settings : InputSettings) (vocabulary : Vocabulary) (path : String) (reader : Reader) :
    Except DecodeFailure (Option Segment) × Reader :=
  match paragraph [] reader.lines with
  | (.error error, lines) => (.error (.read path error), { reader with lines })
  | (.ok [], lines) => (.ok none, { reader with lines })
  | (.ok found, lines) =>
    let index := reader.nextIndex
    let reader : Reader := { lines, nextIndex := index + 1 }
    let expected := settings.confidences.length
    if found.length = expected then
      (.ok (some (segmentOf settings vocabulary index found)), reader)
    else (.error (.inputShape index expected found.length), reader)

/-- A call that yields a segment or an error takes a line. -/
theorem next_length_lt (settings : InputSettings) (vocabulary : Vocabulary) (path : String)
    (reader : Reader) (h : (reader.next settings vocabulary path).1 ≠ .ok none) :
    (reader.next settings vocabulary path).2.lines.length < reader.lines.length := by
  have lines_eq :
      (reader.next settings vocabulary path).2.lines = (paragraph [] reader.lines).2 := by
    unfold next
    split
    · next h' => rw [h']
    · next h' => rw [h']
    · next h' => rw [h']; dsimp only; split <;> rfl
  rw [lines_eq]
  match h' : reader.lines with
  | [] => exact absurd (by simp [next, h', paragraph]) h
  | line :: lines => exact paragraph_length_lt

/-- What calls of `next` yield, up to the first that yields nothing. -/
def results (settings : InputSettings) (vocabulary : Vocabulary) (path : String) (reader : Reader) :
    List (Except DecodeFailure Segment) :=
  match _ : reader.next settings vocabulary path with
  | (.error error, rest) => .error error :: results settings vocabulary path rest
  | (.ok (some segment), rest) => .ok segment :: results settings vocabulary path rest
  | (.ok none, _) => []
termination_by reader.lines.length
decreasing_by
  all_goals
    rename_i h
    have shorter := next_length_lt settings vocabulary path reader (by rw [h]; simp)
    rwa [h] at shorter

end Reader

end SystemCombination
