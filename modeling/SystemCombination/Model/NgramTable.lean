import SystemCombination.Decimal.Numeral
import SystemCombination.Model.Fault
import SystemCombination.Text.Blank
import SystemCombination.Text.Count
import SystemCombination.Text.Input
import SystemCombination.Vocabulary

/-! Tables of n-grams in ARPA format. Lines are trimmed and blank ones skipped. `\data\` opens the
counts, `\N-grams:` the n-grams of order N, and `\end\` a part that says nothing. What stands
before `\data\` says nothing either. The vocabulary holds the words of the n-grams of order 1. -/

namespace SystemCombination.Model

/-- The part of the text that a line stands in. -/
inductive Part
  | preamble
  | counts
  | grams (order : Nat)
  | closing
deriving DecidableEq, Repr

/-- A model read from a table of n-grams. -/
structure NgramTable where
  vocabulary : Vocabulary
  /-- The counts that the table declares, in order. -/
  declared : List Nat

/-- How many counts the table declares. -/
def NgramTable.declaredOrder (model : NgramTable) : Nat := model.declared.length

namespace NgramTable

/-- The largest number that a header or a count may hold. -/
def largestNumber : Nat := UInt64.size - 1

/-- The order that the header of a section of n-grams names. -/
def gramsOrder? (header : List Char) : Option Nat :=
  let ending := "-grams:".toList
  match header with
  | '\\' :: rest =>
    if ending.isSuffixOf rest then
      (Text.natural? largestNumber (rest.take (rest.length - ending.length))).filter (1 ≤ ·)
    else none
  | _ => none

/-- The part that a header opens. -/
def opened? (part : Part) (header : List Char) : Option Part :=
  if header = "\\data\\".toList then if part = .preamble then some .counts else none
  else if part = .preamble then some .preamble
  else if header = "\\end\\".toList then some .closing
  else (gramsOrder? header).map .grams

/-- The count that a line declares: `ngram`, any text without `=`, `=`, and a number. -/
def count? (line : List Char) : Option Nat :=
  let key := "ngram".toList
  if key.isPrefixOf line then
    match (line.drop key.length).dropWhile (· ≠ '=') with
    | _ :: number => Text.natural? largestNumber (Text.trim number)
    | [] => none
  else none

/-- The words after the log probability of an n-gram of the given order, if there are enough. -/
def gram? (order : Nat) (line : List Char) : Option (List (List Char)) :=
  match Text.words line with
  | probability :: words =>
    if (Decimal.number? probability).isSome ∧ order ≤ words.length then some (words.take order)
    else none
  | [] => none

/-- How far a text has been read: the part that is open, the vocabulary, and the counts, the
latest first. -/
structure Progress where
  part : Part := .preamble
  vocabulary : Vocabulary := .empty
  counts : List Nat := []

/-- Read a trimmed line that is not blank. -/
def Progress.step (progress : Progress) (line : List Char) : Except Defect Progress :=
  if line.head? = some '\\' then
    match opened? progress.part line with
    | some part => .ok { progress with part }
    | none => .error (.misplacedHeader (String.ofList line))
  else
    match progress.part with
    | .preamble | .closing => .ok progress
    | .counts =>
      match count? line with
      | some count => .ok { progress with counts := count :: progress.counts }
      | none => .error .countLine
    | .grams order =>
      match gram? order line with
      | some words =>
        if order = 1 then
          let vocabulary := progress.vocabulary.insertAll (words.map String.ofList)
          .ok { progress with vocabulary }
        else .ok progress
      | none => .error (.entryLine order)

/-- Read the lines that are left, of which the first has the given number. -/
def Progress.readFrom (progress : Progress) (number : Nat) : List Text.Line → Except Fault Progress
  | [] => .ok progress
  | .error error :: _ => .error (.unreadable error)
  | .ok text :: lines =>
    let line := Text.trim text.toList
    if line.isEmpty then progress.readFrom (number + 1) lines
    else
      match progress.step line with
      | .ok progress => progress.readFrom (number + 1) lines
      | .error defect => .error (.malformed number defect)

/-- The model that a text amounts to once all of it has been read. -/
def Progress.finish (progress : Progress) : Except Fault NgramTable :=
  if progress.part = .preamble then .error (.malformed 0 .noDataHeader)
  else if progress.counts.isEmpty then .error (.malformed 0 .noCounts)
  else if progress.vocabulary.isEmpty then .error .empty
  else .ok ⟨progress.vocabulary, progress.counts.reverse⟩

/-- The model that the lines of a text hold. -/
def ofLines (lines : List Text.Line) : Except Fault NgramTable := do
  (← Progress.readFrom {} 1 lines).finish

end NgramTable

end SystemCombination.Model
