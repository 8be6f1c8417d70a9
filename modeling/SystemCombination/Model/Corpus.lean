import SystemCombination.Model.Fault
import SystemCombination.Text.Blank
import SystemCombination.Text.Input
import SystemCombination.Vocabulary

/-! Models read from a corpus: one sentence a line, words separated by blanks. The vocabulary
holds every word. -/

namespace SystemCombination.Model

structure Corpus where
  vocabulary : Vocabulary
  /-- How many lines have a word. -/
  sentences : Nat
  /-- How many words there are, repetitions included. -/
  tokens : Nat

namespace Corpus

/-- The corpus with one more line. -/
def addLine (corpus : Corpus) (line : List Char) : Corpus :=
  match (Text.words line).map String.ofList with
  | [] => corpus
  | words =>
    { vocabulary := corpus.vocabulary.insertAll words
      sentences := corpus.sentences + 1
      tokens := corpus.tokens + words.length }

/-- The corpus with the given lines added. -/
def addLines (corpus : Corpus) : List Text.Line → Except Fault Corpus
  | [] => .ok corpus
  | .error error :: _ => .error (.unreadable error)
  | .ok text :: lines => (corpus.addLine text.toList).addLines lines

/-- The model that the lines of a corpus make; it has at least one word. -/
def ofLines (lines : List Text.Line) : Except Fault Corpus := do
  let corpus ← addLines ⟨.empty, 0, 0⟩ lines
  if corpus.tokens = 0 then .error .empty else .ok corpus

end Corpus

end SystemCombination.Model
