import SystemCombination.Model.Corpus
import SystemCombination.Model.NgramTable

/-! Language models. A model is loaded from a file by one of the backends; decoding uses its order
and its vocabulary. -/

namespace SystemCombination

/-- What a backend has read. -/
inductive Model.Content
  | ngrams (table : Model.NgramTable)
  | corpus (text : Model.Corpus)

structure Model where
  order : Nat
  content : Model.Content

namespace Model

def backend (model : Model) : Backend :=
  match model.content with
  | .ngrams _ => .sri
  | .corpus _ => .salm

def vocabulary (model : Model) : Vocabulary :=
  match model.content with
  | .ngrams table => table.vocabulary
  | .corpus text => text.vocabulary

/-- What the backend reads in the lines. -/
def Content.ofLines (backend : Backend) (lines : List Text.Line) : Except Fault Content :=
  match backend with
  | .sri => (NgramTable.ofLines lines).map .ngrams
  | .salm => (Corpus.ofLines lines).map .corpus

/-- The model in a file: `source` is what opening and reading the file gives. -/
def load (backend : Backend) (path : String) (order : Nat)
    (source : Except IoError (List UInt8)) : Except Error Model :=
  match Content.ofLines backend (Text.linesOfSource source) with
  | .ok content => .ok ⟨order, content⟩
  | .error fault => .error ⟨backend, path, fault⟩

end Model

end SystemCombination
