import SystemCombination.IoError

/-! The kinds of language model and why one cannot be loaded. -/

namespace SystemCombination

/-- Where a model's words come from. -/
inductive Backend
  /-- An n-gram table in ARPA format. -/
  | sri
  /-- A tokenised corpus. -/
  | salm
deriving DecidableEq, Repr

namespace Backend

def name : Backend → String
  | sri => "sri"
  | salm => "salm"

/-- The backend with the given name. -/
def ofName? (name : String) : Option Backend := [sri, salm].find? fun backend => backend.name = name

end Backend

namespace Model

/-- What is wrong with the text of a model. -/
inductive Defect
  /-- A header that is unknown or out of place. -/
  | misplacedHeader (header : String)
  | countLine
  /-- An entry of a section of n-grams of the given order. -/
  | entryLine (order : Nat)
  | noDataHeader
  | noCounts
deriving DecidableEq, Repr

def Defect.message : Defect → String
  | misplacedHeader header => header
  | countLine => "expected 'ngram N=count'"
  | entryLine order => "expected log probability followed by " ++ toString order ++ " word(s)"
  | noDataHeader => "missing \\data\\ header"
  | noCounts => "\\data\\ declares no 'ngram N=count' lines"

/-- Why a model is refused. Lines count from 1; what the whole text lacks is placed at line 0. -/
inductive Fault
  | unreadable (error : IoError)
  | malformed (line : Nat) (defect : Defect)
  | empty
deriving DecidableEq, Repr

/-- A refused model. -/
structure Error where
  backend : Backend
  path : String
  fault : Fault
deriving DecidableEq, Repr

def Error.message (error : Error) : String :=
  let backend := error.backend.name
  match error.fault with
  | .unreadable source =>
    "failed to read " ++ backend ++ " model '" ++ error.path ++ "': " ++ source.message
  | .malformed line defect =>
    "malformed " ++ backend ++ " model '" ++ error.path ++ "' at line " ++ toString line ++ ": " ++
      defect.message
  | .empty => backend ++ " model '" ++ error.path ++ "' contains no vocabulary"

end Model

end SystemCombination
