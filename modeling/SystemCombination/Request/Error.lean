import SystemCombination.Request.Key

/-! Why a request is rejected. -/

namespace SystemCombination.Request

/-- The largest body of a request, in bytes. -/
def sizeLimit : Nat := 1024 * 1024

inductive Error
  | tooLarge
  | notUtf8
  /-- A line that is neither blank, a section header nor an assignment. -/
  | malformedLine (line : Nat) (content : String)
  /-- An assignment to a name that is no key. -/
  | unknownKey (name : String) (line : Nat)
  /-- A key that is given too often, or not at all although it has no default. -/
  | keyCount (key : Key) (actual : Nat)
  /-- A value that is not what its key takes. -/
  | invalidValue (key : Key) (value : String)
  /-- Confidences that are not all finite numbers. -/
  | badConfidence (provided : String)
deriving DecidableEq, Repr

namespace Error

def message : Error → String
  | tooLarge => "request exceeds the " ++ toString sizeLimit ++ " byte limit"
  | notUtf8 => "request is not valid UTF-8"
  | malformedLine line content =>
    "line " ++ toString line ++ ": expected 'key = value', got '" ++ content ++ "'"
  | unknownKey name line => "line " ++ toString line ++ ": unrecognised option '" ++ name ++ "'"
  | keyCount key actual => "expected " ++ key.name ++ " 1 time(s), got it " ++ toString actual
  | invalidValue key value =>
    "invalid value '" ++ value ++ "' for " ++ key.name ++ ": expected " ++ key.kind.expected
  | badConfidence provided => "bad confidence string '" ++ provided ++ "'"

/-- The name that the error is about, if it is about a single one. -/
def subject? : Error → Option String
  | unknownKey name _ => some name
  | keyCount key _ | invalidValue key _ => some key.name
  | badConfidence _ => some Key.confidence.name
  | tooLarge | notUtf8 | malformedLine .. => none

end Error

end SystemCombination.Request
