import SystemCombination.Decimal.Numeral
import SystemCombination.Request.Error
import SystemCombination.Text.Blank

/-! Confidences: one finite number for each system, in the order of the systems. -/

namespace SystemCombination.Request

/-- The confidences in a text, if each of its words is a finite number. -/
def confidences? (raw : String) : Option (List Binary64) :=
  (Text.words raw.toList).mapM Decimal.finite?

def confidences (raw : String) : Except Error (List Binary64) :=
  match confidences? raw with
  | some values => .ok values
  | none => .error (.badConfidence raw)

end SystemCombination.Request
