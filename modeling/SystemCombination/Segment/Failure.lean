import SystemCombination.IoError

/-! Why decoding a matched file stops. -/

namespace SystemCombination

inductive DecodeFailure
  | openInput (path : String) (error : IoError)
  | createOutput (path : String) (error : IoError)
  | read (path : String) (error : IoError)
  | write (path : String) (error : IoError)
  /-- A segment with another number of lines than there are confidences. -/
  | inputShape (segment expected actual : Nat)
deriving DecidableEq, Repr

def DecodeFailure.message : DecodeFailure → String
  | openInput path error => "failed to open matched input " ++ path ++ ": " ++ error.message
  | createOutput path error => "failed to create output " ++ path ++ ": " ++ error.message
  | read path error => "failed to read matched input " ++ path ++ ": " ++ error.message
  | write path error => "failed to write output " ++ path ++ ": " ++ error.message
  | inputShape segment expected actual =>
    "input unit " ++ toString segment ++ " has " ++ toString actual ++
      " system line(s), expected " ++ toString expected

end SystemCombination
