/-! Why a file, a stream or a socket refused an operation. -/

namespace SystemCombination

inductive IoError
  | notFound
  | notADirectory
  | isADirectory
  | noMemory
  | noSpace
  | nameTooLong
  | addressNotAvailable
  /-- The name holds a NUL character, which no system call takes. -/
  | nulInName
  /-- A line that was read is not UTF-8. -/
  | notUtf8
  /-- A refusal that explains itself. -/
  | other (message : String)
deriving DecidableEq, Repr

def IoError.message : IoError → String
  | notFound => "No such file or directory (os error 2)"
  | notADirectory => "Not a directory (os error 20)"
  | isADirectory => "Is a directory (os error 21)"
  | noMemory => "Cannot allocate memory (os error 12)"
  | noSpace => "No space left on device (os error 28)"
  | nameTooLong => "File name too long (os error 36)"
  | addressNotAvailable => "Cannot assign requested address (os error 99)"
  | nulInName => "file name contained an unexpected NUL byte"
  | notUtf8 => "stream did not contain valid UTF-8"
  | other message => message

end SystemCombination
