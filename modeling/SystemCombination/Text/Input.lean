import SystemCombination.IoError
import SystemCombination.Text.Lines
import SystemCombination.Text.Utf8

/-! Bytes read as lines of text. A line that is not UTF-8 is an error in its place and does not
hide the lines after it. -/

namespace SystemCombination.Text

abbrev Line := Except IoError String

def Line.ofBytes (bytes : List UInt8) : Line :=
  match decode? bytes with
  | some text => .ok text
  | none => .error .notUtf8

def linesOfBytes (bytes : List UInt8) : List Line := (lines 13 10 bytes).map Line.ofBytes

/-- The lines of what was opened: a source that cannot be read refuses its first line. -/
def linesOfSource : Except IoError (List UInt8) → List Line
  | .ok bytes => linesOfBytes bytes
  | .error error => [.error error]

def linesOfText (text : String) : List (List Char) := lines '\r' '\n' text.toList

end SystemCombination.Text
