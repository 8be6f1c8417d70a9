import SystemCombination.Request.Error
import SystemCombination.Text.Blank
import SystemCombination.Text.Input

/-! The block of assignments that a request is written as. A `#` starts a comment, blank lines say
nothing, `[section]` puts `section.` in front of the names below it until the next header, and any
other line is `name = value`. -/

namespace SystemCombination.Request

/-- An assignment: the name with the section in front, the value, and its line, counted from 1. -/
structure Assignment where
  name : String
  value : String
  line : Nat
deriving DecidableEq, Repr

/-- What a line says. -/
inductive Statement
  | blank
  | header (title : List Char)
  | assignment (name value : List Char)
  | malformed (content : List Char)
deriving DecidableEq, Repr

/-- The line up to the comment, without the blanks around it. -/
def uncommented (line : List Char) : List Char := Text.trim (line.takeWhile (· ≠ '#'))

/-- What stands between the brackets of a header. -/
def bracketed? : List Char → Option (List Char)
  | '[' :: rest => if rest.getLast? = some ']' then some rest.dropLast else none
  | _ => none

/-- The two sides of an assignment, which the first `=` separates; the name is not empty. -/
def sides? (content : List Char) : Option (List Char × List Char) :=
  match content.dropWhile (· ≠ '=') with
  | [] => none
  | _ :: value =>
    let name := Text.trim (content.takeWhile (· ≠ '='))
    if name.isEmpty then none else some (name, Text.trim value)

def Statement.ofLine (line : List Char) : Statement :=
  let content := uncommented line
  if content.isEmpty then .blank
  else
    match bracketed? content with
    | some inner => .header (Text.trim inner)
    | none =>
      match sides? content with
      | some (name, value) => .assignment name value
      | none => .malformed content

/-- What a section puts in front of the names in it. -/
def qualifier (title : List Char) : String :=
  if title.isEmpty then "" else String.ofList title ++ "."

/-- The assignments of the given lines, after those found so far, the latest first, with the text
that the open section puts in front of names and the number of the first line. -/
def assignmentsFrom (found : List Assignment) (opened : String) (number : Nat) :
    List (List Char) → Except Error (List Assignment)
  | [] => .ok found.reverse
  | line :: lines =>
    match Statement.ofLine line with
    | .blank => assignmentsFrom found opened (number + 1) lines
    | .header title => assignmentsFrom found (qualifier title) (number + 1) lines
    | .assignment name value =>
      let assignment := ⟨opened ++ String.ofList name, String.ofList value, number⟩
      assignmentsFrom (assignment :: found) opened (number + 1) lines
    | .malformed content => .error (.malformedLine number (String.ofList content))

/-- The assignments of a block, in order. -/
def assignments (text : String) : Except Error (List Assignment) :=
  assignmentsFrom [] "" 1 (Text.linesOfText text)

end SystemCombination.Request
