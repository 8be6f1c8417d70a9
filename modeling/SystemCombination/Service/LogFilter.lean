import SystemCombination.CommandLine.Config

/-! The log filter. It is a list of directives with commas between them; a directive of the form
`target=level` has to name a level. -/

namespace SystemCombination.LogFilter

/-- Why a log cannot be set up. -/
inductive Error
  /-- A filter that is no list of directives, and what is wrong with it. -/
  | invalid (filter reason : String)
  /-- The log of somebody else is set up already. -/
  | occupied (reason : String)
deriving DecidableEq, Repr

def Error.message : Error → String
  | invalid filter reason => "invalid --log-filter '" ++ filter ++ "': " ++ reason
  | occupied reason => "cannot install log subscriber: " ++ reason

/-- The names of levels; nothing at all is a level too. -/
def levelNames : List (List Char) :=
  ["", "off", "error", "warn", "info", "debug", "trace"].map String.toList

def isLevel (level : List Char) : Bool :=
  level.map Char.toLower ∈ levelNames || (Text.natural? 5 level).isSome

def isDirective (directive : List Char) : Bool :=
  match directive.dropWhile (· ≠ '=') with
  | [] => true
  | _ :: level => isLevel level

/-- What a service makes of a filter before anything is logged. -/
abbrev Check := String → Except Error Unit

/-- What is said of a directive that names no level. -/
def unknownLevel : String :=
  "error parsing level filter: expected one of \"off\", \"error\", \"warn\", \"info\", " ++
    "\"debug\", \"trace\", or a number 0-5"

/-- A filter is accepted when every directive of it is one. -/
def check : Check := fun filter =>
  if (filter.toList.splitOn ',').all isDirective then .ok ()
  else .error (.invalid filter unknownLevel)

/-- Any filter is accepted; it has no effect on log output that is set up already. -/
def unchecked : Check := fun _ => .ok ()

end SystemCombination.LogFilter
