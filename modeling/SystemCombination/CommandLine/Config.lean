import SystemCombination.CommandLine.Flag
import SystemCombination.Model.Fault
import SystemCombination.Text.Blank

/-! The configuration of the service. The model file, its order and the port are given exactly
once, every other flag at most once; the checks run in a fixed order, whatever the order of the
flags. -/

namespace SystemCombination

inductive LogFormat
  | json
  | compact
deriving DecidableEq, Repr

namespace LogFormat

def name : LogFormat → String
  | json => "json"
  | compact => "compact"

/-- What is said of a name that is no format's. -/
def unknownName : String := "Matching variant not found"

/-- The format with the given name; the case of ASCII letters does not matter. -/
def ofName? (name : String) : Option LogFormat :=
  [json, compact].find? fun format => format.name.toList = name.toList.map Char.toLower

end LogFormat

structure Endpoint where
  host : String
  port : Nat
deriving DecidableEq, Repr

namespace Endpoint

/-- The host that stands for every interface. -/
def anyHost : String := "0.0.0.0"

def onEveryInterface (port : Nat) : Endpoint := ⟨anyHost, port⟩

def text (endpoint : Endpoint) : String :=
  "tcp://" ++ endpoint.host ++ ":" ++ toString endpoint.port

end Endpoint

structure ModelConfig where
  backend : Backend
  file : String
  order : Nat
deriving DecidableEq, Repr

structure LogSettings where
  filter : String := "info"
  format : LogFormat := .json
deriving DecidableEq, Repr

structure Config where
  lm : ModelConfig
  listen : Endpoint
  log : LogSettings := {}
deriving DecidableEq, Repr

namespace CommandLine

inductive Error
  | usage (usage : Usage)
  /-- A flag that is given too often, or not at all although it has no default. -/
  | optionCount (flag : Flag) (actual : Nat)
  | unknownBackend (name : String)
  | invalidOrder (order : Nat)
  | invalidLogFormat (name : String)
deriving DecidableEq, Repr

/-- The text of an error; the text of a usage error is up to the command line. -/
def Error.message : Error → String
  | usage _ => "invalid usage"
  | optionCount flag actual =>
    "expected --" ++ flag.name ++ " 1 time(s), got it " ++ toString actual
  | unknownBackend name => "lm.type \"" ++ name ++ "\" is not sri or salm."
  | invalidOrder order => "lm.order must be at least 1, got " ++ toString order
  | invalidLogFormat name =>
    "unsupported log format '" ++ name ++ "': " ++ LogFormat.unknownName

variable {α : Type}

/-- The value of a flag that is given exactly once. -/
def needed (flag : Flag) : List α → Except Error α
  | [value] => .ok value
  | values => .error (.optionCount flag values.length)

/-- The value of a flag that is given at most once. -/
def allowed (flag : Flag) : List α → Except Error (Option α)
  | [] => .ok none
  | values => (needed flag values).map some

/-- The backend that a name selects, blanks around it aside. -/
def backendOfName (name : String) : Except Error Backend :=
  let trimmed := String.ofList (Text.trim name.toList)
  match Backend.ofName? trimmed with
  | some backend => .ok backend
  | none => .error (.unknownBackend trimmed)

def logFormatOfName (name : String) : Except Error LogFormat :=
  match LogFormat.ofName? name with
  | some format => .ok format
  | none => .error (.invalidLogFormat name)

def files (settings : List Setting) : List String :=
  settings.filterMap fun | .lmFile path => some path | _ => none

def orders (settings : List Setting) : List Nat :=
  settings.filterMap fun | .lmOrder order => some order | _ => none

def ports (settings : List Setting) : List Nat :=
  settings.filterMap fun | .port port => some port | _ => none

def backends (settings : List Setting) : List String :=
  settings.filterMap fun | .lmType name => some name | _ => none

def hosts (settings : List Setting) : List String :=
  settings.filterMap fun | .host host => some host | _ => none

def logFilters (settings : List Setting) : List String :=
  settings.filterMap fun | .logFilter filter => some filter | _ => none

def logFormats (settings : List Setting) : List String :=
  settings.filterMap fun | .logFormat name => some name | _ => none

def ofSettings (settings : List Setting) : Except Error Config := do
  let file ← needed .lmFile (files settings)
  let order ← needed .lmOrder (orders settings)
  let port ← needed .port (ports settings)
  let backend ← match ← allowed .lmType (backends settings) with
    | some name => backendOfName name
    | none => pure Backend.salm
  if order = 0 then throw (.invalidOrder order)
  let host := (← allowed .host (hosts settings)).getD Endpoint.anyHost
  let filter := (← allowed .logFilter (logFilters settings)).getD ({} : LogSettings).filter
  let format ← match ← allowed .logFormat (logFormats settings) with
    | some name => logFormatOfName name
    | none => pure ({} : LogSettings).format
  return { lm := { backend, file, order }, listen := { host, port }, log := { filter, format } }

/-- The configuration that arguments give, where `read` finds the settings in them. -/
def configureWith (read : List (List UInt8) → Except Usage (List Setting))
    (arguments : List (List UInt8)) : Except Error Config :=
  match read arguments with
  | .ok settings => ofSettings settings
  | .error usage => .error (.usage usage)

def configure (arguments : List (List UInt8)) : Except Error Config :=
  configureWith settings arguments

end CommandLine

end SystemCombination
