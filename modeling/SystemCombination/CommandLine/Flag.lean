import SystemCombination.Text.Count
import SystemCombination.Text.Utf8

/-! The flags of the command line. Every flag takes a value. Arguments are read from left to
right; a value that stands in an argument of its own is checked only when the next flag is met or
the arguments end, so an argument that is unknown is reported before it. -/

namespace SystemCombination.CommandLine

inductive Flag
  | lmType
  | lmFile
  | lmOrder
  | port
  | host
  | logFilter
  | logFormat
deriving DecidableEq, Repr

namespace Flag

def all : List Flag := [lmType, lmFile, lmOrder, port, host, logFilter, logFormat]

def name : Flag → String
  | lmType => "lm.type"
  | lmFile => "lm.file"
  | lmOrder => "lm.order"
  | port => "port"
  | host => "host"
  | logFilter => "log-filter"
  | logFormat => "log-format"

end Flag

inductive Setting
  | lmType (name : String)
  | lmFile (path : String)
  | lmOrder (order : Nat)
  | port (port : Nat)
  | host (host : String)
  | logFilter (filter : String)
  | logFormat (name : String)
deriving DecidableEq, Repr

inductive Usage
  | displayHelp
  | displayVersion
  | tooManyValues
  | unknownArgument
  | invalidValue
  | valueValidation
  | invalidUtf8
deriving DecidableEq, Repr

/-- The largest number that a value may hold before its range is looked at. -/
def largestInteger : Nat := 0x7FFFFFFFFFFFFFFF

/-- A whole number from 0 to the largest value of a flag. -/
def ranged? (largest : Nat) (text : String) : Option Nat :=
  match Text.integer? largestInteger text.toList with
  | some (.ofNat value) => if value ≤ largest then some value else none
  | _ => none

/-- The setting that a flag and the bytes of its value make. -/
def Flag.setting (flag : Flag) (value : List UInt8) : Except Usage Setting :=
  match Text.decode? value with
  | none => .error .invalidUtf8
  | some text =>
    match flag with
    | .lmType => .ok (.lmType text)
    | .lmFile => .ok (.lmFile text)
    | .host => .ok (.host text)
    | .logFilter => .ok (.logFilter text)
    | .logFormat => .ok (.logFormat text)
    | .lmOrder =>
      match ranged? (UInt32.size - 1) text with
      | some number => .ok (.lmOrder number)
      | none => .error .valueValidation
    | .port =>
      match ranged? (UInt16.size - 1) text with
      | some number => .ok (.port number)
      | none => .error .valueValidation

/-- What an argument looks like. -/
inductive Argument
  /-- `--` alone: what follows is no flag. -/
  | escape
  /-- `--name` or `--name=value`. -/
  | long (name : List UInt8) (attached : Option (List UInt8))
  /-- Letters after a single dash. -/
  | short (letters : List UInt8)
  | plain (value : List UInt8)
deriving DecidableEq, Repr

def Argument.ofBytes : List UInt8 → Argument
  | [45, 45] => .escape
  | 45 :: 45 :: rest =>
    let attached := match rest.dropWhile (· ≠ 61) with
      | [] => none
      | _ :: value => some value
    .long (rest.takeWhile (· ≠ 61)) attached
  | 45 :: letter :: rest => .short (letter :: rest)
  | value => .plain value

/-- What a name or a letter on the command line stands for. -/
inductive Switch
  | valued (flag : Flag)
  | help
  | version
deriving DecidableEq, Repr

def Switch.ofName? (name : List UInt8) : Option Switch :=
  if name = Text.encode "help" then some .help
  else if name = Text.encode "version" then some .version
  else (Flag.all.find? fun flag => name = Text.encode flag.name).map .valued

/-- What a letter stands for: `h` or `V`. -/
def Switch.ofLetter? (letter : UInt8) : Option Switch :=
  if letter = 104 then some .help else if letter = 86 then some .version else none

/-- The last flag, as long as it has not been settled. -/
inductive Pending
  | nothing
  | awaiting (flag : Flag)
  | given (flag : Flag) (value : List UInt8)
deriving DecidableEq, Repr

/-- The settings so far, the latest first, once the last flag is settled. -/
def Pending.settle (pending : Pending) (found : List Setting) : Except Usage (List Setting) :=
  match pending with
  | nothing => .ok found
  | awaiting _ => .error .invalidValue
  | given flag value => (flag.setting value).map (· :: found)

/-- The settings that arguments make after those found so far, the latest first. -/
def settingsFrom (found : List Setting) (pending : Pending) :
    List (List UInt8) → Except Usage (List Setting)
  | [] => (pending.settle found).map List.reverse
  | argument :: rest =>
    match Argument.ofBytes argument with
    | .escape =>
      if rest.isEmpty then (pending.settle found).map List.reverse else .error .unknownArgument
    | .plain value =>
      match pending with
      | .awaiting flag => settingsFrom found (.given flag value) rest
      | _ => .error .unknownArgument
    | .short letters =>
      match letters.head?.bind Switch.ofLetter? with
      | some .help => (pending.settle found).bind fun _ => .error .displayHelp
      | some .version => (pending.settle found).bind fun _ => .error .displayVersion
      | _ => .error .unknownArgument
    | .long name attached =>
      match Switch.ofName? name, attached with
      | none, _ => .error .unknownArgument
      | some (.valued flag), none =>
        (pending.settle found).bind fun found => settingsFrom found (.awaiting flag) rest
      | some (.valued flag), some value =>
        (pending.settle found).bind fun found =>
          (flag.setting value).bind fun setting => settingsFrom (setting :: found) .nothing rest
      | some _, some _ => .error .tooManyValues
      | some .help, none => (pending.settle found).bind fun _ => .error .displayHelp
      | some .version, none => (pending.settle found).bind fun _ => .error .displayVersion

/-- The settings that the arguments of a command line make, in order. -/
def settings (arguments : List (List UInt8)) : Except Usage (List Setting) :=
  settingsFrom [] .nothing arguments

end SystemCombination.CommandLine
