import SystemCombination.Request.Assignment
import SystemCombination.Request.Confidences

/-! A request: what to decode, with which weights, and where the results go. `Request.parse` reads
the bytes that a client sent. It checks, in this order, the size, the encoding, the form of the
lines, the names, how often each key is given, the values, and the confidences. -/

namespace SystemCombination

/-- What each feature of a candidate counts in its score. -/
structure Weights where
  lm : Binary64
  alignment : Binary64
  ngram : Binary64
  /-- The factor for each order that an n-gram stays below the order of the model. -/
  ngramBase : Binary64
  overlap : Binary64
  /-- The share of the weights that is set aside for fuzzing while they are tuned. -/
  fuzzRatio : Binary64

structure Horizon where
  /-- How many tokens apart two aligned tokens may be. -/
  radius : Nat
  /-- Whether only systems that reach the threshold may support a candidate. -/
  gated : Bool
  /-- The share of the best confidence that a system has to reach. -/
  threshold : Binary64

structure DecoderSettings where
  weights : Weights
  /-- How many candidates of a segment are scored. -/
  beamSize : Nat
  /-- Whether features that count tokens are divided by the length of the candidate. -/
  lengthNormalize : Bool
  /-- How many hypotheses of a segment are kept. -/
  nbestSize : Nat
  horizon : Horizon

structure InputSettings where
  /-- The confidence of each system, in the order of the lines of a segment. -/
  confidences : List Binary64
  radius : Nat
  /-- Whether only the nearest match in each other system is kept. -/
  pickBest : Bool
  /-- Whether matches are added that a third system mediates. -/
  transitive : Bool

structure Request where
  input : InputSettings
  decoder : DecoderSettings
  /-- What the path of the oracle file starts with; if it is empty, none is written. -/
  oraclePrefix : String
  oneBest : String
  matchedFile : String
  /-- The confidences as they were given. -/
  confidenceText : String

namespace Request

def oraclePathOf (start : String) : String := start ++ ".oracle"

def oraclePath (request : Request) : String := oraclePathOf request.oraclePrefix

def wantsOracle (request : Request) : Bool := request.oraclePrefix ≠ ""

/-- The values given for a key, in order. -/
def valuesOf (assignments : List Assignment) (key : Key) : List String :=
  (assignments.filter fun assignment => assignment.name = key.name).map Assignment.value

/-- The text that is read for a key: the first that is given, or else the default. -/
def rawOf (assignments : List Assignment) (key : Key) : String :=
  (valuesOf assignments key).head?.getD (key.default?.getD "")

/-- Every assignment names a key. -/
def checkNames (assignments : List Assignment) : Except Error Unit :=
  match assignments.find? fun assignment => (Key.ofName? assignment.name).isNone with
  | some assignment => .error (.unknownKey assignment.name assignment.line)
  | none => .ok ()

/-- Every key is given as often as it has to be. -/
def checkCounts (assignments : List Assignment) : Except Error Unit :=
  match Key.all.find? fun key => !key.admitsCount (valuesOf assignments key).length with
  | some key => .error (.keyCount key (valuesOf assignments key).length)
  | none => .ok ()

/-- A value for every key. -/
abbrev Settings := (key : Key) → key.kind.Value

/-- The values that the texts denote, or the first key whose text denotes none. -/
def readSettings (raw : Key → String) : Except Error Settings :=
  match h : Key.all.find? fun key => (key.kind.read? (raw key)).isNone with
  | some key => .error (.invalidValue key (raw key))
  | none => .ok fun key => (key.kind.read? (raw key)).get (by
      simpa [Option.ne_none_iff_isSome] using List.find?_eq_none.mp h key key.mem_all)

def ofSettings (settings : Settings) (confidences : List Binary64) : Request where
  input :=
    { confidences
      radius := settings .horizonRadius
      pickBest := settings .pickBest
      transitive := settings .transitive }
  decoder :=
    { weights :=
        { lm := settings .lmWeight
          alignment := settings .alignmentWeight
          ngram := settings .ngramWeight
          ngramBase := settings .ngramBase
          overlap := settings .overlapWeight
          fuzzRatio := settings .fuzzRatio }
      beamSize := settings .beamSize
      lengthNormalize := settings .lengthNormalize
      nbestSize := settings .nbestSize
      horizon :=
        { radius := settings .horizonRadius
          gated := settings .horizonNew
          threshold := settings .horizonThreshold } }
  oraclePrefix := settings .oraclePrefix
  oneBest := settings .oneBest
  matchedFile := settings .matchedFile
  confidenceText := settings .confidence

def ofAssignments (assignments : List Assignment) : Except Error Request := do
  checkNames assignments
  checkCounts assignments
  let settings ← readSettings (rawOf assignments)
  return ofSettings settings (← confidences (settings .confidence))

def parseText (text : String) : Except Error Request := do ofAssignments (← assignments text)

def parse (body : List UInt8) : Except Error Request :=
  if sizeLimit < body.length then .error .tooLarge
  else
    match Text.decode? body with
    | some text => parseText text
    | none => .error .notUtf8

end Request

end SystemCombination
