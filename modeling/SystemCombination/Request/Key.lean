import SystemCombination.Decimal.Numeral
import SystemCombination.Text.Count

/-! The keys of a request. Each key has a name, a kind of value, and either a default or the duty
to be given; `Key.all` is the order in which they are validated. -/

namespace SystemCombination.Request

/-- What a key's value has to be. -/
inductive Kind
  | number
  | count
  | positive
  | switch
  | path
  | text
deriving DecidableEq, Repr

namespace Kind

@[reducible] def Value : Kind → Type
  | number => Binary64
  | count => Nat
  | positive => Nat
  | switch => Bool
  | path => String
  | text => String

def expected : Kind → String
  | number => "a finite number"
  | count => "a non-negative integer"
  | positive => "a positive integer"
  | switch => "a boolean (true/false, yes/no, on/off, 1/0)"
  | path => "a non-empty path"
  | text => "any text"

def largestCount : Nat := UInt32.size - 1

/-- The position of a switch; the case of ASCII letters does not matter. -/
def switch? (raw : String) : Option Bool :=
  let name := String.ofList (raw.toList.map Char.toLower)
  if name ∈ ["true", "yes", "on", "1"] then some true
  else if name ∈ ["false", "no", "off", "0"] then some false
  else none

/-- The value that a text denotes. -/
def read? : (kind : Kind) → String → Option kind.Value
  | number, raw => Decimal.finite? raw.toList
  | count, raw => Text.natural? largestCount raw.toList
  | positive, raw => (Text.natural? largestCount raw.toList).filter fun value => 1 ≤ value
  | switch, raw => switch? raw
  | path, raw => if raw = "" then none else some raw
  | text, raw => some raw

end Kind

inductive Key
  | lmWeight
  | alignmentWeight
  | ngramWeight
  | ngramBase
  | overlapWeight
  | fuzzRatio
  | beamSize
  | lengthNormalize
  | nbestSize
  | horizonRadius
  | horizonNew
  | horizonThreshold
  | oraclePrefix
  | oneBest
  | matchedFile
  | confidence
  | pickBest
  | transitive
deriving DecidableEq, Repr

namespace Key

/-- Every key, in the order of validation. -/
def all : List Key :=
  [lmWeight, alignmentWeight, ngramWeight, ngramBase, overlapWeight, fuzzRatio, beamSize,
    lengthNormalize, nbestSize, horizonRadius, horizonNew, horizonThreshold, oraclePrefix, oneBest,
    matchedFile, confidence, pickBest, transitive]

theorem mem_all (key : Key) : key ∈ all := by cases key <;> decide

def name : Key → String
  | lmWeight => "score.lm"
  | alignmentWeight => "score.alignment"
  | ngramWeight => "score.ngram"
  | ngramBase => "score.ngram_base"
  | overlapWeight => "score.overlap"
  | fuzzRatio => "score.fuzz.ratio"
  | beamSize => "beam_size"
  | lengthNormalize => "length_normalize"
  | nbestSize => "output.nbest"
  | horizonRadius => "horizon.radius"
  | horizonNew => "horizon.new"
  | horizonThreshold => "horizon.threshold"
  | oraclePrefix => "output.oracle_prefix"
  | oneBest => "output.one_best"
  | matchedFile => "input.matched_file"
  | confidence => "input.confidence"
  | pickBest => "align.pick_best"
  | transitive => "align.transitive"

def ofName? (name : String) : Option Key := all.find? fun key => key.name = name

def kind : Key → Kind
  | lmWeight | alignmentWeight | ngramWeight | ngramBase | overlapWeight | fuzzRatio => .number
  | horizonThreshold => .number
  | beamSize | nbestSize => .positive
  | horizonRadius => .count
  | lengthNormalize | horizonNew | pickBest | transitive => .switch
  | oneBest | matchedFile => .path
  | oraclePrefix | confidence => .text

/-- The text that stands for a value that is not given; a key without one has to be given. -/
def default? : Key → Option String
  | ngramBase => some "0.3333333333333333"
  | fuzzRatio => some "0"
  | beamSize => some "500"
  | lengthNormalize => some "true"
  | nbestSize => some "1"
  | horizonRadius => some "5"
  | horizonNew => some "false"
  | horizonThreshold => some "0.8"
  | oraclePrefix => some ""
  | pickBest | transitive => some "false"
  | lmWeight | alignmentWeight | ngramWeight | overlapWeight => none
  | oneBest | matchedFile | confidence => none

/-- A key with a default is given at most once, any other key exactly once. -/
def admitsCount (key : Key) (count : Nat) : Bool :=
  if key.default?.isSome then count ≤ 1 else count = 1

end Key

end SystemCombination.Request
