import Std.Data.HashSet
import SystemCombination.Binary64.Arithmetic
import SystemCombination.Decoder.SharedRuns
import SystemCombination.Request.Basic
import SystemCombination.Segment.Basic

/-! The features of a candidate, the line of one system: how many of its words the model knows,
the confidence in the systems that agree with it token by token, the n-grams it shares with other
lines, and the tokens that occur in another line. -/

namespace SystemCombination

structure Features where
  /-- The share of tokens that the vocabulary knows. -/
  knownRate : Binary64
  /-- The confidence in the systems that support each token, summed over the tokens. -/
  support : Binary64
  /-- The n-grams shared with another line, weighted by their order. -/
  ngramMatch : Binary64
  overlap : Binary64

namespace Features

def zero : Features := ⟨0, 0, 0, 0⟩

/-- The score under the given weights, added up from the left. -/
def score (weights : Weights) (features : Features) : Binary64 :=
  weights.lm * features.knownRate + weights.alignment * features.support +
    weights.ngram * features.ngramMatch + weights.overlap * features.overlap

end Features

namespace Decoder

def eligible (horizon : Horizon) (systems : List Rendition) : List Bool :=
  let best := (Binary64.largest? (systems.map Rendition.confidence)).getD 0
  systems.map fun line => !horizon.gated || horizon.threshold * best ≤ line.confidence

/-- The order in which the systems that support a token are added up. Sums are rounded, so it can
make a difference. -/
structure Arrangement where
  /-- Systems that are listed by rising index, in the order for a token. -/
  arrange : TokenRef → List Nat → List Nat
  perm : ∀ token systems, (arrange token systems).Perm systems

/-- By rising index at every token. -/
def Arrangement.rising : Arrangement := ⟨fun _ systems => systems, fun _ _ => .refl _⟩

/-- The systems that are eligible and that a cell of the alignments names, each once, by rising
index. -/
def supporters (systems : List Rendition) (eligible : List Bool) (cell : List TokenRef) :
    List Nat :=
  let named := Std.HashSet.ofList (cell.map TokenRef.system)
  ((systems.zip eligible).zipIdx.filter fun ((_, able), system) =>
    able && named.contains system).map Prod.snd

/-- The confidence in the supporters of one token. -/
def tokenSupport (arrangement : Arrangement) (systems : List Rendition) (eligible : List Bool)
    (token : TokenRef) (cell : List TokenRef) : Binary64 :=
  let added := arrangement.arrange token (supporters systems eligible cell)
  (added.filterMap (systems[·]?)).foldl (fun total line => total + line.confidence) 0

def support (arrangement : Arrangement) (segment : Segment) (eligible : List Bool) (system : Nat)
    (line : Rendition) : Binary64 :=
  ((segment.alignments.row system).take line.tokens.length).zipIdx.foldl
    (fun total (cell, position) =>
      total + tokenSupport arrangement segment.systems eligible ⟨system, position⟩ cell) 0

/-- The largest exponent that powers are taken to. -/
def largestExponent : Nat := 0x7FFFFFFF

/-- `total` and what the shared n-grams of the next `orders` orders count, from order `n` up to
the model's: each factor `base` stands for an order that an n-gram stays below the model's.
`shared` holds those of the order before. There are none past an order at which none are shared. -/
def ngramMatchFrom (order : Nat) (base : Binary64) (total : Binary64) (n : Nat)
    (shared : SharedRuns) : Nat → Binary64
  | 0 => total
  | orders + 1 =>
    let longer := shared.longer
    let count := longer.line.length
    if count = 0 then total
    else
      let weight := base.power (min (order - n) largestExponent)
      ngramMatchFrom order base (total + weight * Binary64.ofNat count) (n + 1) longer orders

/-- What the shared n-grams of all orders up to the model's count. -/
def ngramMatch (order : Nat) (base : Binary64) (others : List (List String))
    (line : List String) : Binary64 :=
  (ngramMatchFrom order base 0 1 (.empty others line) (min order line.length)).clamp

def overlap (others : List (List String)) (line : List String) : Nat :=
  let known := Std.HashSet.ofList others.flatten
  line.countP known.contains

def features (arrangement : Arrangement) (order : Nat) (settings : DecoderSettings)
    (segment : Segment) (eligible : List Bool) (system : Nat) (line : Rendition) : Features :=
  if line.tokens.isEmpty then .zero
  else
    let length := line.tokens.length
    let scale := if settings.lengthNormalize then length else 1
    let others := (segment.others system).map Rendition.tokens
    { knownRate := Binary64.ofNat (line.numbers.countP Option.isSome) / length
      support := support arrangement segment eligible system line / scale
      ngramMatch := ngramMatch order settings.weights.ngramBase others line.tokens / scale
      overlap := Binary64.ofNat (overlap others line.tokens) / scale }

end Decoder

end SystemCombination
