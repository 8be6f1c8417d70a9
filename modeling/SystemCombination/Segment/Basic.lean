import SystemCombination.Binary64.Basic
import SystemCombination.Vocabulary

/-! Segments. A segment is what several systems made of one piece of text, a line from each, and
the alignments of the tokens of each line with tokens of the other lines. -/

namespace SystemCombination

/-- A token of a segment: its position in the line of a system. -/
structure TokenRef where
  system : Nat
  position : Nat
deriving DecidableEq, Repr

/-- What one system made of the text. -/
structure Rendition where
  tokens : List String
  /-- The number of each token in the vocabulary, if it is known. -/
  numbers : List (Option WordNumber)
  confidence : Binary64

/-- The tokens with a single space between them. -/
def Rendition.text (line : Rendition) : String := " ".intercalate line.tokens

/-- For each system and each position of its line, the tokens that the token there is aligned
with. -/
abbrev AlignmentTable := List (List (List TokenRef))

/-- The cells of a system; none where the table has no row. -/
def AlignmentTable.row (table : AlignmentTable) (system : Nat) : List (List TokenRef) :=
  table[system]?.getD []

/-- The tokens aligned with a token; none where the table has no cell. -/
def AlignmentTable.at (table : AlignmentTable) (token : TokenRef) : List TokenRef :=
  (table.row token.system)[token.position]?.getD []

structure Segment where
  /-- The number of the segment in its file, from 0. -/
  index : Nat
  systems : List Rendition
  alignments : AlignmentTable

/-- The lines of all systems but one. -/
def Segment.others (segment : Segment) (system : Nat) : List Rendition :=
  (segment.systems.zipIdx.filter fun (_, other) => other ≠ system).map Prod.fst

end SystemCombination
