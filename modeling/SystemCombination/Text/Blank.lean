/-! Blank characters and what they separate. A character is blank when Unicode gives it the
property `White_Space`; `trim` takes the blanks off both ends of a text, `words` gives the maximal
runs of other characters. `words_append` says that a blank always separates. -/

namespace SystemCombination.Text

/-- The ranges of the Unicode property `White_Space`, in rising order. -/
def blankRanges : List (Nat × Nat) :=
  [(0x09, 0x0D), (0x20, 0x20), (0x85, 0x85), (0xA0, 0xA0), (0x1680, 0x1680), (0x2000, 0x200A),
    (0x2028, 0x2029), (0x202F, 0x202F), (0x205F, 0x205F), (0x3000, 0x3000)]

def isBlank (c : Char) : Bool :=
  blankRanges.any fun range => range.1 ≤ c.toNat && c.toNat ≤ range.2

/-- The text without the blanks at its end. -/
def trimEnd (cs : List Char) : List Char := (cs.reverse.dropWhile isBlank).reverse

/-- The text without the blanks at either end. -/
def trim (cs : List Char) : List Char := trimEnd (cs.dropWhile isBlank)

/-- The words of a text: its maximal runs of characters that are not blank, in order. -/
def words (cs : List Char) : List (List Char) :=
  (cs.splitOnP isBlank).filter fun run => !run.isEmpty

/-- A text is blank when all its characters are. -/
def AllBlank (cs : List Char) : Prop := ∀ c ∈ cs, isBlank c = true

instance (cs : List Char) : Decidable (AllBlank cs) :=
  List.decidableBAll (fun c => isBlank c = true) cs

theorem words_append (left right : List Char) {c : Char} (h : isBlank c = true) :
    words (left ++ c :: right) = words left ++ words right := by
  simp [words, List.splitOnP_append_cons left right h]

theorem blank_newline : isBlank '\n' = true := by decide

end SystemCombination.Text
