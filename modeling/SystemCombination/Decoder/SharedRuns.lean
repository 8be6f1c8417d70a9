import SystemCombination.Decoder.Runs
import SystemCombination.Numbering

/-! The runs that a line shares with other lines, length by length. The runs of one length in the
other lines are numbered, and a run of the line is followed by its number as long as it is shared,
so that a word more costs no more the longer the runs are. `length_ofLength` says that this counts
the shared runs. -/

namespace SystemCombination.Decoder

/-- A place in a line: the number of the run that ends there, and the words behind it. -/
structure Place where
  run : Nat
  rest : List String

namespace Place

/-- The run and the word behind it, which together are the next longer run. -/
def longer? (place : Place) : Option (Nat × String) := place.rest.head?.map (place.run, ·)

/-- The place one word on, if the longer run has a number. -/
def next? (numbers : Std.HashMap (Nat × String) Nat) (place : Place) : Option Place :=
  match place.rest with
  | [] => none
  | word :: rest => numbers[(place.run, word)]?.map fun run => ⟨run, rest⟩

end Place

/-- Where the shared runs of one length end, in the other lines and in the line. -/
structure SharedRuns where
  others : List Place
  line : List Place

namespace SharedRuns

/-- The empty runs, which all have the number 0. -/
def empty (others : List (List String)) (line : List String) : SharedRuns where
  others := (others.flatMap suffixes).map fun rest => ⟨0, rest⟩
  line := (suffixes line).map fun rest => ⟨0, rest⟩

/-- The shared runs that are one word longer. -/
def longer (shared : SharedRuns) : SharedRuns :=
  let numbers := numbering (shared.others.filterMap Place.longer?)
  { others := shared.others.filterMap (Place.next? numbers)
    line := shared.line.filterMap (Place.next? numbers) }

/-- The shared runs of `n` words. -/
def ofLength (others : List (List String)) (line : List String) : Nat → SharedRuns
  | 0 => empty others line
  | n + 1 => (ofLength others line n).longer

/-! The runs behind the numbers. -/

/-- The place behind the first `n` words of a suffix, if their run has a number. -/
def placeAt (number : List String → Option Nat) (n : Nat) (ending : List String) : Option Place :=
  if n ≤ ending.length then (number (ending.take n)).map fun run => ⟨run, ending.drop n⟩ else none

theorem placeAt_zero :
    placeAt (fun run => if run = [] then some 0 else none) 0 = some ∘ fun rest => ⟨0, rest⟩ := by
  funext ending
  simp [placeAt]

/-- The runs of `n` words in the other lines have the given numbers, and the places are behind the
runs that have one. -/
structure Numbers (others : List (List String)) (line : List String) (n : Nat)
    (number : List String → Option Nat) (shared : SharedRuns) : Prop where
  inj : ∀ run run' found, number run = some found → number run' = some found → run = run'
  known : ∀ ending ∈ others.flatMap suffixes, n ≤ ending.length →
    (number (ending.take n)).isSome
  sound : 0 < n → ∀ run, (number run).isSome → ∃ other ∈ others, run ∈ runs n other
  others_eq : shared.others = (others.flatMap suffixes).filterMap (placeAt number n)
  line_eq : shared.line = (suffixes line).filterMap (placeAt number n)

theorem numbers_empty (others : List (List String)) (line : List String) :
    Numbers others line 0 (fun run => if run = [] then some 0 else none) (empty others line) where
  inj := by
    intro run run' found h h'
    split at h <;> split at h' <;> simp_all
  known := by simp
  sound := by simp
  others_eq := by
    rw [placeAt_zero, List.filterMap_eq_map]
    rfl
  line_eq := by
    rw [placeAt_zero, List.filterMap_eq_map]
    rfl

/-- The number of a run that is one word longer. -/
def longerNumber (number : List String → Option Nat) (numbers : Std.HashMap (Nat × String) Nat)
    (run : List String) : Option Nat :=
  (number run.dropLast).bind fun found => run.getLast?.bind fun word => numbers[(found, word)]?

theorem longerNumber_concat (number : List String → Option Nat)
    (numbers : Std.HashMap (Nat × String) Nat) (run : List String) (word : String) :
    longerNumber number numbers (run ++ [word]) =
      (number run).bind fun found => numbers[(found, word)]? := by
  simp [longerNumber]

theorem take_succ_of_lt {n : Nat} {ending : List String} (h : n < ending.length) :
    ending.take (n + 1) = ending.take n ++ [ending[n]] :=
  (List.take_append_getElem h).symm

/-- Going on by a word from behind a run leads behind the longer run. -/
theorem next?_placeAt (number : List String → Option Nat)
    (numbers : Std.HashMap (Nat × String) Nat) (n : Nat) (ending : List String) :
    (placeAt number n ending).bind (Place.next? numbers) =
      placeAt (longerNumber number numbers) (n + 1) ending := by
  by_cases long : n < ending.length
  · rw [placeAt, placeAt, if_pos (by omega), if_pos (by omega), take_succ_of_lt long,
      longerNumber_concat, List.drop_eq_getElem_cons long]
    cases number (ending.take n) <;> rfl
  · rw [placeAt, placeAt, if_neg (by omega : ¬n + 1 ≤ ending.length)]
    split
    · rw [List.drop_eq_nil_of_le (by omega)]
      cases number (ending.take n) <;> rfl
    · rfl

/-- The pairs that are numbered stand in the other lines. -/
theorem Numbers.mem_longer? {others : List (List String)} {line : List String} {n : Nat}
    {number : List String → Option Nat} {shared : SharedRuns}
    (h : Numbers others line n number shared) {found : Nat} {word : String} :
    (found, word) ∈ shared.others.filterMap Place.longer? ↔
      ∃ ending ∈ others.flatMap suffixes, ∃ long : n < ending.length,
        number (ending.take n) = some found ∧ ending[n] = word := by
  rw [h.others_eq, List.filterMap_filterMap, List.mem_filterMap]
  constructor
  · rintro ⟨ending, member, pair⟩
    refine ⟨ending, member, ?_⟩
    by_cases long : n < ending.length
    · rw [placeAt, if_pos (by omega), List.drop_eq_getElem_cons long] at pair
      cases known : number (ending.take n) <;> simp_all [Place.longer?]
    · rw [placeAt] at pair
      split at pair
      · rw [List.drop_eq_nil_of_le (by omega)] at pair
        cases known : number (ending.take n) <;> simp_all [Place.longer?]
      · cases pair
  · rintro ⟨ending, member, long, known, rfl⟩
    refine ⟨ending, member, ?_⟩
    rw [placeAt, if_pos (by omega), List.drop_eq_getElem_cons long, known]
    rfl

/-- The numbers of runs lead to numbers of the runs that are one word longer. -/
theorem Numbers.longer {others : List (List String)} {line : List String} {n : Nat}
    {number : List String → Option Nat} {shared : SharedRuns}
    (h : Numbers others line n number shared) :
    Numbers others line (n + 1)
      (longerNumber number (numbering (shared.others.filterMap Place.longer?)))
      shared.longer where
  inj := by
    intro run run' found first second
    simp only [longerNumber, Option.bind_eq_some_iff] at first second
    obtain ⟨start, startNumber, word, last, pair⟩ := first
    obtain ⟨start', startNumber', word', last', pair'⟩ := second
    obtain ⟨rfl, rfl⟩ := Prod.mk.inj (numbering_inj pair pair')
    obtain ⟨before, rfl⟩ := List.getLast?_eq_some_iff.mp last
    obtain ⟨before', rfl⟩ := List.getLast?_eq_some_iff.mp last'
    rw [List.dropLast_concat] at startNumber startNumber'
    rw [h.inj _ _ _ startNumber startNumber']
  known := by
    intro ending member long
    obtain ⟨found, known⟩ := Option.isSome_iff_exists.mp (h.known ending member (by omega))
    rw [take_succ_of_lt (by omega), longerNumber_concat, known, Option.bind_some,
      ← Std.HashMap.mem_iff_isSome_getElem?, mem_numbering, h.mem_longer?]
    exact ⟨ending, member, by omega, known, rfl⟩
  sound := by
    intro _ run known
    obtain ⟨found, known⟩ := Option.isSome_iff_exists.mp known
    simp only [longerNumber, Option.bind_eq_some_iff] at known
    obtain ⟨start, startNumber, word, last, pair⟩ := known
    have inside := mem_numbering.mp
      (Std.HashMap.mem_iff_isSome_getElem?.mpr (Option.isSome_iff_exists.mpr ⟨_, pair⟩))
    obtain ⟨ending, member, long, startNumber', rfl⟩ := h.mem_longer?.mp inside
    obtain ⟨other, member, suffix⟩ := List.mem_flatMap.mp member
    obtain ⟨before, rfl⟩ := List.getLast?_eq_some_iff.mp last
    rw [List.dropLast_concat] at startNumber
    refine ⟨other, member, mem_runs_iff.mpr ⟨ending, suffix, by omega, ?_⟩⟩
    rw [take_succ_of_lt long, h.inj _ _ _ startNumber startNumber']
  others_eq := by
    simp only [SharedRuns.longer]
    generalize numbering (shared.others.filterMap Place.longer?) = numbers
    rw [h.others_eq, List.filterMap_filterMap]
    simp only [next?_placeAt]
  line_eq := by
    simp only [SharedRuns.longer]
    rw [h.line_eq, List.filterMap_filterMap]
    simp only [next?_placeAt]

theorem exists_numbers (others : List (List String)) (line : List String) (n : Nat) :
    ∃ number, Numbers others line n number (ofLength others line n) := by
  induction n with
  | zero => exact ⟨_, numbers_empty others line⟩
  | succ n ih =>
    obtain ⟨number, h⟩ := ih
    exact ⟨_, h.longer⟩

/-- The places behind the shared runs of a length are as many as there are such runs. -/
theorem length_ofLength (others : List (List String)) (line : List String) {n : Nat} (h : 0 < n) :
    (ofLength others line n).line.length = sharedRuns others line n := by
  obtain ⟨number, numbers⟩ := exists_numbers others line n
  rw [numbers.line_eq, List.length_filterMap_eq_countP, sharedRuns_eq]
  apply List.countP_congr
  intro ending _
  simp only [placeAt, decide_eq_true_eq]
  by_cases long : n ≤ ending.length
  · simp only [long, if_true, true_and, Option.isSome_map]
    constructor
    · exact numbers.sound h _
    · rintro ⟨other, member, shared⟩
      obtain ⟨ending', found, long', same⟩ := mem_runs_iff.mp shared
      rw [← same]
      exact numbers.known ending' (List.mem_flatMap.mpr ⟨other, member, found⟩) long'
  · simp [long]

end SharedRuns

end SystemCombination.Decoder
