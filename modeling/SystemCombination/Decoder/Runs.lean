/-! Runs of words that stand side by side in a line, and how many of them other lines share. Every
run starts a suffix of the line, so `sharedRuns_eq` counts the shared ones by the suffixes. -/

namespace SystemCombination.Decoder

/-- What stands in a line from each of its places on. -/
def suffixes (line : List String) : List (List String) :=
  line.foldr (fun word found => (word :: found.head?.getD []) :: found) []

/-- The runs of `n` words in a line, one for each place that enough words follow. -/
def runs (n : Nat) (line : List String) : List (List String) :=
  ((suffixes line).map (·.take n)).filter fun run => run.length = n

/-- At how many places of a line a run of `n` words starts that another line has too. -/
def sharedRuns (others : List (List String)) (line : List String) (n : Nat) : Nat :=
  (runs n line).countP fun run => others.any fun other => (runs n other).contains run

/-- The first suffix is the line itself. -/
theorem head_suffixes (line : List String) : (suffixes line).head?.getD [] = line := by
  induction line with
  | nil => rfl
  | cons word line ih =>
    simp only [suffixes, List.foldr_cons, List.head?_cons, Option.getD_some] at ih ⊢
    rw [ih]

theorem suffixes_cons (word : String) (line : List String) :
    suffixes (word :: line) = (word :: line) :: suffixes line := by
  have first := head_suffixes line
  simp only [suffixes, List.foldr_cons] at first ⊢
  rw [first]

/-- The runs of a line start its suffixes. -/
theorem mem_runs_iff {n : Nat} {run line : List String} :
    run ∈ runs n line ↔ ∃ ending ∈ suffixes line, n ≤ ending.length ∧ ending.take n = run := by
  simp only [runs, List.mem_filter, List.mem_map, decide_eq_true_eq]
  constructor
  · rintro ⟨⟨ending, found, rfl⟩, length⟩
    rw [List.length_take] at length
    exact ⟨ending, found, by omega, rfl⟩
  · rintro ⟨ending, found, long, rfl⟩
    exact ⟨⟨ending, found, rfl⟩, by rw [List.length_take]; omega⟩

/-- The shared runs, counted by the suffixes that they start. -/
theorem sharedRuns_eq (others : List (List String)) (line : List String) (n : Nat) :
    sharedRuns others line n =
      (suffixes line).countP fun ending =>
        n ≤ ending.length ∧ ∃ other ∈ others, ending.take n ∈ runs n other := by
  unfold sharedRuns
  rw [show runs n line = ((suffixes line).map (·.take n)).filter fun run => run.length = n from rfl,
    List.countP_filter, List.countP_map]
  congr 1
  funext ending
  rw [Bool.eq_iff_iff]
  simp only [Function.comp_apply, Bool.and_eq_true, List.any_eq_true, List.contains_iff_mem,
    decide_eq_true_eq, List.length_take]
  have reaches : min n ending.length = n ↔ n ≤ ending.length := by omega
  rw [reaches]
  exact and_comm

end SystemCombination.Decoder
