import Mathlib.Data.Nat.Find
import Mathlib.Order.Bounds.Basic
import Mathlib.Order.Monotone.Basic
import SystemCombination.Decoder.Features
import SystemCombination.Proofs.Binary64.Zero

/-! What the n-grams of a line count. `SharedAt` says that the line of another system holds the same
tokens somewhere, and `sharedCount` at how many places of the line. These counts fall as the runs
get longer, so those that are not zero belong to the lengths up to that of the longest shared
run. -/

namespace SystemCombination

/-- The same `n` words stand in two lines, from `start` on in one and `start'` on in the other. -/
def SameRun (n : Nat) (words words' : List String) (start start' : Nat) : Prop :=
  start + n ≤ words.length ∧ start' + n ≤ words'.length ∧
    ∀ k < n, words[start + k]? = words'[start' + k]?

instance (n : Nat) (words words' : List String) (start start' : Nat) :
    Decidable (SameRun n words words' start start') :=
  inferInstanceAs (Decidable (start + n ≤ words.length ∧ start' + n ≤ words'.length ∧
    ∀ k < n, words[start + k]? = words'[start' + k]?))

theorem SameRun.of_succ {n : Nat} {line line' : List String} {start start' : Nat}
    (h : SameRun (n + 1) line line' start start') : SameRun n line line' start start' := by
  obtain ⟨inside, inside', same⟩ := h
  exact ⟨by omega, by omega, fun k less => same k (by omega)⟩

namespace Segment

/-- The line of another system holds, at some place, the `n` tokens that stand in a line of `system`
from `start` on. -/
def SharedAt (segment : Segment) (system : Nat) (line : List String) (n start : Nat) : Prop :=
  ∃ entry ∈ segment.systems.zipIdx, entry.2 ≠ system ∧
    ∃ start' ≤ entry.1.tokens.length, SameRun n line entry.1.tokens start start'

instance (segment : Segment) (system : Nat) (line : List String) (n start : Nat) :
    Decidable (segment.SharedAt system line n start) :=
  inferInstanceAs (Decidable (∃ entry ∈ segment.systems.zipIdx, entry.2 ≠ system ∧
    ∃ start' ≤ entry.1.tokens.length, SameRun n line entry.1.tokens start start'))

/-- At how many places of a line of `system` there are `n` tokens that the line of another system
holds too. -/
def sharedCount (segment : Segment) (system : Nat) (line : List String) (n : Nat) : Nat :=
  (List.range line.length).countP fun start => segment.SharedAt system line n start

end Segment

namespace Decoder

/-! ### Runs by their places -/

theorem take_drop_eq_iff {n : Nat} {line line' : List String} {start start' : Nat}
    (inside : start + n ≤ line.length) (inside' : start' + n ≤ line'.length) :
    (line.drop start).take n = (line'.drop start').take n ↔ SameRun n line line' start start' := by
  simp only [List.ext_getElem?_iff, List.getElem?_take, List.getElem?_drop]
  constructor
  · intro same
    refine ⟨inside, inside', fun k less => ?_⟩
    have tokens := same k
    rwa [if_pos less, if_pos less] at tokens
  · rintro ⟨_, _, same⟩ k
    by_cases less : k < n
    · rw [if_pos less, if_pos less, same k less]
    · rw [if_neg less, if_neg less]

theorem suffixes_eq (line : List String) :
    suffixes line = (List.range line.length).map line.drop := by
  induction line with
  | nil => rfl
  | cons word line ih =>
    rw [suffixes_cons, ih, List.length_cons, List.range_succ_eq_map, List.map_cons, List.map_map]
    rfl

/-- The runs of a line by the places at which they start. -/
theorem mem_runs_iff_start {n : Nat} (h : 0 < n) {run line : List String} :
    run ∈ runs n line ↔ ∃ start, start + n ≤ line.length ∧ (line.drop start).take n = run := by
  rw [mem_runs_iff, suffixes_eq]
  simp only [List.mem_map, List.mem_range]
  constructor
  · rintro ⟨_, ⟨start, within, rfl⟩, long, rfl⟩
    rw [List.length_drop] at long
    exact ⟨start, by omega, rfl⟩
  · rintro ⟨start, inside, rfl⟩
    refine ⟨line.drop start, ⟨start, by omega, rfl⟩, ?_, rfl⟩
    rw [List.length_drop]
    omega

section Shared

variable {segment : Segment} {system : Nat} {line : List String} {n start : Nat}

theorem mem_others_iff {other : List String} :
    other ∈ (segment.others system).map Rendition.tokens ↔
      ∃ entry ∈ segment.systems.zipIdx, entry.2 ≠ system ∧ entry.1.tokens = other := by
  simp [Segment.others, and_assoc]

theorem sharedAt_iff (h : 0 < n) :
    segment.SharedAt system line n start ↔ start + n ≤ line.length ∧
      ∃ other ∈ (segment.others system).map Rendition.tokens,
        (line.drop start).take n ∈ runs n other := by
  simp only [mem_runs_iff_start h, mem_others_iff]
  constructor
  · rintro ⟨entry, member, apart, start', _, run⟩
    have ⟨inside, inside', _⟩ := run
    exact ⟨inside, _, ⟨entry, member, apart, rfl⟩, start', inside',
      ((take_drop_eq_iff inside inside').mpr run).symm⟩
  · rintro ⟨inside, _, ⟨entry, member, apart, rfl⟩, start', inside', same⟩
    have run := (take_drop_eq_iff inside inside').mp same.symm
    exact ⟨entry, member, apart, start', by omega, run⟩

/-- The shared runs, counted by the places at which they start. -/
theorem sharedRuns_eq_sharedCount (h : 0 < n) :
    sharedRuns ((segment.others system).map Rendition.tokens) line n =
      segment.sharedCount system line n := by
  rw [sharedRuns_eq, suffixes_eq, List.countP_map, Segment.sharedCount]
  refine List.countP_congr fun start inside => ?_
  rw [List.mem_range] at inside
  simp only [Function.comp_apply, decide_eq_true_eq, List.length_drop, sharedAt_iff h]
  have reaches : n ≤ line.length - start ↔ start + n ≤ line.length := by omega
  rw [reaches]

/-- No more runs are shared if they are longer. -/
theorem sharedCount_antitone (segment : Segment) (system : Nat) (line : List String) :
    Antitone (segment.sharedCount system line) := by
  apply antitone_nat_of_succ_le
  intro n
  refine List.countP_mono_left fun start _ => ?_
  simp only [decide_eq_true_eq]
  rintro ⟨entry, member, apart, start', within, run⟩
  exact ⟨entry, member, apart, start', within, run.of_succ⟩

theorem sharedCount_ne_zero_iff (h : 0 < n) :
    segment.sharedCount system line n ≠ 0 ↔ ∃ start, segment.SharedAt system line n start := by
  rw [Segment.sharedCount, ← Nat.pos_iff_ne_zero, List.countP_pos_iff]
  simp only [List.mem_range, decide_eq_true_eq]
  constructor
  · rintro ⟨start, _, shared⟩
    exact ⟨start, shared⟩
  · rintro ⟨start, shared⟩
    have ⟨inside, _⟩ := (sharedAt_iff h).mp shared
    exact ⟨start, by omega, shared⟩

/-- The longest shared run is known by there being no longer one: the counts that are not zero are
those up to its length. -/
theorem sharedCount_ne_zero_iff_le {longest : Nat}
    (some : longest = 0 ∨ segment.sharedCount system line longest ≠ 0)
    (none : segment.sharedCount system line (longest + 1) = 0) (h : 0 < n) :
    segment.sharedCount system line n ≠ 0 ↔ n ≤ longest := by
  constructor
  · intro found
    by_contra past
    have fewer := sharedCount_antitone segment system line (show longest + 1 ≤ n by omega)
    omega
  · intro within
    have fewer := sharedCount_antitone segment system line within
    omega

theorem sharedCount_past_end (segment : Segment) (system : Nat) (line : List String) :
    segment.sharedCount system line (line.length + 1) = 0 := by
  by_contra some
  obtain ⟨start, shared⟩ := (sharedCount_ne_zero_iff (Nat.succ_pos _)).mp some
  have ⟨inside, _⟩ := (sharedAt_iff (Nat.succ_pos _)).mp shared
  omega

/-- Runs are shared up to the length of the longest one. -/
theorem exists_longest (segment : Segment) (system : Nat) (line : List String) :
    ∃ longest ≤ line.length,
      ∀ n, 0 < n → (segment.sharedCount system line n ≠ 0 ↔ n ≤ longest) := by
  -- The longest shared run has the first length past which nothing is shared.
  have ends : ∃ n, segment.sharedCount system line (n + 1) = 0 :=
    ⟨line.length, sharedCount_past_end segment system line⟩
  have some : Nat.find ends = 0 ∨ segment.sharedCount system line (Nat.find ends) ≠ 0 := by
    cases at' : Nat.find ends with
    | zero => exact .inl rfl
    | succ n => exact .inr (Nat.find_min ends (by omega))
  refine ⟨Nat.find ends, Nat.find_min' ends (sharedCount_past_end segment system line), ?_⟩
  intro n
  exact sharedCount_ne_zero_iff_le some (Nat.find_spec ends)

end Shared

/-! ### The sum over the lengths -/

/-- What the shared runs of `n` tokens count in all, for a model of the given order. -/
def weighted (order : Nat) (base : Binary64) (count : Nat → Nat) (n : Nat) : Binary64 :=
  base.power (min (order - n) largestExponent) * .ofNat (count n)

theorem ngramMatchFrom_eq (order : Nat) (base total : Binary64) (others : List (List String))
    (line : List String) (n orders : Nat) :
    ngramMatchFrom order base total (n + 1) (.ofLength others line n) orders =
      (((List.range' (n + 1) orders).takeWhile (sharedRuns others line · ≠ 0)).map
        (weighted order base (sharedRuns others line))).foldl (· + ·) total := by
  induction orders generalizing total n with
  | zero => rfl
  | succ orders ih =>
    have count : (SharedRuns.ofLength others line n).longer.line.length =
        sharedRuns others line (n + 1) :=
      SharedRuns.length_ofLength others line (Nat.succ_pos n)
    rw [List.range'_succ, List.takeWhile_cons]
    simp only [ngramMatchFrom, count]
    by_cases none : sharedRuns others line (n + 1) = 0
    · simp [none]
    · simp only [none, if_false, ne_eq, not_false_eq_true, decide_true, if_true, List.map_cons,
        List.foldl_cons]
      exact ih _ (n + 1)

section Range

variable {p : Nat → Bool} {m l : Nat}

theorem range'_one_append (h : m ≤ l) :
    List.range' 1 l = List.range' 1 m ++ List.range' (1 + m) (l - m) := by
  rw [List.range'_append_1, Nat.add_sub_of_le h]

variable (h : m ≤ l) (stops : ∀ n, 0 < n → n ≤ l → (p n = true ↔ n ≤ m))

include h stops

theorem kept_of_mem_range' : ∀ n ∈ List.range' 1 m, p n = true := by
  intro n member
  rw [List.mem_range'_1] at member
  exact (stops n (by omega) (by omega)).mpr (by omega)

theorem takeWhile_range'_one : (List.range' 1 l).takeWhile p = List.range' 1 m := by
  have left : (List.range' (1 + m) (l - m)).takeWhile p = [] := by
    cases rest : l - m with
    | zero => rfl
    | succ rest =>
      have stop : ¬p (1 + m) = true := by
        rw [stops (1 + m) (by omega) (by omega)]
        omega
      rw [List.range'_succ, List.takeWhile_cons_of_neg stop]
  rw [range'_one_append h, List.takeWhile_append_of_pos (kept_of_mem_range' h stops), left,
    List.append_nil]

theorem filter_range'_one : (List.range' 1 l).filter p = List.range' 1 m := by
  have left : ∀ n ∈ List.range' (1 + m) (l - m), ¬p n = true := by
    intro n member
    rw [List.mem_range'_1] at member
    rw [stops n (by omega) (by omega)]
    omega
  rw [range'_one_append h, List.filter_append,
    List.filter_eq_self.mpr (kept_of_mem_range' h stops), List.filter_eq_nil_iff.mpr left,
    List.append_nil]

end Range

/-! ### The feature -/

theorem isGreatest_longest {segment : Segment} {system : Nat} {line : List String} {longest : Nat}
    (stops : ∀ n, 0 < n → (segment.sharedCount system line n ≠ 0 ↔ n ≤ longest)) :
    IsGreatest {n | n = 0 ∨ ∃ start, segment.SharedAt system line n start} longest := by
  constructor
  · by_cases none : longest = 0
    · exact .inl none
    · have positive := Nat.pos_of_ne_zero none
      exact .inr ((sharedCount_ne_zero_iff positive).mp ((stops _ positive).mpr (Nat.le_refl _)))
  · rintro n (rfl | shared)
    · exact Nat.zero_le _
    · by_cases none : n = 0
      · omega
      · have positive := Nat.pos_of_ne_zero none
        exact (stops n positive).mp ((sharedCount_ne_zero_iff positive).mpr shared)

section Feature

variable {segment : Segment} {system : Nat} {line : List String} {longest : Nat}
  (within : longest ≤ line.length)
  (stops : ∀ n, 0 < n → (segment.sharedCount system line n ≠ 0 ↔ n ≤ longest))

include within stops

/-- The lengths whose runs are counted are those up to that of the longest shared run. -/
theorem filter_sharedCount (order : Nat) :
    ((List.range' 1 (min order line.length)).filter fun n =>
      segment.sharedCount system line n ≠ 0) = List.range' 1 (min order longest) := by
  apply filter_range'_one (by omega)
  intro n positive reached
  rw [decide_eq_true_eq, stops n positive]
  omega

theorem ngramMatch_eq_total (order : Nat) (base : Binary64) :
    ngramMatch order base ((segment.others system).map Rendition.tokens) line =
      (Binary64.total ((List.range' 1 (min order longest)).map
        (weighted order base (segment.sharedCount system line)))).clamp := by
  let others := (segment.others system).map Rendition.tokens
  have kept : ((List.range' 1 (min order line.length)).takeWhile fun n =>
      sharedRuns others line n ≠ 0) = List.range' 1 (min order longest) := by
    apply takeWhile_range'_one (by omega)
    intro n positive reached
    rw [decide_eq_true_eq, sharedRuns_eq_sharedCount positive, stops n positive]
    omega
  have run := ngramMatchFrom_eq order base 0 others line 0 (min order line.length)
  rw [kept] at run
  have counts : (List.range' 1 (min order longest)).map
      (weighted order base (sharedRuns others line)) = (List.range' 1 (min order longest)).map
        (weighted order base (segment.sharedCount system line)) := by
    refine List.map_congr_left fun n member => ?_
    rw [List.mem_range'_1] at member
    rw [weighted, weighted, sharedRuns_eq_sharedCount (by omega)]
  rw [counts] at run
  exact congrArg Binary64.clamp run

end Feature

theorem runs_one (line : List String) : runs 1 line = line.map fun token => [token] := by
  induction line with
  | nil => rfl
  | cons token line ih =>
    rw [runs] at ih ⊢
    rw [suffixes_cons, List.map_cons, List.filter_cons_of_pos (by simp), ih]
    simp

theorem overlap_eq_sharedCount (segment : Segment) (system : Nat) (line : List String) :
    overlap ((segment.others system).map Rendition.tokens) line =
      segment.sharedCount system line 1 := by
  rw [← sharedRuns_eq_sharedCount Nat.one_pos, sharedRuns, runs_one, List.countP_map, overlap]
  refine List.countP_congr fun token _ => ?_
  simp only [Function.comp_apply, Std.HashSet.contains_ofList, List.contains_iff_mem,
    List.mem_flatten, List.any_eq_true, runs_one, List.mem_map, List.cons.injEq, and_true,
    exists_eq_right]

/-- At each length the feature counts the places of the line whose run another system shares. The
counts fall, so those that are not zero are the ones up to the longest shared run; these are
weighted and added up by rising length, as far as the order of the model goes. -/
theorem ngramMatch_of_shared_runs (segment : Segment) (system : Nat) (line : List String)
    (order : Nat) (base : Binary64) :
    let others := (segment.others system).map Rendition.tokens
    let count := segment.sharedCount system line
    (∀ n, 0 < n → (SharedRuns.ofLength others line n).line.length = count n) ∧
    Antitone count ∧
    (∀ n ∈ List.range' 1 (min order line.length), n ≤ order) ∧
    overlap others line = count 1 ∧
    ∃ longest, IsGreatest {n | n = 0 ∨ ∃ start, segment.SharedAt system line n start} longest ∧
      ((List.range' 1 (min order line.length)).filter fun n => count n ≠ 0) =
        List.range' 1 (min order longest) ∧
      ngramMatch order base others line =
        (Binary64.total ((List.range' 1 (min order longest)).map fun n =>
          base.power (min (order - n) largestExponent) * .ofNat (count n))).clamp ∧
      (min order longest = 0 → ngramMatch order base others line = 0) := by
  intro others count
  obtain ⟨longest, within, stops⟩ := exists_longest segment system line
  have sum := ngramMatch_eq_total within stops order base
  refine ⟨fun n positive => ?_, sharedCount_antitone segment system line, fun n member => ?_,
    overlap_eq_sharedCount segment system line, longest,
    isGreatest_longest stops, filter_sharedCount within stops order, sum, fun none => ?_⟩
  · rw [SharedRuns.length_ofLength others line positive]
    exact sharedRuns_eq_sharedCount positive
  · rw [List.mem_range'_1] at member
    omega
  · rw [none] at sum
    exact sum.trans (show Binary64.clamp 0 = 0 by decide +kernel)

/-- Of two equal lines of two tokens, a model of the second order counts both tokens, at half their
weight, and the run of both. -/
theorem ngramMatch_of_shared_runs_of_equal_lines :
    ∃ (segment : Segment) (line : List String) (half : Binary64),
      (segment.systems.map Rendition.tokens)[0]? = some line ∧ half + half = 1 ∧
      (SharedRuns.ofLength ((segment.others 0).map Rendition.tokens) line 1).line.length = 2 ∧
      (SharedRuns.ofLength ((segment.others 0).map Rendition.tokens) line 2).line.length = 1 ∧
      ngramMatch 2 half ((segment.others 0).map Rendition.tokens) line = 2 ∧
      ngramMatch 0 half ((segment.others 0).map Rendition.tokens) line = 0 := by
  let line : List String := ["the", "cat"]
  let rendition : Rendition := ⟨line, [none, none], 1⟩
  let segment : Segment := ⟨0, [rendition, rendition], []⟩
  let half : Binary64 := ⟨0x3FE0000000000000⟩
  obtain ⟨counts, -, -, -, longest, greatest, -, sum, -⟩ :=
    ngramMatch_of_shared_runs segment 0 line 2 half
  obtain ⟨-, -, -, -, _, _, -, -, none⟩ := ngramMatch_of_shared_runs segment 0 line 0 half
  have stops (n : Nat) (positive : 0 < n) : segment.sharedCount 0 line n ≠ 0 ↔ n ≤ 2 :=
    sharedCount_ne_zero_iff_le (by decide) (by decide) positive
  have two : longest = 2 := greatest.unique (isGreatest_longest stops)
  refine ⟨segment, line, half, rfl, by decide +kernel, ?_, ?_, ?_, ?_⟩
  · rw [counts 1 (by decide)]
    decide
  · rw [counts 2 (by decide)]
    decide
  · rw [sum, two]
    decide +kernel
  · exact none (Nat.zero_min _)

/-- Past the largest exponent the weight of a run does not follow the order of the model. -/
theorem ngramMatch_ne_of_order_past_largestExponent :
    ∃ (segment : Segment) (line : List String) (base : Binary64),
      let order := largestExponent + 2
      let count := segment.sharedCount 0 line
      (segment.systems.map Rendition.tokens)[0]? = some line ∧
      IsGreatest {n | n = 0 ∨ ∃ start, segment.SharedAt 0 line n start} 1 ∧
      ngramMatch order base ((segment.others 0).map Rendition.tokens) line = -1 ∧
      (Binary64.total ((List.range' 1 (min order 1)).map fun n =>
        base.power (order - n) * .ofNat (count n))).clamp = 1 ∧ (-1 : Binary64) ≠ 1 := by
  let line : List String := ["a"]
  let rendition : Rendition := ⟨line, [none], 1⟩
  let segment : Segment := ⟨0, [rendition, rendition], []⟩
  have stops (n : Nat) (positive : 0 < n) : segment.sharedCount 0 line n ≠ 0 ↔ n ≤ 1 :=
    sharedCount_ne_zero_iff_le (by decide) (by decide) positive
  refine ⟨segment, line, -1, rfl, isGreatest_longest stops, ?_, by decide +kernel,
    by decide +kernel⟩
  rw [ngramMatch_eq_total (Nat.le_refl 1) stops]
  decide +kernel

end Decoder

end SystemCombination
