import Mathlib.Data.List.Nodup
import SystemCombination.Proofs.Segment.Matches

/-! Alignments where only the nearest match in each line counts, the leftmost of two as near. A
cell names a line at most once: where the line has a match, at the nearest, and otherwise, if a
third system may mediate, at the choice of the first system that does. -/

namespace SystemCombination.Alignment

/-! ### The nearest match -/

/-- One of two positions has the lesser value, or the same value farther left. -/
def Beats (f : Nat → Nat) (q other : Nat) : Prop := f q < f other ∨ f q = f other ∧ q ≤ other

theorem beats_of_minOn? {f : Nat → Nat} {positions : List Nat}
    (rising : positions.Pairwise (· < ·)) {q other : Nat} (found : positions.minOn? f = some q)
    (member : other ∈ positions) : Beats f q other := by
  induction positions generalizing q with
  | nil => cases member
  | cons first positions ih =>
    obtain ⟨before, rising⟩ := List.pairwise_cons.mp rising
    rw [List.minOn?_cons, Option.some.injEq] at found
    cases nearest : positions.minOn? f with
    | none =>
      have none_left : positions = [] := by
        by_contra some_left
        simpa [nearest] using List.isSome_minOn?_iff (f := f).mpr some_left
      subst none_left
      obtain rfl : first = q := found
      obtain rfl : other = first := List.mem_singleton.mp member
      exact .inr ⟨rfl, Nat.le_refl _⟩
    | some least =>
      have later := before least (List.minOn?_mem nearest)
      rw [nearest, Option.elim_some, minOn_eq_if] at found
      rcases List.mem_cons.mp member with rfl | member
      · split at found
        · obtain rfl := found
          exact .inr ⟨rfl, Nat.le_refl _⟩
        · next less =>
          obtain rfl := found
          exact .inl (Nat.lt_of_not_le less)
      · have behind := ih rising nearest member
        split at found
        · next no_less =>
          obtain rfl := found
          unfold Beats at *
          omega
        · obtain rfl := found
          exact behind

theorem minOn?_eq_some_iff {f : Nat → Nat} {positions : List Nat}
    (rising : positions.Pairwise (· < ·)) {q : Nat} :
    positions.minOn? f = some q ↔ q ∈ positions ∧ ∀ other ∈ positions, Beats f q other := by
  constructor
  · exact fun found => ⟨List.minOn?_mem found, fun _ => beats_of_minOn? rising found⟩
  · rintro ⟨member, best⟩
    obtain ⟨least, found⟩ := Option.isSome_iff_exists.mp (List.isSome_minOn?_of_mem (f := f) member)
    have ahead := best least (List.minOn?_mem found)
    have behind := beats_of_minOn? rising found member
    rw [found, Option.some.injEq]
    unfold Beats at *
    omega

/-- A match that no other match in its line is nearer than, nor as near and farther left. -/
structure Nearest (radius : Nat) (lines : List (List String)) (place token : TokenRef) :
    Prop where
  isMatch : Matches radius lines place token
  best : ∀ position, Matches radius lines place ⟨token.system, position⟩ →
    Beats (distance place.position) token.position position

section Direct

variable {settings : InputSettings} {radius : Nat} {lines : List (List String)}
  {place token : TokenRef}

theorem Nearest.unique {token' : TokenRef} (h : Nearest radius lines place token)
    (h' : Nearest radius lines place token') (same : token.system = token'.system) :
    token = token' := by
  obtain ⟨system, position⟩ := token
  obtain ⟨system', position'⟩ := token'
  obtain rfl : system = system' := same
  have ahead := h.best position' h'.isMatch
  have behind := h'.best position h.isMatch
  simp only [Beats] at ahead behind
  rw [TokenRef.mk.injEq]
  exact ⟨rfl, by omega⟩

theorem mem_at_direct_of_nearest (nearest : settings.pickBest = true) :
    token ∈ (direct settings lines).at place ↔ Nearest settings.radius lines place token := by
  have candidate {word : String} {line : List String} (apart : token.system ≠ place.system)
      (isWord : wordAt? lines place = some word) (isLine : lines[token.system]? = some line)
      (q : Nat) : q ∈ candidates word place.position settings.radius line.toArray ↔
        Matches settings.radius lines place ⟨token.system, q⟩ := by
    rw [← exists_candidate_iff]
    constructor
    · exact fun member => ⟨apart, word, line, isWord, isLine, member⟩
    · rintro ⟨_, word', line', isWord', isLine', member⟩
      obtain rfl := Option.some.inj (isWord.symm.trans isWord')
      obtain rfl := Option.some.inj (isLine.symm.trans isLine')
      exact member
  have picks {word : String} {line : List String} (apart : token.system ≠ place.system)
      (isWord : wordAt? lines place = some word) (isLine : lines[token.system]? = some line) :
      token.position ∈ chosen settings.pickBest place.position
          (candidates word place.position settings.radius line.toArray) ↔
        Nearest settings.radius lines place token := by
    rw [nearest, chosen, if_pos rfl, Option.mem_toList,
      minOn?_eq_some_iff (pairwise_candidates ..)]
    simp only [candidate apart isWord isLine]
    exact ⟨fun ⟨isMatch, best⟩ => ⟨isMatch, best⟩, fun ⟨isMatch, best⟩ => ⟨isMatch, best⟩⟩
  rw [mem_at_direct]
  constructor
  · rintro ⟨apart, word, line, isWord, isLine, isChosen⟩
    exact (picks apart isWord isLine).mp isChosen
  · intro isNearest
    obtain ⟨apart, word, line, isWord, isLine, _⟩ := exists_candidate_iff.mpr isNearest.isMatch
    exact ⟨apart, word, line, isWord, isLine, (picks apart isWord isLine).mpr isNearest⟩

theorem pairwise_systems_direct (nearest : settings.pickBest = true)
    (lines : List (List String)) (place : TokenRef) :
    (systemsOf ((direct settings lines).at place)).Pairwise (· < ·) := by
  refine List.pairwise_map.mpr ((pairwise_at_direct settings lines place).imp_of_mem ?_)
  intro a b isFirst isSecond before
  rcases before with before | ⟨same, before⟩
  · exact before
  · have isNearest := (mem_at_direct_of_nearest nearest).mp isFirst
    obtain rfl := isNearest.unique ((mem_at_direct_of_nearest nearest).mp isSecond) same
    exact absurd before (Nat.lt_irrefl _)

end Direct

/-! ### The first system that mediates -/

section Close

variable {matched : TokenRef → List TokenRef} {own : Nat} {cell : List TokenRef}

/-- A closed cell names no line twice. -/
theorem nodup_systems_closeCell (once : (systemsOf cell).Nodup) :
    (systemsOf (closeCell true matched own cell)).Nodup := by
  refine List.Nodup.of_map (fun system => (system, 0)) ?_
  have keys (tokens : List TokenRef) : (systemsOf tokens).map (fun system => (system, 0)) =
      tokens.map (knownBy true) := by
    rw [List.map_map]
    rfl
  have known : (cell.map (knownBy true)).Nodup := by
    rw [← keys]
    exact once.map fun _ _ same => (Prod.mk.inj same).1
  rw [keys, closeCell, List.map_append]
  refine List.nodup_append.mpr ⟨known, nodup_map_distinct .., ?_⟩
  rintro key isKnown _ isNew rfl
  have new := (mem_map_distinct.mp isNew).2
  rw [Std.HashSet.mem_ofList, List.contains_iff_mem] at new
  exact new isKnown

theorem find?_eq_some_iff_mem {tokens : List TokenRef} (once : (systemsOf tokens).Nodup)
    {token : TokenRef} :
    tokens.find? (fun other => other.system = token.system) = some token ↔ token ∈ tokens := by
  refine ⟨List.mem_of_find?_eq_some, fun member => ?_⟩
  cases found : tokens.find? (fun other => other.system = token.system) with
  | none => simpa using List.find?_eq_none.mp found token member
  | some other =>
    have same : other.system = token.system := by simpa using List.find?_some found
    rw [List.inj_on_of_nodup_map once (List.mem_of_find?_eq_some found) member same]

/-- A line that no token of a cell stands in is named by the closed cell at the token that the
first token of the cell that reaches the line matches there. -/
theorem mem_closeCell_of_new (rising : (systemsOf cell).Pairwise (· < ·))
    (once : ∀ hop, (systemsOf (matched hop)).Nodup) {token : TokenRef}
    (apart : token.system ≠ own) (new : token.system ∉ systemsOf cell) :
    token ∈ closeCell true matched own cell ↔
      ∃ hop ∈ cell, token ∈ matched hop ∧ ∀ earlier ∈ cell, earlier.system < hop.system →
        token.system ∉ systemsOf (matched earlier) := by
  have unknown : knownBy true token ∉ Std.HashSet.ofList (cell.map (knownBy true)) := by
    rw [Std.HashSet.mem_ofList, List.contains_iff_mem]
    intro known
    obtain ⟨other, member, same⟩ := List.mem_map.mp known
    exact new (List.mem_map.mpr ⟨other, member, congrArg Prod.fst same⟩)
  have absent : token ∉ cell := fun member => new (List.mem_map_of_mem member)
  have wanted (other : TokenRef) : (decide (other.system ≠ own) = true ∧
      (knownBy true other == knownBy true token) = true) ↔ other.system = token.system := by
    simp only [knownBy, decide_eq_true_eq, beq_iff_eq, Prod.mk.injEq, if_true, and_true]
    exact ⟨And.right, fun same => ⟨same ▸ apart, same⟩⟩
  have nothing (hop : TokenRef) :
      (matched hop).find? (fun other => other.system = token.system) = none ↔
        token.system ∉ systemsOf (matched hop) := by
    simp [List.find?_eq_none, List.mem_map]
  rw [closeCell, List.mem_append, or_iff_right absent, mem_distinct, and_iff_right unknown,
    List.find?_filter]
  simp only [wanted, List.find?_flatMap, List.findSome?_eq_some_iff, nothing,
    find?_eq_some_iff_mem (once _)]
  constructor
  · rintro ⟨before, hop, after, rfl, member, skipped⟩
    refine ⟨hop, by simp, member, fun earlier isEarlier less => skipped earlier ?_⟩
    -- What stands behind the hop in the cell belongs to a later system.
    obtain ⟨-, behind, -⟩ := List.pairwise_append.mp (List.pairwise_map.mp rising)
    rcases List.mem_append.mp isEarlier with isBefore | isBehind
    · exact isBefore
    rcases List.mem_cons.mp isBehind with rfl | isAfter
    · exact absurd less (Nat.lt_irrefl _)
    · have later := (List.pairwise_cons.mp behind).1 earlier isAfter
      exact absurd less (Nat.lt_asymm later)
  · rintro ⟨hop, isHop, member, skipped⟩
    obtain ⟨before, after, rfl⟩ := List.append_of_mem isHop
    obtain ⟨-, -, ahead⟩ := List.pairwise_append.mp (List.pairwise_map.mp rising)
    refine ⟨before, hop, after, rfl, member, fun earlier isBefore => ?_⟩
    have less := ahead earlier isBefore hop List.mem_cons_self
    exact skipped earlier (List.mem_append_left _ isBefore) less

end Close

/-! ### The whole table -/

/-- A token that the nearest match of a place is nearest to, in the first line whose nearest match
reaches the line of the token. -/
structure Mediates (radius : Nat) (lines : List (List String)) (place hop token : TokenRef) :
    Prop where
  toHop : Nearest radius lines place hop
  onward : Nearest radius lines hop token
  lowest : ∀ earlier, Nearest radius lines place earlier → earlier.system < hop.system →
    ∀ position, ¬Matches radius lines earlier ⟨token.system, position⟩

section Table

variable {settings : InputSettings} {lines : List (List String)} {place token : TokenRef}

theorem nodup_systems_table (nearest : settings.pickBest = true) (lines : List (List String))
    (place : TokenRef) : (systemsOf ((table settings lines).at place)).Nodup := by
  have once : (systemsOf ((direct settings lines).at place)).Nodup :=
    (pairwise_systems_direct nearest lines place).imp Nat.ne_of_lt
  cases mode : settings.transitive with
  | false => rwa [table_of_direct mode]
  | true =>
    rw [table_of_transitive mode, at_close, nearest]
    exact nodup_systems_closeCell once

theorem mem_at_close_of_new (nearest : settings.pickBest = true)
    (apart : token.system ≠ place.system)
    (new : ∀ position, ¬Matches settings.radius lines place ⟨token.system, position⟩) :
    token ∈ (close true (direct settings lines)).at place ↔
      ∃ hop, Mediates settings.radius lines place hop token := by
  have rising (place : TokenRef) := pairwise_systems_direct nearest lines place
  have unnamed : token.system ∉ systemsOf ((direct settings lines).at place) := by
    rw [mem_systems_direct]
    exact fun ⟨position, isMatch⟩ => new position isMatch
  rw [at_close, mem_closeCell_of_new (rising place) (fun hop => (rising hop).imp Nat.ne_of_lt)
    apart unnamed]
  simp only [mem_at_direct_of_nearest nearest, mem_systems_direct, not_exists]
  constructor
  · rintro ⟨hop, toHop, onward, lowest⟩
    exact ⟨hop, toHop, onward, lowest⟩
  · rintro ⟨hop, toHop, onward, lowest⟩
    exact ⟨hop, toHop, onward, lowest⟩

end Table

/-- Where only the nearest match in each line counts, a cell names a line at most once. A line with
a match is named at the nearest, whether or not a third system may mediate. A line without one is
named if the match in a third line has a match there, and then at the one that is nearest to the
match in the first such line. -/
theorem table_of_nearest_matches {settings : InputSettings} (nearest : settings.pickBest = true)
    (lines : List (List String)) :
    let alignments (transitive : Bool) := table { settings with transitive } lines
    (∀ transitive place, (systemsOf ((alignments transitive).at place)).Nodup) ∧
    (∀ place token, token ∈ (alignments false).at place ↔
      Nearest settings.radius lines place token) ∧
    (∀ place system, system ∈ systemsOf ((alignments false).at place) ↔
      ∃ position, Matches settings.radius lines place ⟨system, position⟩) ∧
    (∀ place, (alignments false).at place <+: (alignments true).at place) ∧
    (∀ place token, token.system ∈ systemsOf ((alignments false).at place) →
      (token ∈ (alignments true).at place ↔ Nearest settings.radius lines place token)) ∧
    ∀ place token, token.system ≠ place.system →
      token.system ∉ systemsOf ((alignments false).at place) →
      (token.system ∈ systemsOf ((alignments true).at place) ↔
        ∃ hop ∈ (alignments false).at place,
          token.system ∈ systemsOf ((alignments false).at hop)) ∧
      (token ∈ (alignments true).at place ↔
        ∃ hop, Mediates settings.radius lines place hop token) := by
  intro alignments
  have ofDirect : alignments false = direct settings lines := table_of_direct rfl
  have ofClosed : alignments true = close true (direct settings lines) := by
    have closed : alignments true = close settings.pickBest (direct settings lines) :=
      table_of_transitive rfl
    rw [closed, nearest]
  have once (transitive : Bool) (place : TokenRef) :
      (systemsOf ((alignments transitive).at place)).Nodup :=
    @nodup_systems_table { settings with transitive } nearest lines place
  have isDirect (place token : TokenRef) : token ∈ (alignments false).at place ↔
      Nearest settings.radius lines place token := by
    rw [ofDirect]
    exact mem_at_direct_of_nearest nearest
  have named (place : TokenRef) (system : Nat) : system ∈ systemsOf ((alignments false).at place) ↔
      ∃ position, Matches settings.radius lines place ⟨system, position⟩ := by
    rw [ofDirect]
    exact mem_systems_direct
  have kept (place : TokenRef) : (alignments false).at place <+: (alignments true).at place := by
    rw [ofDirect, ofClosed, at_close]
    exact List.prefix_append ..
  refine ⟨once, isDirect, named, kept, fun place token matched => ?displaced,
    fun place token apart new => ⟨?reached, ?mediated⟩⟩
  case displaced =>
    rw [← isDirect]
    refine ⟨fun member => ?_, fun member => (kept place).subset member⟩
    obtain ⟨other, isOther, same⟩ := List.mem_map.mp matched
    rwa [← List.inj_on_of_nodup_map (once true place) ((kept place).subset isOther) member same]
  case reached =>
    rw [ofClosed, at_close, mem_systems_closeCell, ← ofDirect, or_iff_right new,
      and_iff_right apart]
  case mediated =>
    rw [named, not_exists] at new
    rw [ofClosed]
    exact mem_at_close_of_new nearest apart new

/-- Two systems that mediate for a line whose tokens are too far away to match: the choice of the
first of them is recorded, although the other one reaches the line farther left. -/
theorem table_of_nearest_matches_of_two_mediators :
    ∃ (settings : InputSettings) (lines : List (List String)),
      settings.pickBest = true ∧
      (table { settings with transitive := false } lines).at ⟨0, 4⟩ = [⟨1, 7⟩, ⟨2, 1⟩] ∧
      (table { settings with transitive := false } lines).at ⟨1, 7⟩ = [⟨0, 4⟩, ⟨3, 8⟩] ∧
      (table { settings with transitive := false } lines).at ⟨2, 1⟩ = [⟨0, 4⟩, ⟨3, 0⟩] ∧
      ⟨3, 8⟩ ∈ (table { settings with transitive := true } lines).at ⟨0, 4⟩ ∧
      ⟨3, 0⟩ ∉ (table { settings with transitive := true } lines).at ⟨0, 4⟩ := by
  let settings : InputSettings := ⟨[1, 1, 1, 1], 3, true, false⟩
  let lines := [["u", "u", "u", "u", "a"], ["v", "v", "v", "v", "v", "v", "v", "a"], ["w", "a"],
    ["a", "x", "x", "x", "x", "x", "x", "x", "a"]]
  have nearest : settings.pickBest = true := rfl
  have ⟨once, isDirect, _, _, _, mediated⟩ := table_of_nearest_matches nearest lines
  dsimp only at once isDirect mediated
  have first : (table { settings with transitive := false } lines).at ⟨0, 4⟩ =
    [⟨1, 7⟩, ⟨2, 1⟩] := by decide +kernel
  have second : (table { settings with transitive := false } lines).at ⟨1, 7⟩ =
    [⟨0, 4⟩, ⟨3, 8⟩] := by decide +kernel
  have third : (table { settings with transitive := false } lines).at ⟨2, 1⟩ =
    [⟨0, 4⟩, ⟨3, 0⟩] := by decide +kernel
  have mediates : Mediates settings.radius lines ⟨0, 4⟩ ⟨1, 7⟩ ⟨3, 8⟩ := by
    refine ⟨(isDirect _ _).mp (by simp [first]), (isDirect _ _).mp (by simp [second]), ?_⟩
    intro earlier isEarlier less
    have own : earlier.system = 0 := Nat.lt_one_iff.mp less
    exact absurd own isEarlier.isMatch.apart
  have recorded := (mediated ⟨0, 4⟩ ⟨3, 8⟩ (by decide) (by simp [first])).2.mpr ⟨_, mediates⟩
  refine ⟨settings, lines, nearest, first, second, third, recorded, fun member => ?_⟩
  have same := List.inj_on_of_nodup_map (once true ⟨0, 4⟩) recorded member rfl
  exact absurd same (by decide)

end SystemCombination.Alignment
