import SystemCombination.Segment.Alignment

/-! What a token is aligned with. `Matches` says when two tokens match; `mem_systems_table` says
which systems a cell of the table names, in all four modes, and `mem_at_table` which tokens a cell
holds where every match counts. Picking the nearest match of each line changes the tokens that
are recorded, and names the same systems as long as no third system mediates. -/

namespace SystemCombination

/-- The systems that a cell of the alignments names. -/
abbrev systemsOf (cell : List TokenRef) : List Nat := cell.map TokenRef.system

/-- The order of tokens by system and then by position. -/
def TokenRef.Precedes (a b : TokenRef) : Prop :=
  a.system < b.system ∨ a.system = b.system ∧ a.position < b.position

theorem TokenRef.Precedes.ne {a b : TokenRef} (h : a.Precedes b) : a ≠ b := by
  rintro rfl
  rcases h with before | ⟨_, before⟩
  · exact Nat.lt_irrefl _ before
  · exact Nat.lt_irrefl _ before

namespace Alignment

def wordAt? (lines : List (List String)) (token : TokenRef) : Option String :=
  lines[token.system]?.bind fun words => words[token.position]?

/-- The same word stands at two places of different lines, at most `radius` positions apart. -/
structure Matches (radius : Nat) (lines : List (List String)) (place other : TokenRef) : Prop where
  apart : other.system ≠ place.system
  word : ∃ word, wordAt? lines place = some word ∧ wordAt? lines other = some word
  near : distance place.position other.position ≤ radius

theorem mem_of_mem_chosen {pickBest : Bool} {position q : Nat} {positions : List Nat}
    (h : q ∈ chosen pickBest position positions) : q ∈ positions := by
  unfold chosen at h
  split at h
  · exact List.minOn?_mem (Option.mem_toList.mp h)
  · exact h

theorem exists_mem_chosen {pickBest : Bool} {position : Nat} {positions : List Nat} :
    (∃ q, q ∈ chosen pickBest position positions) ↔ ∃ q, q ∈ positions := by
  constructor
  · rintro ⟨q, isChosen⟩
    exact ⟨q, mem_of_mem_chosen isChosen⟩
  · rintro ⟨q, member⟩
    cases pickBest with
    | false => exact ⟨q, member⟩
    | true =>
      have isSome := List.isSome_minOn?_iff (f := distance position) |>.mpr
        (List.ne_nil_of_mem member)
      obtain ⟨nearest, isNearest⟩ := Option.isSome_iff_exists.mp isSome
      exact ⟨nearest, Option.mem_toList.mpr isNearest⟩

section Direct

variable {settings : InputSettings} {lines : List (List String)} {place token : TokenRef}

theorem at_direct (settings : InputSettings) (lines : List (List String)) (place : TokenRef) :
    (direct settings lines).at place =
      ((wordAt? lines place).map
        (matchesOf settings (lines.map List.toArray) place)).getD [] := by
  simp only [direct, AlignmentTable.at, AlignmentTable.row, wordAt?, List.getElem?_map,
    List.getElem?_zipIdx, Nat.zero_add]
  cases lines[place.system]? with
  | none => rfl
  | some words => cases found : words[place.position]? <;> simp [List.getElem?_zipIdx, found]

/-- The direct matches of a token in one other line are those chosen of the candidates there. -/
theorem mem_at_direct :
    token ∈ (direct settings lines).at place ↔
      token.system ≠ place.system ∧ ∃ word line, wordAt? lines place = some word ∧
        lines[token.system]? = some line ∧
        token.position ∈ chosen settings.pickBest place.position
          (candidates word place.position settings.radius line.toArray) := by
  rw [at_direct]
  cases wordAt? lines place with
  | none => simp
  | some word =>
    simp only [Option.map_some, Option.getD_some, matchesOf, List.mem_flatMap,
      List.mem_zipIdx_iff_getElem?, List.getElem?_map]
    constructor
    · rintro ⟨⟨line, other⟩, stands, member⟩
      split at member
      · cases member
      · next apart =>
        obtain ⟨q, isChosen, rfl⟩ := List.mem_map.mp member
        obtain ⟨line', isLine, rfl⟩ := Option.map_eq_some_iff.mp stands
        exact ⟨apart, word, line', rfl, isLine, isChosen⟩
    · rintro ⟨apart, word', line, same, isLine, isChosen⟩
      obtain rfl := Option.some.inj same
      refine ⟨(line.toArray, token.system), by simp [isLine], ?_⟩
      rw [if_neg apart]
      exact List.mem_map.mpr ⟨token.position, isChosen, rfl⟩

theorem exists_candidate_iff :
    (token.system ≠ place.system ∧ ∃ word line, wordAt? lines place = some word ∧
        lines[token.system]? = some line ∧
        token.position ∈ candidates word place.position settings.radius line.toArray) ↔
      Matches settings.radius lines place token := by
  simp only [mem_candidates, List.getElem?_toArray]
  constructor
  · rintro ⟨apart, word, line, isWord, isLine, found, near⟩
    exact ⟨apart, ⟨word, isWord, by simp [wordAt?, isLine, found]⟩, near⟩
  · rintro ⟨apart, ⟨word, isWord, found⟩, near⟩
    obtain ⟨line, isLine, found⟩ := Option.bind_eq_some_iff.mp found
    exact ⟨apart, word, line, isWord, isLine, found, near⟩

theorem matches_of_mem_at_direct (h : token ∈ (direct settings lines).at place) :
    Matches settings.radius lines place token := by
  obtain ⟨apart, word, line, isWord, isLine, isChosen⟩ := mem_at_direct.mp h
  exact exists_candidate_iff.mp ⟨apart, word, line, isWord, isLine, mem_of_mem_chosen isChosen⟩

theorem mem_at_direct_of_all (every : settings.pickBest = false) :
    token ∈ (direct settings lines).at place ↔ Matches settings.radius lines place token := by
  rw [mem_at_direct, every]
  exact exists_candidate_iff

/-- A line is named when it has a match, whether or not only the nearest counts. -/
theorem mem_systems_direct {system : Nat} :
    system ∈ systemsOf ((direct settings lines).at place) ↔
      ∃ position, Matches settings.radius lines place ⟨system, position⟩ := by
  rw [List.mem_map]
  constructor
  · rintro ⟨token, member, rfl⟩
    exact ⟨token.position, matches_of_mem_at_direct member⟩
  · rintro ⟨position, isMatch⟩
    obtain ⟨apart, word, line, isWord, isLine, member⟩ := exists_candidate_iff.mpr isMatch
    obtain ⟨q, isChosen⟩ := exists_mem_chosen.mpr ⟨position, member⟩
    exact ⟨⟨system, q⟩, mem_at_direct.mpr ⟨apart, word, line, isWord, isLine, isChosen⟩, rfl⟩

end Direct

/-! ### The order of a cell -/

/-- A list of the tokens with a property, each once, by system and then by position. -/
structure Enumerates (cell : List TokenRef) (listed : TokenRef → Prop) : Prop where
  mem_iff : ∀ token, token ∈ cell ↔ listed token
  sorted : cell.Pairwise TokenRef.Precedes

theorem Enumerates.nodup {cell : List TokenRef} {listed : TokenRef → Prop}
    (h : Enumerates cell listed) : cell.Nodup :=
  h.sorted.imp TokenRef.Precedes.ne

theorem pairwise_places {α : Type} (xs : List α) {positions : α × Nat → List Nat}
    (rising : ∀ entry, (positions entry).Pairwise (· < ·)) :
    (xs.zipIdx.flatMap fun entry =>
      (positions entry).map fun q => (⟨entry.2, q⟩ : TokenRef)).Pairwise TokenRef.Precedes := by
  have numbered : (List.range' 0 xs.length).Pairwise (· < ·) := List.pairwise_lt_range' ..
  rw [← List.zipIdx_map_snd, List.pairwise_map] at numbered
  refine List.pairwise_flatMap.mpr ⟨fun entry _ => ?_, numbered.imp ?_⟩
  · rw [List.pairwise_map]
    exact (rising entry).imp fun before => .inr ⟨rfl, before⟩
  · intro earlier later before a isEarlier b isLater
    obtain ⟨_, _, rfl⟩ := List.mem_map.mp isEarlier
    obtain ⟨_, _, rfl⟩ := List.mem_map.mp isLater
    exact .inl before

theorem pairwise_candidates (word : String) (position radius : Nat) (line : Array String) :
    (candidates word position radius line).Pairwise (· < ·) :=
  List.Pairwise.filter _ (List.pairwise_lt_range' ..)

theorem pairwise_chosen (pickBest : Bool) (position : Nat) {positions : List Nat}
    (rising : positions.Pairwise (· < ·)) :
    (chosen pickBest position positions).Pairwise (· < ·) := by
  unfold chosen
  split
  · cases positions.minOn? (distance position) with
    | none => exact .nil
    | some q => exact List.pairwise_singleton _ q
  · exact rising

theorem pairwise_at_direct (settings : InputSettings) (lines : List (List String))
    (place : TokenRef) : ((direct settings lines).at place).Pairwise TokenRef.Precedes := by
  rw [at_direct]
  cases wordAt? lines place with
  | none => exact .nil
  | some word =>
    let positions : Array String × Nat → List Nat := fun entry =>
      if entry.2 = place.system then []
      else chosen settings.pickBest place.position
        (candidates word place.position settings.radius entry.1)
    have eq : matchesOf settings (lines.map List.toArray) place word =
        (lines.map List.toArray).zipIdx.flatMap fun entry =>
          (positions entry).map fun q => ⟨entry.2, q⟩ := by
      rw [matchesOf]
      congr 1
      funext ⟨line, other⟩
      dsimp only [positions]
      split <;> rfl
    rw [Option.map_some, Option.getD_some, eq]
    refine pairwise_places _ fun entry => ?_
    dsimp only [positions]
    split
    · exact .nil
    · exact pairwise_chosen _ _ (pairwise_candidates ..)

/-! ### Matches through a third system -/

section Close

variable {pickBest : Bool} {matched : TokenRef → List TokenRef} {own : Nat}
  {cell : List TokenRef} {token : TokenRef}

/-- A token of another line that a token of the cell matches. -/
def Onward (matched : TokenRef → List TokenRef) (own : Nat) (cell : List TokenRef)
    (token : TokenRef) : Prop :=
  token.system ≠ own ∧ ∃ hop ∈ cell, token ∈ matched hop

theorem mem_onward :
    token ∈ (cell.flatMap matched).filter (fun target => target.system ≠ own) ↔
      Onward matched own cell token := by
  simp [Onward, and_comm]

theorem of_mem_closeCell (h : token ∈ closeCell pickBest matched own cell) :
    token ∈ cell ∨ Onward matched own cell token := by
  rcases List.mem_append.mp h with known | new
  · exact .inl known
  · exact .inr (mem_onward.mp ((distinct_sublist _ _ _).subset new))

/-- Of every token that is reached, the closed cell holds one that is known by the same. -/
theorem exists_knownBy (h : token ∈ cell ∨ Onward matched own cell token) :
    ∃ other ∈ closeCell pickBest matched own cell,
      knownBy pickBest other = knownBy pickBest token := by
  rcases h with member | onward
  · exact ⟨token, List.mem_append_left _ member, rfl⟩
  -- What is reached through a third system is left out if something known by the same is there.
  by_cases known : knownBy pickBest token ∈ cell.map (knownBy pickBest)
  · obtain ⟨other, member, same⟩ := List.mem_map.mp known
    exact ⟨other, List.mem_append_left _ member, same⟩
  · have new : knownBy pickBest token ∈ (distinct (knownBy pickBest)
        (Std.HashSet.ofList (cell.map (knownBy pickBest)))
        ((cell.flatMap matched).filter fun target => target.system ≠ own)).map
          (knownBy pickBest) := by
      rw [mem_map_distinct, Std.HashSet.mem_ofList, List.contains_iff_mem]
      exact ⟨List.mem_map_of_mem (mem_onward.mpr onward), known⟩
    obtain ⟨other, member, same⟩ := List.mem_map.mp new
    exact ⟨other, List.mem_append_right _ member, same⟩

theorem mem_closeCell_of_all :
    token ∈ closeCell false matched own cell ↔ token ∈ cell ∨ Onward matched own cell token := by
  refine ⟨of_mem_closeCell, fun reached => ?_⟩
  obtain ⟨⟨system, position⟩, member, same⟩ := @exists_knownBy false _ _ _ _ reached
  obtain ⟨rfl, rfl⟩ : system = token.system ∧ position = token.position := by
    simpa [knownBy] using same
  exact member

/-- A closed cell names the systems of its tokens and of what they match. -/
theorem mem_systems_closeCell {system : Nat} :
    system ∈ systemsOf (closeCell pickBest matched own cell) ↔
      system ∈ systemsOf cell ∨ system ≠ own ∧ ∃ hop ∈ cell, system ∈ systemsOf (matched hop) := by
  constructor
  · intro named
    obtain ⟨token, member, rfl⟩ := List.mem_map.mp named
    rcases of_mem_closeCell member with known | ⟨apart, hop, isHop, isTarget⟩
    · exact .inl (List.mem_map_of_mem known)
    · exact .inr ⟨apart, hop, isHop, List.mem_map_of_mem isTarget⟩
  · intro reached
    have ⟨token, isToken, isSystem⟩ : ∃ token, (token ∈ cell ∨ Onward matched own cell token) ∧
        token.system = system := by
      rcases reached with named | ⟨apart, hop, isHop, named⟩
      · obtain ⟨token, member, rfl⟩ := List.mem_map.mp named
        exact ⟨token, .inl member, rfl⟩
      · obtain ⟨token, member, rfl⟩ := List.mem_map.mp named
        exact ⟨token, .inr ⟨apart, hop, isHop, member⟩, rfl⟩
    obtain ⟨other, member, same⟩ := @exists_knownBy pickBest _ _ _ _ isToken
    exact List.mem_map.mpr ⟨other, member, (congrArg Prod.fst same).trans isSystem⟩

theorem at_close (pickBest : Bool) (table : AlignmentTable) (place : TokenRef) :
    (close pickBest table).at place =
      closeCell pickBest table.at place.system (table.at place) := by
  have empty : closeCell pickBest table.at place.system [] = [] := rfl
  rw [close_eq, AlignmentTable.at, AlignmentTable.row, List.getElem?_map, List.getElem?_zipIdx,
    Nat.zero_add]
  cases found : table[place.system]? with
  | none => simp [AlignmentTable.at, AlignmentTable.row, found, empty]
  | some row =>
    cases found' : row[place.position]? <;>
      simp [AlignmentTable.at, AlignmentTable.row, found, found', empty]

end Close

/-! ### The whole table -/

section Table

variable {settings : InputSettings} {lines : List (List String)} {place token : TokenRef}

theorem table_of_direct (h : settings.transitive = false) :
    table settings lines = direct settings lines := by
  simp [table, h]

theorem table_of_transitive (h : settings.transitive = true) :
    table settings lines = close settings.pickBest (direct settings lines) := by
  simp [table, h]

/-- The systems that a cell names: those with a match and, if a third system may mediate, those
with a match of a match. -/
theorem mem_systems_table {system : Nat} :
    system ∈ systemsOf ((table settings lines).at place) ↔
      (∃ position, Matches settings.radius lines place ⟨system, position⟩) ∨
        settings.transitive = true ∧ system ≠ place.system ∧
          ∃ hop ∈ (direct settings lines).at place,
            ∃ position, Matches settings.radius lines hop ⟨system, position⟩ := by
  cases mode : settings.transitive with
  | false => simp [table_of_direct mode, mem_systems_direct]
  | true =>
    simp only [table_of_transitive mode, at_close, mem_systems_closeCell, mem_systems_direct,
      true_and]

/-- Where every match counts, a cell holds the matches and, if a third system may mediate, what
they match in other lines. -/
theorem mem_at_table_of_all (every : settings.pickBest = false) :
    token ∈ (table settings lines).at place ↔
      Matches settings.radius lines place token ∨
        settings.transitive = true ∧ token.system ≠ place.system ∧
          ∃ hop, Matches settings.radius lines place hop ∧
            Matches settings.radius lines hop token := by
  cases mode : settings.transitive with
  | false => simp [table_of_direct mode, mem_at_direct_of_all every]
  | true =>
    simp only [table_of_transitive mode, at_close, every, mem_closeCell_of_all, Onward,
      mem_at_direct_of_all every, true_and]

theorem reached_of_mem_at_table (h : token ∈ (table settings lines).at place) :
    Matches settings.radius lines place token ∨
      settings.transitive = true ∧ token.system ≠ place.system ∧
        ∃ hop, Matches settings.radius lines place hop ∧
          Matches settings.radius lines hop token := by
  cases mode : settings.transitive with
  | false =>
    rw [table_of_direct mode] at h
    exact .inl (matches_of_mem_at_direct h)
  | true =>
    rw [table_of_transitive mode, at_close] at h
    rcases of_mem_closeCell h with known | ⟨apart, hop, isHop, isTarget⟩
    · exact .inl (matches_of_mem_at_direct known)
    · exact .inr ⟨rfl, apart, hop, matches_of_mem_at_direct isHop,
        matches_of_mem_at_direct isTarget⟩

/-- The tokens that are recorded where only the nearest match in each line is kept are among those
recorded where every match counts. -/
theorem mem_at_table_of_nearest
    (h : token ∈ (table { settings with pickBest := true } lines).at place) :
    token ∈ (table { settings with pickBest := false } lines).at place := by
  have reached := reached_of_mem_at_table h
  exact (mem_at_table_of_all rfl).mpr reached

theorem length_table (settings : InputSettings) (lines : List (List String)) :
    (table settings lines).length = lines.length := by
  have direct : (direct settings lines).length = lines.length := by
    rw [Alignment.direct, List.length_map, List.length_zipIdx]
  cases mode : settings.transitive with
  | false => rw [table_of_direct mode, direct]
  | true => rw [table_of_transitive mode, close_eq, List.length_map, List.length_zipIdx, direct]

theorem length_row_direct (settings : InputSettings) (lines : List (List String)) (system : Nat) :
    ((direct settings lines).row system).length = (lines[system]?.getD []).length := by
  simp only [direct, AlignmentTable.row, List.getElem?_map, List.getElem?_zipIdx]
  cases lines[system]? <;> simp

theorem length_row_table (settings : InputSettings) (lines : List (List String)) (system : Nat) :
    ((table settings lines).row system).length = (lines[system]?.getD []).length := by
  cases mode : settings.transitive with
  | false => rw [table_of_direct mode, length_row_direct]
  | true =>
    rw [table_of_transitive mode, close_eq, ← length_row_direct settings, AlignmentTable.row,
      List.getElem?_map, List.getElem?_zipIdx, AlignmentTable.row]
    cases (direct settings lines)[system]? <;> simp

end Table

end Alignment

end SystemCombination
