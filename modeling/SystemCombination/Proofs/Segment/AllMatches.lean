import Mathlib.Data.List.Nodup
import SystemCombination.Proofs.Segment.Matches

/-! Alignments where every match counts. A cell lists the matches of its token in order and, if a
third system may mediate, after them what they match and nothing beyond. Being aligned is then
symmetric. The cells may be closed in any order: each is extended from the direct matches alone. -/

namespace SystemCombination.Alignment

/-! ### Closing one cell after the other -/

/-- The tokens of lines, by system and then by position. -/
def tokens (lines : List (List String)) : List TokenRef :=
  lines.zipIdx.flatMap fun entry =>
    (List.range entry.1.length).map fun position => ⟨entry.2, position⟩

theorem enumerates_tokens (lines : List (List String)) :
    Enumerates (tokens lines) fun token => ∃ word, wordAt? lines token = some word where
  sorted := pairwise_places lines fun _ => List.pairwise_lt_range
  mem_iff token := by
    obtain ⟨system, position⟩ := token
    simp only [tokens, List.mem_flatMap, List.mem_zipIdx_iff_getElem?, List.mem_map,
      List.mem_range, Prod.exists, TokenRef.mk.injEq, wordAt?, Option.bind_eq_some_iff,
      List.getElem?_eq_some_iff]
    constructor
    · rintro ⟨words, _, stands, _, inside, rfl, rfl⟩
      exact ⟨_, words, stands, inside, rfl⟩
    · rintro ⟨_, words, stands, inside, _⟩
      exact ⟨words, system, stands, position, inside, rfl, rfl⟩

/-- A cell to which a token is added unless something known by the same is there. -/
def offer (pickBest : Bool) (cell : List TokenRef) (target : TokenRef) : List TokenRef :=
  if knownBy pickBest target ∈ cell.map (knownBy pickBest) then cell else cell ++ [target]

/-- A cell to which the matches of the matches of its token are offered, one after the other. -/
def extend (pickBest : Bool) (matched : AlignmentTable) (place : TokenRef)
    (cell : List TokenRef) : List TokenRef :=
  (((matched.at place).flatMap matched.at).filter fun target =>
    target.system ≠ place.system).foldl (offer pickBest) cell

theorem foldl_offer (pickBest : Bool) (targets : List TokenRef) {cell : List TokenRef}
    {seen : Std.HashSet (Nat × Nat)}
    (known : ∀ key, key ∈ seen ↔ key ∈ cell.map (knownBy pickBest)) :
    targets.foldl (offer pickBest) cell = cell ++ distinct (knownBy pickBest) seen targets := by
  induction targets generalizing cell seen with
  | nil => exact (List.append_nil cell).symm
  | cons target targets ih =>
    rw [List.foldl_cons, distinct, offer]
    by_cases old : knownBy pickBest target ∈ cell.map (knownBy pickBest)
    · rw [if_pos old, if_pos (by simpa [known] using old), ih known]
    · rw [if_neg old, if_neg (by simpa [known] using old),
        List.append_cons cell target (distinct ..)]
      refine ih fun key => ?_
      rw [Std.HashSet.mem_insert, beq_iff_eq, known, List.map_append, List.mem_append,
        List.map_singleton, List.mem_singleton, or_comm, eq_comm]

/-- The table with every cell replaced, as its place tells. -/
def mapCells (f : TokenRef → List TokenRef → List TokenRef) (table : AlignmentTable) :
    AlignmentTable :=
  table.mapIdx fun system row => row.mapIdx fun position cell => f ⟨system, position⟩ cell

theorem mapCells_congr {f g : TokenRef → List TokenRef → List TokenRef} {table : AlignmentTable}
    (same : ∀ token, token.position < (table.row token.system).length →
      f token (table.at token) = g token (table.at token)) :
    mapCells f table = mapCells g table := by
  refine List.mapIdx_eq_mapIdx_iff.mpr fun system inside => ?_
  refine List.mapIdx_eq_mapIdx_iff.mpr fun position within => ?_
  have cell := same ⟨system, position⟩
  simp only [AlignmentTable.at, AlignmentTable.row, List.getElem?_eq_getElem inside,
    Option.getD_some, List.getElem?_eq_getElem within] at cell
  exact cell within

/-- The table with the cell of a token extended. -/
def closeAt (pickBest : Bool) (matched closed : AlignmentTable) (place : TokenRef) :
    AlignmentTable :=
  mapCells (fun token cell => if token = place then extend pickBest matched token cell else cell)
    closed

theorem foldl_closeAt (pickBest : Bool) (matched closed : AlignmentTable)
    {order : List TokenRef} (once : order.Nodup) :
    order.foldl (closeAt pickBest matched) closed =
      mapCells (fun token cell =>
        if token ∈ order then extend pickBest matched token cell else cell) closed := by
  induction order generalizing closed with
  | nil => simp [mapCells, List.mapIdx_eq_zipIdx_map]
  | cons place order ih =>
    obtain ⟨new, once⟩ := List.nodup_cons.mp once
    rw [List.foldl_cons, ih _ once, closeAt, mapCells, mapCells, List.mapIdx_mapIdx]
    refine List.mapIdx_eq_mapIdx_iff.mpr fun system _ => ?_
    dsimp only [Function.comp_def]
    rw [List.mapIdx_mapIdx]
    refine List.mapIdx_eq_mapIdx_iff.mpr fun position _ => ?_
    dsimp only [Function.comp_def]
    by_cases isPlace : (⟨system, position⟩ : TokenRef) = place
    · rw [isPlace, if_neg new, if_pos rfl, if_pos List.mem_cons_self]
    · simp [isPlace]

theorem close_eq_mapCells (pickBest : Bool) (table : AlignmentTable) :
    close pickBest table = mapCells (extend pickBest table) table := by
  have closes (place : TokenRef) : closeCell pickBest table.at place.system (table.at place) =
      extend pickBest table place (table.at place) :=
    (foldl_offer pickBest _ fun key => by
      rw [Std.HashSet.mem_ofList, List.contains_iff_mem]).symm
  have same : mapCells (extend pickBest table) table =
      mapCells (fun token => closeCell pickBest table.at token.system) table :=
    mapCells_congr fun token _ => (closes token).symm
  have plain (system : Nat) (row : List (List TokenRef)) :
      row.mapIdx (fun _ => closeCell pickBest table.at system) =
        row.map (closeCell pickBest table.at system) :=
    List.ext_getElem (by simp) (by simp)
  rw [same, close_eq, mapCells, List.mapIdx_eq_zipIdx_map]
  simp only [plain]

/-- The cells may be closed in any order. -/
theorem foldl_closeAt_direct {settings : InputSettings} {lines : List (List String)}
    {order : List TokenRef} (every : order.Perm (tokens lines)) (pickBest : Bool) :
    order.foldl (closeAt pickBest (direct settings lines)) (direct settings lines) =
      close pickBest (direct settings lines) := by
  have once : order.Nodup := every.nodup_iff.mpr (enumerates_tokens lines).nodup
  rw [foldl_closeAt _ _ _ once, close_eq_mapCells]
  refine mapCells_congr fun token inside => if_pos ?_
  rw [length_row_direct] at inside
  obtain ⟨words, stands⟩ : ∃ words, lines[token.system]? = some words := by
    cases stands : lines[token.system]? with
    | none => simp [stands] at inside
    | some words => exact ⟨words, rfl⟩
  rw [stands] at inside
  refine every.mem_iff.mpr (((enumerates_tokens lines).mem_iff token).mpr ?_)
  exact ⟨words[token.position], by simp [wordAt?, stands]⟩

/-! ### What is aligned -/

section Symmetric

variable {radius : Nat} {lines : List (List String)} {place token hop : TokenRef}

theorem distance_comm (p q : Nat) : distance p q = distance q p := Nat.add_comm ..

theorem distance_triangle (p q r : Nat) : distance p r ≤ distance p q + distance q r := by
  unfold distance
  omega

theorem Matches.symm (h : Matches radius lines place token) : Matches radius lines token place where
  apart := h.apart.symm
  word := by
    obtain ⟨word, isWord, isWord'⟩ := h.word
    exact ⟨word, isWord', isWord⟩
  near := distance_comm .. ▸ h.near

theorem matches_comm : Matches radius lines place token ↔ Matches radius lines token place :=
  ⟨Matches.symm, Matches.symm⟩

/-- Two tokens with the same word, not farther apart than `reach`. -/
structure SameWord (lines : List (List String)) (reach : Nat) (place token : TokenRef) :
    Prop where
  word : ∃ word, wordAt? lines place = some word ∧ wordAt? lines token = some word
  near : distance place.position token.position ≤ reach

theorem Matches.sameWord (h : Matches radius lines place token) :
    SameWord lines radius place token :=
  ⟨h.word, h.near⟩

theorem SameWord.trans {reach : Nat} (h : SameWord lines radius place hop)
    (h' : SameWord lines reach hop token) : SameWord lines (radius + reach) place token where
  word := by
    obtain ⟨word, isWord, isHop⟩ := h.word
    obtain ⟨_, isHop', isToken⟩ := h'.word
    obtain rfl := Option.some.inj (isHop.symm.trans isHop')
    exact ⟨_, isWord, isToken⟩
  near := Nat.le_trans (distance_triangle _ hop.position _) (Nat.add_le_add h.near h'.near)

end Symmetric

section Table

variable {settings : InputSettings} {lines : List (List String)} {place token : TokenRef}

theorem enumerates_at_direct (every : settings.pickBest = false) (lines : List (List String))
    (place : TokenRef) : Enumerates ((direct settings lines).at place)
      (Matches settings.radius lines place) where
  mem_iff _ := mem_at_direct_of_all every
  sorted := pairwise_at_direct settings lines place

/-- What closing puts behind a cell where every match counts. -/
theorem exists_closeCell_eq (matched : TokenRef → List TokenRef) (own : Nat)
    (cell : List TokenRef) :
    ∃ onward, closeCell false matched own cell = cell ++ onward ∧ onward.Nodup ∧
      ∀ token, token ∈ onward ↔ token ∉ cell ∧ Onward matched own cell token := by
  have tells : Function.Injective (knownBy false) := by
    rintro ⟨system, position⟩ ⟨system', position'⟩ same
    simpa [knownBy] using same
  refine ⟨_, rfl, (nodup_map_distinct (knownBy false) _ _).of_map, fun token => ?_⟩
  rw [← List.mem_map_of_injective tells, mem_map_distinct, List.mem_map_of_injective tells,
    mem_onward, Std.HashSet.mem_ofList, List.contains_iff_mem, List.mem_map_of_injective tells,
    and_comm]

theorem mem_at_table_comm (every : settings.pickBest = false) :
    token ∈ (table settings lines).at place ↔ place ∈ (table settings lines).at token := by
  rw [mem_at_table_of_all every, mem_at_table_of_all every, matches_comm, ne_comm]
  have back : (∃ hop, Matches settings.radius lines place hop ∧
      Matches settings.radius lines hop token) ↔
        ∃ hop, Matches settings.radius lines token hop ∧
          Matches settings.radius lines hop place :=
    exists_congr fun hop => by rw [matches_comm, and_comm, matches_comm]
  rw [back]

theorem sameWord_of_mem_at_table (h : token ∈ (table settings lines).at place) :
    SameWord lines (if settings.transitive then 2 * settings.radius else settings.radius)
      place token := by
  rcases reached_of_mem_at_table h with isMatch | ⟨mediated, _, hop, isMatch, isMatch'⟩
  · have wide : settings.radius ≤
        if settings.transitive then 2 * settings.radius else settings.radius := by
      split <;> omega
    exact ⟨isMatch.word, Nat.le_trans isMatch.near wide⟩
  · rw [if_pos mediated, Nat.two_mul]
    exact isMatch.sameWord.trans isMatch'.sameWord

end Table

/-- Where every match counts, a token is aligned with its matches, listed in order, and if a third
system may mediate, after them with what those match: one step further and no more. Being aligned
is symmetric, tokens that are aligned carry the same word, and in whatever order the cells are
closed, the alignments are the same. -/
theorem table_of_all_matches {settings : InputSettings} (every : settings.pickBest = false)
    (lines : List (List String)) :
    let alignments (transitive : Bool) := table { settings with transitive } lines
    (∀ place, Enumerates ((alignments false).at place) (Matches settings.radius lines place)) ∧
    (∀ place, ∃ onward, (alignments true).at place = (alignments false).at place ++ onward ∧
      onward.Nodup ∧ ∀ token, token ∈ onward ↔ token ∉ (alignments false).at place ∧
        token.system ≠ place.system ∧
        ∃ hop ∈ (alignments false).at place, token ∈ (alignments false).at hop) ∧
    (∀ transitive place token, token ∈ (alignments transitive).at place ↔
      place ∈ (alignments transitive).at token) ∧
    (∀ transitive place token, token ∈ (alignments transitive).at place →
      SameWord lines (if transitive then 2 * settings.radius else settings.radius) place token) ∧
    ∀ order : List TokenRef, order.Perm (tokens lines) →
      order.foldl (closeAt false (alignments false)) (alignments false) = alignments true := by
  intro alignments
  have ofDirect : alignments false = direct settings lines := table_of_direct rfl
  have ofClosed : alignments true = close false (direct settings lines) := by
    have closed : alignments true = close settings.pickBest (direct settings lines) :=
      table_of_transitive rfl
    rw [closed, every]
  refine ⟨fun place => ?direct, fun place => ?onward, fun _ place token => mem_at_table_comm every,
    fun _ place token => sameWord_of_mem_at_table, fun order isOrder => ?order⟩
  case direct =>
    rw [ofDirect]
    exact enumerates_at_direct every lines place
  case onward =>
    rw [ofDirect, ofClosed, at_close]
    exact exists_closeCell_eq _ _ _
  case order =>
    rw [ofDirect, ofClosed]
    exact foldl_closeAt_direct isOrder false

/-- A word at three places of which the outer two are too far apart to match: the one in the middle
mediates, also where the cells are closed from the last to the first. -/
theorem table_of_all_matches_of_three_systems :
    ∃ (settings : InputSettings) (lines : List (List String)) (order : List TokenRef),
      settings.pickBest = false ∧ order.Perm (tokens lines) ∧ order ≠ tokens lines ∧
      (table { settings with transitive := false } lines).at ⟨0, 0⟩ = [⟨1, 1⟩] ∧
      (table { settings with transitive := true } lines).at ⟨0, 0⟩ = [⟨1, 1⟩, ⟨2, 2⟩] ∧
      order.foldl (closeAt false (table { settings with transitive := false } lines))
        (table { settings with transitive := false } lines) =
          table { settings with transitive := true } lines := by
  let settings : InputSettings := ⟨[1, 1, 1], 1, false, false⟩
  let lines := [["cat", "x", "x"], ["x", "cat", "x"], ["x", "x", "cat"]]
  have isOrder : (tokens lines).reverse.Perm (tokens lines) := List.reverse_perm _
  have every : settings.pickBest = false := rfl
  have closed := (table_of_all_matches every lines).2.2.2.2 _ isOrder
  refine ⟨settings, lines, _, every, isOrder, by decide +kernel, by decide +kernel, ?_, closed⟩
  dsimp only at closed
  rw [← closed]
  decide +kernel

end SystemCombination.Alignment
