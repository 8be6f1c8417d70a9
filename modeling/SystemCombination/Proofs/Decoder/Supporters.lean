import SystemCombination.Decoder.Features
import SystemCombination.Proofs.Binary64.Exact
import SystemCombination.Proofs.Binary64.Zero
import SystemCombination.Proofs.Segment.Matches

/-! The systems that support a token, and the confidence in them. `support_eq` says what is added up
for a line in an arrangement, whatever the table of alignments looks like; where confidences add up
exactly, the arrangement makes no difference. -/

namespace SystemCombination.Decoder

/-- The systems that exist, are eligible, and are named in the cell of a token, by rising index. -/
def supportingSystems (segment : Segment) (eligible : List Bool) (token : TokenRef) : List Nat :=
  (List.range segment.systems.length).filter fun other =>
    eligible[other]? = some true ∧ other ∈ systemsOf (segment.alignments.at token)

/-- The confidences of systems, added up. -/
def totalConfidence (segment : Segment) (systems : List Nat) : Binary64 :=
  .total (systems.filterMap fun other => segment.systems[other]?.map Rendition.confidence)

theorem filter_zip_zipIdx {α : Type} (xs : List α) (able : List Bool) (named : Nat → Bool)
    (start : Nat) :
    (((xs.zip able).zipIdx start).filter fun entry => entry.1.2 && named entry.2).map Prod.snd =
      ((List.range xs.length).filter fun place =>
        able[place]? = some true ∧ named (start + place)).map (start + ·) := by
  induction xs generalizing able start with
  | nil => simp
  | cons x xs ih =>
    cases able with
    | nil => simp
    | cons a able =>
      have shift (place : Nat) : start + 1 + place = start + (place + 1) := by omega
      have later := ih able (start + 1)
      simp only [shift] at later
      rw [List.zip_cons_cons, List.zipIdx_cons, List.length_cons, List.range_succ_eq_map,
        List.filter_cons, List.filter_cons, List.filter_map]
      cases a <;> cases named start <;> simp [later, Function.comp_def]

theorem supporters_eq (systems : List Rendition) (eligible : List Bool) (cell : List TokenRef) :
    supporters systems eligible cell =
      (List.range systems.length).filter fun other =>
        eligible[other]? = some true ∧ other ∈ systemsOf cell := by
  have same := filter_zip_zipIdx systems eligible (systemsOf cell).contains 0
  simp only [Nat.zero_add, List.contains_iff_mem, List.map_id'] at same
  simp only [supporters, Std.HashSet.contains_ofList]
  exact same

/-- A token without a cell has no support. -/
theorem tokenSupport_nil (arrangement : Arrangement) (systems : List Rendition)
    (eligible : List Bool) (token : TokenRef) :
    tokenSupport arrangement systems eligible token [] = 0 := by
  have none : supporters systems eligible [] = [] := by simp [supporters]
  have still : arrangement.arrange token [] = [] := (arrangement.perm token []).eq_nil
  simp [tokenSupport, none, still]

theorem tokenSupport_at (arrangement : Arrangement) (segment : Segment) (eligible : List Bool)
    (token : TokenRef) :
    tokenSupport arrangement segment.systems eligible token (segment.alignments.at token) =
      totalConfidence segment
        (arrangement.arrange token (supportingSystems segment eligible token)) := by
  rw [tokenSupport, supporters_eq, totalConfidence, Binary64.total, ← supportingSystems,
    ← List.map_filterMap, List.foldl_map]

/-- What is looked up at the first `n` places, where what is not there counts as `zero`. -/
theorem map_getD_range {α β : Type} (f : α → Nat → β) {missing : α} {zero : β}
    (nothing : ∀ place, f missing place = zero) (xs : List α) (n : Nat) :
    (List.range n).map (fun place => f (xs[place]?.getD missing) place) =
      (xs.take n).zipIdx.map (fun entry => f entry.1 entry.2) ++
        List.replicate (n - xs.length) zero := by
  induction n generalizing xs f with
  | zero => simp
  | succ n ih =>
    rw [List.range_succ_eq_map, List.map_cons, List.map_map]
    cases xs with
    | nil => simp [Function.comp_def, nothing, List.replicate_succ]
    | cons x xs =>
      have later := ih (fun x place => f x (place + 1)) (fun place => nothing (place + 1)) xs
      simpa [Function.comp_def, List.zipIdx_succ] using later

/-- The support of a line is gathered over its tokens, those without a cell included. -/
theorem support_eq (arrangement : Arrangement) (segment : Segment) (eligible : List Bool)
    (system : Nat) (line : Rendition) :
    support arrangement segment eligible system line =
      .total ((List.range line.tokens.length).map fun position =>
        totalConfidence segment (arrangement.arrange ⟨system, position⟩
          (supportingSystems segment eligible ⟨system, position⟩))) := by
  have cells := map_getD_range
    (fun cell position =>
      tokenSupport arrangement segment.systems eligible ⟨system, position⟩ cell)
    (fun position => tokenSupport_nil arrangement segment.systems eligible ⟨system, position⟩)
    (segment.alignments.row system) line.tokens.length
  simp only [← tokenSupport_at]
  show _ = Binary64.total ((List.range line.tokens.length).map fun position =>
    tokenSupport arrangement segment.systems eligible ⟨system, position⟩
      ((segment.alignments.row system)[position]?.getD []))
  rw [cells, Binary64.total_append_zeros, Binary64.total, List.foldl_map, support]

theorem totalConfidence_congr {segment segment' : Segment}
    (same : segment.systems.map Rendition.confidence = segment'.systems.map Rendition.confidence)
    (systems : List Nat) : totalConfidence segment systems = totalConfidence segment' systems := by
  simp only [totalConfidence, ← List.getElem?_map, same]

/-- The support of a line depends on the confidences and on which systems are named. -/
theorem support_congr {segment segment' : Segment} {system : Nat} {line line' : Rendition}
    (same : segment.systems.map Rendition.confidence = segment'.systems.map Rendition.confidence)
    (length : line.tokens.length = line'.tokens.length)
    (named : ∀ position < line.tokens.length, ∀ other < segment.systems.length,
      other ∈ systemsOf (segment.alignments.at ⟨system, position⟩) ↔
        other ∈ systemsOf (segment'.alignments.at ⟨system, position⟩))
    (arrangement : Arrangement) (eligible : List Bool) :
    support arrangement segment eligible system line =
      support arrangement segment' eligible system line' := by
  have count : segment.systems.length = segment'.systems.length := by
    simpa using congrArg List.length same
  rw [support_eq, support_eq, ← length]
  congr 1
  refine List.map_congr_left fun position inside => ?_
  have supporting : supportingSystems segment eligible ⟨system, position⟩ =
      supportingSystems segment' eligible ⟨system, position⟩ := by
    rw [supportingSystems, supportingSystems, ← count]
    refine List.filter_congr fun other exists' => decide_eq_decide.mpr ?_
    exact and_congr_right fun _ =>
      named position (List.mem_range.mp inside) other (List.mem_range.mp exists')
  rw [supporting, totalConfidence_congr same]

/-! ### Confidences that add up exactly -/

theorem filterMap_getElem?_range {α : Type} (xs : List α) :
    (List.range xs.length).filterMap (xs[·]?) = xs := by
  induction xs with
  | nil => rfl
  | cons x xs ih =>
    rw [List.length_cons, List.range_succ_eq_map, List.filterMap_cons, List.filterMap_map]
    exact congrArg (x :: ·) ih

section Exact

variable {segment : Segment}
  (exact : Binary64.ExactlyAddable (segment.systems.map Rendition.confidence))

include exact

theorem exactlyAddable_supporting (eligible : List Bool) (token : TokenRef) :
    Binary64.ExactlyAddable ((supportingSystems segment eligible token).filterMap
      fun other => segment.systems[other]?.map Rendition.confidence) := by
  have all : (List.range segment.systems.length).filterMap (fun other =>
      segment.systems[other]?.map Rendition.confidence) =
        segment.systems.map Rendition.confidence := by
    have whole := filterMap_getElem?_range (segment.systems.map Rendition.confidence)
    simpa using whole
  have part : ((supportingSystems segment eligible token).filterMap fun other =>
      segment.systems[other]?.map Rendition.confidence).Sublist
        (segment.systems.map Rendition.confidence) := by
    rw [← all]
    exact List.filter_sublist.filterMap _
  exact exact.of_subperm part.subperm

/-- The systems that support a token may be added in any order where confidences add up exactly. -/
theorem totalConfidence_of_perm {eligible : List Bool} {token : TokenRef} {found : List Nat}
    (h : found.Perm (supportingSystems segment eligible token)) :
    totalConfidence segment found =
      totalConfidence segment (supportingSystems segment eligible token) :=
  Binary64.foldl_add_of_perm (exactlyAddable_supporting exact eligible token) (h.filterMap _)

theorem support_of_exact (arrangement : Arrangement) (eligible : List Bool) (system : Nat)
    (line : Rendition) :
    support arrangement segment eligible system line =
      .total ((List.range line.tokens.length).map fun position =>
        totalConfidence segment (supportingSystems segment eligible ⟨system, position⟩)) := by
  simp only [support_eq, totalConfidence_of_perm exact (arrangement.perm _ _)]

end Exact

end SystemCombination.Decoder
