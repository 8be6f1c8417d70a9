import SystemCombination.Proofs.Request.Layout
import SystemCombination.Proofs.Request.Verdict

/-! What a request takes from its block: which values are supplied for which keys. The order of the
assignments does not matter, nor does it matter whether a default is left out or written out. -/

namespace SystemCombination.Request

open Text

/-! ### Assignments that say the same -/

section Congruence

variable {as as' : List Assignment}

theorem checkCounts_congr
    (same : ∀ key, count as key = count as' key ∨ RightCount as key ∧ RightCount as' key) :
    checkCounts as = checkCounts as' := by
  have right : RightCount as = RightCount as' := by
    funext key
    rcases same key with equal | both
    · rw [RightCount, RightCount, equal]
    · exact propext (iff_of_true both.1 both.2)
  cases counts : checkCounts as with
  | ok =>
    rw [checkCounts_eq_ok_iff, right] at counts
    exact (checkCounts_eq_ok_iff.mpr counts).symm
  | error error =>
    obtain ⟨key, fault, rfl⟩ := checkCounts_eq_error_iff.mp counts
    have wrong : ¬RightCount as key := by
      obtain ⟨_, _, _, _, wrong⟩ := fault
      exact wrong
    have equal := (same key).resolve_right fun both => wrong both.1
    rw [right] at fault
    exact (checkCounts_eq_error_iff.mpr ⟨key, fault, by rw [equal]⟩).symm

/-- Requests are made alike of assignments that pass the same checks and, where the counts are
right, are read from the same texts. -/
theorem ofAssignments_congr (names : checkNames as = checkNames as')
    (counts : checkCounts as = checkCounts as')
    (raws : (∀ key, RightCount as key) → rawOf as = rawOf as') :
    ofAssignments as = ofAssignments as' := by
  simp only [ofAssignments, ← names, ← counts]
  cases checkNames as with
  | error => rfl
  | ok =>
    cases right : checkCounts as with
    | error => rfl
    | ok => rw [raws (checkCounts_eq_ok_iff.mp right)]

end Congruence

/-! ### Order -/

/-- What an assignment says, wherever it stands. -/
def Assignment.pair (a : Assignment) : String × String := (a.name, a.value)

section Order

variable {as as' : List Assignment}

theorem valuesOf_eq (as : List Assignment) (key : Key) :
    valuesOf as key =
      ((as.map Assignment.pair).filter fun pair => pair.1 = key.name).map Prod.snd := by
  rw [List.filter_map, List.map_map]
  rfl

theorem valuesOf_perm (perm : (as.map Assignment.pair).Perm (as'.map Assignment.pair)) (key : Key) :
    (valuesOf as key).Perm (valuesOf as' key) := by
  rw [valuesOf_eq, valuesOf_eq]
  exact (perm.filter _).map _

theorem known_of_perm (perm : (as.map Assignment.pair).Perm (as'.map Assignment.pair))
    (known : ∀ a ∈ as, Known a.name) : ∀ a ∈ as', Known a.name := by
  intro a member
  obtain ⟨other, listed, same⟩ := List.mem_map.mp (perm.mem_iff.mpr (List.mem_map_of_mem member))
  have sameName : other.name = a.name := congrArg Prod.fst same
  rw [← sameName]
  exact known other listed

theorem ofAssignments_perm (perm : (as.map Assignment.pair).Perm (as'.map Assignment.pair))
    (known : ∀ a ∈ as, Known a.name) : ofAssignments as = ofAssignments as' := by
  have counts (key : Key) : count as key = count as' key := by
    rw [← length_valuesOf, ← length_valuesOf, (valuesOf_perm perm key).length_eq]
  refine ofAssignments_congr ?_ (checkCounts_congr fun key => .inl (counts key)) fun right => ?_
  · rw [checkNames_eq_ok_iff.mpr known, checkNames_eq_ok_iff.mpr (known_of_perm perm known)]
  · funext key
    -- With the right count there is one value at most, so there is nothing to reorder.
    have short : (valuesOf as key).length ≤ 1 := by
      have := right key
      rw [length_valuesOf]
      unfold RightCount at this
      split at this <;> omega
    have same : valuesOf as key = valuesOf as' key := by
      match valuesOf as key, short, valuesOf_perm perm key with
      | [], _, reordered => exact reordered.nil_eq
      | [value], _, reordered => exact reordered.singleton_eq
    rw [rawOf, rawOf, same]

end Order

/-- Where every assignment names a key, a request can fail only for what its keys are given. -/
inductive OfKeys : Error → Prop
  | keyCount (key : Key) (actual : Nat) : OfKeys (.keyCount key actual)
  | invalidValue (key : Key) (value : String) : OfKeys (.invalidValue key value)
  | badConfidence (provided : String) : OfKeys (.badConfidence provided)

theorem ofKeys_of_known {as : List Assignment} {error : Error} (known : ∀ a ∈ as, Known a.name)
    (failed : ofAssignments as = .error error) : OfKeys error := by
  have judged := judged_ofAssignments as
  rw [failed] at judged
  cases judged with
  | @unknownKey a fault =>
    obtain ⟨before, after, rfl, -, unknown⟩ := fault
    exact absurd (known a (by simp)) unknown
  | keyCount => exact .keyCount _ _
  | invalidValue => exact .invalidValue _ _
  | badConfidence => exact .badConfidence _

/-- Assignments are an unordered mapping: texts that assign the same values to the same keys, in
whatever order and layout, give the same request or fail for the same key. -/
theorem parseText_of_perm {text text' : String} {as as' : List Assignment}
    (listed : assignments text = .ok as) (listed' : assignments text' = .ok as')
    (known : ∀ a ∈ as, Known a.name)
    (perm : (as.map Assignment.pair).Perm (as'.map Assignment.pair)) :
    parseText text = parseText text' ∧
      ∀ error, parseText text = .error error → OfKeys error := by
  have read : parseText text = ofAssignments as := by rw [parseText, listed]; rfl
  have read' : parseText text' = ofAssignments as' := by rw [parseText, listed']; rfl
  rw [read, read']
  exact ⟨ofAssignments_perm perm known, fun error failed => ofKeys_of_known known failed⟩

/-- A key given twice, in two orders and layouts: either way it is the key that is reported. -/
theorem parseText_of_perm_of_repeated_key :
    let text := "score.lm = x\nbeam_size = 7\nscore.lm = 1\n"
    let text' := "beam_size=7 # first\n[score]\nlm = 1\n\nlm = x"
    let as : List Assignment := [⟨"score.lm", "x", 1⟩, ⟨"beam_size", "7", 2⟩, ⟨"score.lm", "1", 3⟩]
    let as' : List Assignment := [⟨"beam_size", "7", 1⟩, ⟨"score.lm", "1", 3⟩, ⟨"score.lm", "x", 5⟩]
    assignments text = .ok as ∧ assignments text' = .ok as' ∧ (∀ a ∈ as, Known a.name) ∧
      (as.map Assignment.pair).Perm (as'.map Assignment.pair) ∧
      parseText text = parseText text' ∧ parseText text = .error (.keyCount .lmWeight 2) := by
  intro text text' as as'
  have listed : assignments text = .ok as := by decide +kernel
  have listed' : assignments text' = .ok as' := by decide +kernel
  have known : ∀ a ∈ as, Known a.name := by
    simp only [as, List.forall_mem_cons]
    exact ⟨⟨.lmWeight, rfl⟩, ⟨.beamSize, rfl⟩, ⟨.lmWeight, rfl⟩, List.forall_mem_nil _⟩
  have perm : (as.map Assignment.pair).Perm (as'.map Assignment.pair) := by decide
  have failed : ofAssignments as = .error (.keyCount .lmWeight 2) := by
    have twice : ¬RightCount as .lmWeight := by
      rw [RightCount]
      decide
    exact ofAssignments_of_judged (.keyCount known ⟨[], _, rfl, by simp, twice⟩)
  have read : parseText text = ofAssignments as := by rw [parseText, listed]; rfl
  exact ⟨listed, listed', known, perm, (parseText_of_perm listed listed' known perm).1,
    read.trans failed⟩

end SystemCombination.Request
