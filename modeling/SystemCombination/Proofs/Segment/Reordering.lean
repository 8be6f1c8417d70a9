import Mathlib.Data.List.Sigma
import Mathlib.Logic.Equiv.Fin.Basic
import SystemCombination.Proofs.Segment.Matches

/-! Lines in another order. Whether two tokens match does not depend on where their lines stand,
so the systems that a cell names are the same, each under its new number. Which tokens of a line
are recorded may differ: through a third system, the first one met is kept. -/

namespace SystemCombination

/-- The entry at `i` of the first list stands at `rename i` in the second. -/
def Moved {α : Type} (rename : Equiv.Perm Nat) (xs xs' : List α) : Prop :=
  ∀ i, xs'[rename i]? = xs[i]?

section Moved

variable {α β : Type} {rename : Equiv.Perm Nat} {xs xs' : List α}

theorem Moved.map (h : Moved rename xs xs') (f : α → β) :
    Moved rename (xs.map f) (xs'.map f) := by
  intro i
  rw [List.getElem?_map, List.getElem?_map, h i]

theorem Moved.zipIdx_perm (h : Moved rename xs xs') :
    (xs.zipIdx.map (Prod.map id rename)).Perm xs'.zipIdx := by
  have injective : Function.Injective (Prod.map (@id α) rename) :=
    Function.injective_id.prodMap rename.injective
  have nodup (xs : List α) : xs.zipIdx.Nodup := xs.nodup_zipIdx_map_snd.of_map Prod.snd
  refine (List.perm_ext_iff_of_nodup ((nodup xs).map injective) (nodup xs')).mpr ?_
  rintro ⟨x, place⟩
  simp only [List.mem_map, Prod.exists, Prod.map_apply, id_eq, Prod.mk.injEq,
    List.mem_zipIdx_iff_getElem?]
  constructor
  · rintro ⟨_, i, stands, rfl, rfl⟩
    rw [h i, stands]
  · intro stands
    refine ⟨x, rename.symm place, ?_, rfl, rename.apply_symm_apply place⟩
    rw [← h, rename.apply_symm_apply, stands]

theorem Moved.perm (h : Moved rename xs xs') : xs.Perm xs' := by
  have numbered := h.zipIdx_perm.map Prod.fst
  rw [List.map_map, List.zipIdx_map_fst] at numbered
  exact (List.Perm.of_eq (List.zipIdx_map_fst 0 xs).symm).trans numbered

/-- Entries that are chosen by their places are the same in another order. -/
theorem Moved.chosen_perm (h : Moved rename xs xs') {chosen chosen' : Nat → Bool}
    (same : ∀ i, chosen' (rename i) = chosen i) :
    ((xs.zipIdx.filter fun (_, i) => chosen i).map Prod.fst).Perm
      ((xs'.zipIdx.filter fun (_, i) => chosen' i).map Prod.fst) := by
  have numbered := (h.zipIdx_perm.filter fun (_, i) => chosen' i).map Prod.fst
  rw [List.filter_map, List.map_map] at numbered
  simpa [Function.comp_def, Prod.map, same] using numbered

/-- A list with the entry at `i` moved to `σ i`. -/
def reordered (xs : List α) (σ : Equiv.Perm (Fin xs.length)) : List α :=
  List.ofFn fun place => xs[σ.symm place]

/-- A permutation of the places of a list, which leaves all other numbers where they are. -/
def onNumbers {n : Nat} (σ : Equiv.Perm (Fin n)) : Equiv.Perm Nat :=
  σ.extendDomain Fin.equivSubtype

theorem onNumbers_val {n : Nat} (σ : Equiv.Perm (Fin n)) (i : Fin n) : onNumbers σ i = σ i :=
  σ.extendDomain_apply_image Fin.equivSubtype i

theorem onNumbers_of_le {n i : Nat} (σ : Equiv.Perm (Fin n)) (h : n ≤ i) : onNumbers σ i = i :=
  σ.extendDomain_apply_not_subtype Fin.equivSubtype (Nat.not_lt_of_le h)

theorem moved_reordered (xs : List α) (σ : Equiv.Perm (Fin xs.length)) :
    Moved (onNumbers σ) xs (reordered xs σ) := by
  intro i
  by_cases inside : i < xs.length
  · have place : onNumbers σ i = σ ⟨i, inside⟩ := onNumbers_val σ ⟨i, inside⟩
    simp [place, reordered, inside]
  · have outside : xs.length ≤ i := Nat.le_of_not_lt inside
    rw [onNumbers_of_le σ outside, List.getElem?_eq_none outside,
      List.getElem?_eq_none (by simpa [reordered] using outside)]

end Moved

/-- The token at the new place of its line. -/
def TokenRef.moved (rename : Equiv.Perm Nat) (token : TokenRef) : TokenRef :=
  { token with system := rename token.system }

theorem TokenRef.moved_surjective (rename : Equiv.Perm Nat) :
    Function.Surjective (TokenRef.moved rename) := by
  rintro ⟨system, position⟩
  exact ⟨⟨rename.symm system, position⟩, by simp [TokenRef.moved]⟩

namespace Alignment

variable {rename : Equiv.Perm Nat} {lines lines' : List (List String)} {place token : TokenRef}

theorem wordAt?_moved (h : Moved rename lines lines') (token : TokenRef) :
    wordAt? lines' (token.moved rename) = wordAt? lines token := by
  simp only [wordAt?, TokenRef.moved, h token.system]

theorem matches_moved (h : Moved rename lines lines') (radius : Nat) :
    Matches radius lines' (place.moved rename) (token.moved rename) ↔
      Matches radius lines place token := by
  have apart : rename token.system ≠ rename place.system ↔ token.system ≠ place.system :=
    rename.injective.ne_iff
  constructor
  · rintro ⟨isApart, sameWord, near⟩
    simp only [wordAt?_moved h] at sameWord
    exact ⟨apart.mp isApart, sameWord, near⟩
  · rintro ⟨isApart, sameWord, near⟩
    simp only [← wordAt?_moved h] at sameWord
    exact ⟨apart.mpr isApart, sameWord, near⟩

/-- Which token of another line is the nearest does not depend on the places of the lines. -/
theorem mem_at_direct_moved (h : Moved rename lines lines') (settings : InputSettings) :
    token.moved rename ∈ (direct settings lines').at (place.moved rename) ↔
      token ∈ (direct settings lines).at place := by
  rw [mem_at_direct, mem_at_direct, wordAt?_moved h]
  simp only [TokenRef.moved, h token.system, rename.injective.ne_iff]

/-- A cell names the same systems, under their new numbers. -/
theorem mem_systems_table_moved (h : Moved rename lines lines') (settings : InputSettings)
    {system : Nat} :
    rename system ∈ systemsOf ((table settings lines').at (place.moved rename)) ↔
      system ∈ systemsOf ((table settings lines).at place) := by
  have apart : rename system ≠ rename place.system ↔ system ≠ place.system :=
    rename.injective.ne_iff
  have isMatch (hop : TokenRef) (position : Nat) :
      Matches settings.radius lines' (hop.moved rename) ⟨rename system, position⟩ ↔
        Matches settings.radius lines hop ⟨system, position⟩ :=
    @matches_moved rename lines lines' hop ⟨system, position⟩ h settings.radius
  have moved : (place.moved rename).system = rename place.system := rfl
  rw [mem_systems_table, mem_systems_table, (TokenRef.moved_surjective rename).exists]
  simp only [isMatch, mem_at_direct_moved h, moved, apart]

theorem lt_of_mem_systems_table {settings : InputSettings} {system : Nat}
    (h : system ∈ systemsOf ((table settings lines).at place)) : system < lines.length := by
  have inside {hop : TokenRef} {position : Nat}
      (isMatch : Matches settings.radius lines hop ⟨system, position⟩) :
      system < lines.length := by
    obtain ⟨_, _, found⟩ := isMatch.word
    obtain ⟨line, isLine, _⟩ := Option.bind_eq_some_iff.mp found
    exact (List.getElem?_eq_some_iff.mp isLine).1
  rcases mem_systems_table.mp h with ⟨_, isMatch⟩ | ⟨_, _, _, _, _, isMatch⟩
  · exact inside isMatch
  · exact inside isMatch

end Alignment

end SystemCombination
