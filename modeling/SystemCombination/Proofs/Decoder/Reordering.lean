import Mathlib.Logic.Equiv.Fin.Rotate
import SystemCombination.Proofs.Binary64.Exact
import SystemCombination.Proofs.Decoder.Alike
import SystemCombination.Proofs.Segment.Reordering

/-! The order of the systems of a segment. What is counted for a system stays the same at its new
place; where confidences add up exactly and no candidate is left out, so do its features and its
score. Ties are broken by the order of the systems, so of the hypotheses only the scores are the
same. -/

namespace SystemCombination

namespace Decoder

/-- Segments with the same lines at other places, and the same systems aligned with each token. -/
structure Renamed (rename : Equiv.Perm Nat) (segment segment' : Segment) : Prop where
  lines : Moved rename segment.systems segment'.systems
  named : ∀ place system,
    rename system ∈ systemsOf (segment'.alignments.at (place.moved rename)) ↔
      system ∈ systemsOf (segment.alignments.at place)

theorem renamed_aligned {rename : Equiv.Perm Nat} {systems systems' : List Rendition}
    (h : Moved rename systems systems') (settings : InputSettings) (index : Nat) :
    Renamed rename (.aligned settings index systems) (.aligned settings index systems') where
  lines := h
  named _ _ := Alignment.mem_systems_table_moved (h.map Rendition.tokens) settings

/-- Where the horizon is not gated, every system that exists is eligible. -/
theorem mem_supportingSystems_of_ungated {horizon : Horizon} (ungated : horizon.gated = false)
    {segment : Segment} {token : TokenRef} {other : Nat} :
    other ∈ supportingSystems segment (eligible horizon segment.systems) token ↔
      (∃ line, segment.systems[other]? = some line) ∧
        other ∈ systemsOf (segment.alignments.at token) := by
  simp [supportingSystems, eligible, ungated, List.getElem?_eq_some_iff]

/-! ### The scores of the best hypotheses -/

theorem ranksBefore_total (a b : Hypothesis) :
    (a.ranksBefore b || b.ranksBefore a) = true := by
  simp only [Hypothesis.ranksBefore, Bool.or_eq_true, Bool.and_eq_true, decide_eq_true_eq]
  omega

theorem ranksBefore_trans (a b c : Hypothesis) (h : a.ranksBefore b = true)
    (h' : b.ranksBefore c = true) : a.ranksBefore c = true := by
  simp only [Hypothesis.ranksBefore, Bool.or_eq_true, Bool.and_eq_true, decide_eq_true_eq] at *
  omega

/-- The scores of ranked hypotheses fall, so they depend on the scores alone. -/
theorem map_score_mergeSort {hypotheses hypotheses' : List Hypothesis}
    (h : (hypotheses.map Hypothesis.score).Perm (hypotheses'.map Hypothesis.score)) :
    (hypotheses.mergeSort Hypothesis.ranksBefore).map Hypothesis.score =
      (hypotheses'.mergeSort Hypothesis.ranksBefore).map Hypothesis.score := by
  have falls (hypotheses : List Hypothesis) :
      ((hypotheses.mergeSort Hypothesis.ranksBefore).map Hypothesis.score).Pairwise
        fun a b => b.totalKey ≤ a.totalKey := by
    rw [List.pairwise_map]
    refine (List.pairwise_mergeSort ranksBefore_trans ranksBefore_total hypotheses).imp ?_
    intro a b ranked
    simp only [Hypothesis.ranksBefore, Bool.or_eq_true, Bool.and_eq_true,
      decide_eq_true_eq] at ranked
    omega
  have sorted (hypotheses : List Hypothesis) :=
    (List.mergeSort_perm hypotheses Hypothesis.ranksBefore).map Hypothesis.score
  -- No two words share a place in the total order, so a falling list of them is unique.
  refine List.Perm.eq_of_pairwise ?_ (falls hypotheses) (falls hypotheses')
    ((sorted hypotheses).trans (h.trans (sorted hypotheses').symm))
  intro a b _ _ above below
  exact Binary64.totalKey_inj.mp (Int.le_antisymm below above)

theorem beam_perm {size : Nat} {systems : List Rendition} (h : systems.length ≤ size) :
    (beam size systems).Perm systems.zipIdx := by
  rw [beam, List.take_of_length_le (by simpa using h)]
  exact List.mergeSort_perm ..

/-! ### Segments with their systems in another order -/

theorem score_hypothesis (arrangement : Arrangement) (order : Nat) (settings : DecoderSettings)
    (segment : Segment) (system : Nat) (line : Rendition) :
    (hypothesis arrangement order settings segment system line).score =
      (hypothesis arrangement order settings segment system line).features.score
        settings.weights := rfl

section Renamed

variable {rename : Equiv.Perm Nat} {segment segment' : Segment} {system : Nat} {line : Rendition}

theorem Renamed.others_perm (h : Renamed rename segment segment') (system : Nat) :
    (segment.others system).Perm (segment'.others (rename system)) := by
  have same (i : Nat) : decide (rename i ≠ rename system) = decide (i ≠ system) := by
    simp [rename.injective.eq_iff]
  exact @Moved.chosen_perm _ rename _ _ h.lines (fun i => i ≠ system)
    (fun i => i ≠ rename system) same

variable (h : Renamed rename segment segment') {settings : DecoderSettings}
  (ungated : settings.horizon.gated = false)

include h ungated

/-- The supporters of a token are the same, under their new numbers. -/
theorem Renamed.supportingSystems_perm (place : TokenRef) :
    ((supportingSystems segment (eligible settings.horizon segment.systems) place).map
      rename).Perm
        (supportingSystems segment' (eligible settings.horizon segment'.systems)
          (place.moved rename)) := by
  have once (segment : Segment) (eligible : List Bool) (place : TokenRef) :
      (supportingSystems segment eligible place).Nodup := List.nodup_range.filter _
  refine (List.perm_ext_iff_of_nodup ((once ..).map rename.injective) (once ..)).mpr fun other => ?_
  obtain ⟨old, rfl⟩ := rename.surjective other
  rw [List.mem_map_of_injective rename.injective, mem_supportingSystems_of_ungated ungated,
    mem_supportingSystems_of_ungated ungated, h.lines old, h.named place old]

theorem Renamed.totalConfidence_eq
    (exact : Binary64.ExactlyAddable (segment.systems.map Rendition.confidence))
    (place : TokenRef) :
    totalConfidence segment (supportingSystems segment
        (eligible settings.horizon segment.systems) place) =
      totalConfidence segment' (supportingSystems segment'
        (eligible settings.horizon segment'.systems) (place.moved rename)) := by
  have perm := (h.supportingSystems_perm ungated place).filterMap fun other =>
    segment'.systems[other]?.map Rendition.confidence
  rw [List.filterMap_map] at perm
  have same : (fun other => segment'.systems[other]?.map Rendition.confidence) ∘ rename =
      fun other => segment.systems[other]?.map Rendition.confidence :=
    funext fun other => congrArg (Option.map Rendition.confidence) (h.lines other)
  rw [same] at perm
  exact (Binary64.foldl_add_of_perm (exactlyAddable_supporting exact _ place) perm.symm).symm

variable (exact : Binary64.ExactlyAddable (segment.systems.map Rendition.confidence))

include exact

theorem Renamed.support_eq (arrangement arrangement' : Arrangement) :
    support arrangement segment (eligible settings.horizon segment.systems) system line =
      support arrangement' segment' (eligible settings.horizon segment'.systems) (rename system)
        line := by
  have exact' : Binary64.ExactlyAddable (segment'.systems.map Rendition.confidence) :=
    exact.of_subperm (h.lines.map Rendition.confidence).perm.symm.subperm
  rw [support_of_exact exact, support_of_exact exact']
  simp only [h.totalConfidence_eq ungated exact, TokenRef.moved]

theorem Renamed.features_eq (arrangement arrangement' : Arrangement) (order : Nat) :
    (hypothesis arrangement' order settings segment' (rename system) line).features =
      (hypothesis arrangement order settings segment system line).features := by
  have others : ∀ other, other ∈ (segment.others system).map Rendition.tokens ↔
      other ∈ (segment'.others (rename system)).map Rendition.tokens := by
    intro other
    exact ((h.others_perm system).map Rendition.tokens).mem_iff
  exact (features_congr rfl (h.support_eq ungated exact _ _) others order settings).symm

theorem Renamed.map_score_nbestIn (all : segment.systems.length ≤ settings.beamSize)
    (arrangement arrangement' : Arrangement) (order : Nat) :
    (nbestIn arrangement' order settings segment').map Hypothesis.score =
      (nbestIn arrangement order settings segment).map Hypothesis.score := by
  have perm := h.lines.zipIdx_perm
  have count : segment'.systems.length = segment.systems.length := by
    simpa using perm.length_eq.symm
  have same : (scored arrangement' order settings segment' (segment.systems.zipIdx.map
      (Prod.map id rename))).map Hypothesis.score =
        (scored arrangement order settings segment segment.systems.zipIdx).map
          Hypothesis.score := by
    simp only [scored, List.map_map]
    refine List.map_congr_left fun ⟨line, system⟩ _ => ?_
    show (hypothesis arrangement' order settings segment' (rename system) line).score = _
    rw [score_hypothesis, h.features_eq ungated exact arrangement arrangement' order]
    rfl
  have scores : ((scored arrangement' order settings segment'
      (beam settings.beamSize segment'.systems)).map Hypothesis.score).Perm
        ((scored arrangement order settings segment
          (beam settings.beamSize segment.systems)).map Hypothesis.score) := by
    refine (((beam_perm (count ▸ all)).map _).map _).trans ?_
    refine ((perm.symm.map _).map _).trans ?_
    exact (List.Perm.of_eq same).trans (((beam_perm all).symm.map _).map _)
  rw [nbestIn_eq, nbestIn_eq, List.map_take, List.map_take, map_score_mergeSort scores]

end Renamed

/-- A system is found again at its new place with its line, and so with its known tokens, and with
the same counts of what it shares with the other lines and the same systems aligned with each
token. -/
structure KeptAt {n : Nat} (σ : Equiv.Perm (Fin n)) (segment segment' : Segment) (i : Fin n)
    (line : Rendition) : Prop where
  before : segment.systems[(i : Nat)]? = some line
  after : segment'.systems[(σ i : Nat)]? = some line
  shared : ∀ length,
    sharedRuns ((segment'.others (σ i)).map Rendition.tokens) line.tokens length =
      sharedRuns ((segment.others i).map Rendition.tokens) line.tokens length
  overlap : overlap ((segment'.others (σ i)).map Rendition.tokens) line.tokens =
    overlap ((segment.others i).map Rendition.tokens) line.tokens
  named : ∀ position other, other ∈ systemsOf (segment'.alignments.at ⟨σ i, position⟩) ↔
    ∃ old, (σ old : Nat) = other ∧ (old : Nat) ∈ systemsOf (segment.alignments.at ⟨i, position⟩)

theorem keptAt_reordered (settings : InputSettings) (index : Nat) (systems : List Rendition)
    (σ : Equiv.Perm (Fin systems.length)) (i : Fin systems.length) :
    KeptAt σ (.aligned settings index systems) (.aligned settings index (reordered systems σ)) i
      systems[i] := by
  have renamed := renamed_aligned (moved_reordered systems σ) settings index
  have place : onNumbers σ i = σ i := onNumbers_val σ i
  have before : systems[(i : Nat)]? = some systems[i] := by simp
  have others (other : List String) := ((renamed.others_perm i).map Rendition.tokens).mem_iff
    (a := other)
  rw [place] at others
  refine ⟨before, ?_, fun length => ?_, ?_, fun position other => ?_⟩
  · rw [← place]
    exact (renamed.lines i).trans before
  · exact (sharedRuns_congr others length).symm
  · exact (overlap_congr others).symm
  · have moved (old : Nat) := renamed.named ⟨i, position⟩ old
    simp only [TokenRef.moved, place] at moved
    constructor
    · intro named
      obtain ⟨old, rfl⟩ := (onNumbers σ).surjective other
      have named := (moved old).mp named
      have inside : old < systems.length := by
        simpa using Alignment.lt_of_mem_systems_table named
      exact ⟨⟨old, inside⟩, (onNumbers_val σ ⟨old, inside⟩).symm, named⟩
    · rintro ⟨old, rfl, named⟩
      have named' := (moved old).mpr named
      rwa [onNumbers_val] at named'

/-- The order of the systems carries no information. -/
theorem scores_of_reordered (settings : InputSettings) (index : Nat)
    (systems : List Rendition) (σ : Equiv.Perm (Fin systems.length)) :
    let segment := Segment.aligned settings index systems
    let segment' := Segment.aligned settings index (reordered systems σ)
    (∀ i, KeptAt σ segment segment' i systems[i]) ∧
    ∀ (arrangement arrangement' : Arrangement) (order : Nat) (decoder : DecoderSettings),
      decoder.horizon.gated = false →
      Binary64.ExactlyAddable (systems.map Rendition.confidence) →
      systems.length ≤ decoder.beamSize →
      (∀ i : Fin systems.length,
        let candidate := hypothesis arrangement order decoder segment i systems[i]
        let candidate' := hypothesis arrangement' order decoder segment' (σ i) systems[i]
        candidate'.features = candidate.features ∧ candidate'.score = candidate.score) ∧
      (nbestIn arrangement' order decoder segment').map Hypothesis.score =
        (nbestIn arrangement order decoder segment).map Hypothesis.score := by
  intro segment segment'
  have renamed := renamed_aligned (moved_reordered systems σ) settings index
  refine ⟨keptAt_reordered settings index systems σ,
    fun arrangement arrangement' order decoder ungated exact all => ⟨fun i => ?_,
      renamed.map_score_nbestIn ungated exact all arrangement arrangement' order⟩⟩
  have features : (hypothesis arrangement' order decoder segment' (onNumbers σ i)
      systems[i]).features = (hypothesis arrangement order decoder segment i systems[i]).features :=
    renamed.features_eq ungated exact arrangement arrangement' order
  rw [onNumbers_val] at features
  exact ⟨features, congrArg (Features.score decoder.weights) features⟩

/-- Three systems in rotation, with confidences that add up exactly. -/
theorem scores_of_reordered_of_three_systems :
    ∃ (systems : List Rendition) (σ : Equiv.Perm (Fin systems.length))
      (decoder : DecoderSettings), σ ≠ .refl _ ∧ decoder.horizon.gated = false ∧
      Binary64.ExactlyAddable (systems.map Rendition.confidence) ∧
      systems.length ≤ decoder.beamSize ∧
      ∀ arrangement arrangement' settings order,
        (nbestIn arrangement' order decoder (.aligned settings 0 (reordered systems σ))).map
            Hypothesis.score =
          (nbestIn arrangement order decoder (.aligned settings 0 systems)).map
            Hypothesis.score := by
  let half : Binary64 := ⟨0x3FE0000000000000⟩
  let quarter : Binary64 := ⟨0x3FD0000000000000⟩
  let systems : List Rendition := [⟨["a", "b", "a"], [some 0, none, some 0], 1⟩,
    ⟨["b", "a"], [none, some 0], half⟩, ⟨["a"], [some 0], quarter⟩]
  let σ : Equiv.Perm (Fin systems.length) := finRotate 3
  let decoder : DecoderSettings := ⟨⟨1, 1, 1, 1, 1, 0⟩, 3, false, 2, ⟨0, false, 0⟩⟩
  have rotates : finRotate 3 ≠ .refl (Fin 3) := by
    intro same
    exact absurd (Equiv.congr_fun same 0) (by decide)
  have ungated : decoder.horizon.gated = false := rfl
  have exact : Binary64.ExactlyAddable (systems.map Rendition.confidence) := by decide +kernel
  have all : systems.length ≤ decoder.beamSize := by decide
  refine ⟨systems, σ, decoder, rotates, ungated, exact, all,
    fun arrangement arrangement' settings order => ?_⟩
  exact ((scores_of_reordered settings 0 systems σ).2 arrangement arrangement' order decoder
    ungated exact all).2

end Decoder

end SystemCombination
