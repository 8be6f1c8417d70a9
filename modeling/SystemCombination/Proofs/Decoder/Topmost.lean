import SystemCombination.Proofs.Decoder.Reordering

/-! The hypotheses that the decoder keeps are the topmost. Both selections, of the candidates by
their confidence and of the hypotheses by their score, take the first entries in a strict order.
Each hypothesis is made from its own line and all lines of the segment, whatever the sizes are, so
greater sizes only add candidates and hypotheses. -/

namespace SystemCombination.Decoder

/-! ### The first entries in an order -/

section Topmost

variable {α : Type} {before : α → α → Prop}

/-- `best` are the first `size` entries of `all` in an order: they are in order, and they come
before those left out. -/
structure Topmost (before : α → α → Prop) (size : Nat) (all best : List α) : Prop where
  length_eq : best.length = min size all.length
  sorted : best.Pairwise before
  leaves : ∃ rest, (best ++ rest).Perm all ∧ ∀ x ∈ best, ∀ y ∈ rest, before x y

theorem topmost_take {all ranked : List α} (perm : ranked.Perm all)
    (sorted : ranked.Pairwise before) (size : Nat) :
    Topmost before size all (ranked.take size) := by
  rw [← List.take_append_drop size ranked, List.pairwise_append] at sorted
  obtain ⟨taken, _, across⟩ := sorted
  refine ⟨by rw [List.length_take, perm.length_eq], taken, ranked.drop size, ?_, across⟩
  rwa [List.take_append_drop]

/-- Entries by falling values in the total order, those of the same value by rising places. -/
def FallsBefore (value : α → Binary64) (place : α → Nat) (a b : α) : Prop :=
  (value b).totalKey < (value a).totalKey ∨ value a = value b ∧ place a < place b

end Topmost

/-! ### Candidates and hypotheses -/

/-- The order of candidates: the more confident first, of two as confident the earlier system. -/
abbrev candidateOrder : Rendition × Nat → Rendition × Nat → Prop :=
  FallsBefore (fun candidate => candidate.1.confidence) Prod.snd

/-- The order of hypotheses: the greater score first, of two with the same the earlier system. -/
abbrev hypothesisOrder : Hypothesis → Hypothesis → Prop :=
  FallsBefore Hypothesis.score Hypothesis.system

/-- Candidates as confident as each other keep the order of their systems. -/
theorem pairwise_mergeSort_zipIdx (systems : List Rendition) :
    (systems.zipIdx.mergeSort fun a b =>
      a.1.confidence.fallsTo b.1.confidence).Pairwise candidateOrder := by
  let falls (a b : Rendition × Nat) : Bool := a.1.confidence.fallsTo b.1.confidence
  have falls_trans (a b c : Rendition × Nat) (h : falls a b = true) (h' : falls b c = true) :
      falls a c = true := Binary64.fallsTo_trans h h'
  have falls_total (a b : Rendition × Nat) : (falls a b || falls b a) = true :=
    Binary64.fallsTo_total ..
  -- With the candidates numbered once more, the second number is that of the system.
  let numbered := systems.zipIdx.zipIdx.mergeSort (List.zipIdxLE falls)
  have sorted : numbered.Pairwise fun a b => List.zipIdxLE falls a b = true :=
    List.pairwise_mergeSort (List.zipIdxLE_trans falls_trans) (List.zipIdxLE_total falls_total) _
  have apart : numbered.Pairwise fun a b => a.2 ≠ b.2 := by
    have once : (systems.zipIdx.zipIdx.map Prod.snd).Nodup := systems.zipIdx.nodup_zipIdx_map_snd
    exact List.pairwise_map.mp (((List.mergeSort_perm _ _).map Prod.snd).nodup_iff.mpr once)
  have number (candidate : (Rendition × Nat) × Nat) (member : candidate ∈ numbered) :
      candidate.1.2 = candidate.2 := by
    have stands := List.mem_zipIdx_iff_getElem?.mp (List.mem_mergeSort.mp member)
    rw [List.getElem?_zipIdx, Nat.zero_add, Option.map_eq_some_iff] at stands
    obtain ⟨line, _, eq⟩ := stands
    rw [← eq]
  have unnumbered : systems.zipIdx.mergeSort falls = numbered.map Prod.fst :=
    List.mergeSort_zipIdx.symm
  show (systems.zipIdx.mergeSort falls).Pairwise candidateOrder
  rw [unnumbered, List.pairwise_map]
  refine (sorted.and apart).imp_of_mem fun {a b} isFirst isSecond ⟨ranked, differ⟩ => ?_
  have first := number a isFirst
  have second := number b isSecond
  simp only [List.zipIdxLE, falls, Binary64.fallsTo, decide_eq_true_eq] at ranked
  split at ranked
  · next down =>
    split at ranked
    · next up =>
      rw [decide_eq_true_eq] at ranked
      exact .inr ⟨Binary64.totalKey_inj.mp (Int.le_antisymm up down), by omega⟩
    · next strict => exact .inl (Int.lt_of_not_ge strict)
  · cases ranked

/-- Hypotheses of different systems are never tied. -/
theorem hypothesisOrder_of_ranksBefore {a b : Hypothesis} (h : a.ranksBefore b = true)
    (apart : a.system ≠ b.system) : hypothesisOrder a b := by
  simp only [Hypothesis.ranksBefore, Bool.or_eq_true, Bool.and_eq_true, decide_eq_true_eq] at h
  rcases h with above | ⟨level, earlier⟩
  · exact .inl above
  · exact .inr ⟨Binary64.totalKey_inj.mp level, Nat.lt_of_le_of_ne earlier apart⟩

theorem topmost_beam (size : Nat) (systems : List Rendition) :
    Topmost candidateOrder size systems.zipIdx (beam size systems) :=
  topmost_take (List.mergeSort_perm ..) (pairwise_mergeSort_zipIdx systems) size

/-- The hypotheses of the candidates in the beam, in the order of the candidates. -/
def considered (arrangement : Arrangement) (order : Nat) (settings : DecoderSettings)
    (segment : Segment) : List Hypothesis :=
  scored arrangement order settings segment (beam settings.beamSize segment.systems)

theorem topmost_nbestIn (arrangement : Arrangement) (order : Nat) (settings : DecoderSettings)
    (segment : Segment) :
    Topmost hypothesisOrder settings.nbestSize (considered arrangement order settings segment)
      (nbestIn arrangement order settings segment) := by
  let ranked := (considered arrangement order settings segment).mergeSort Hypothesis.ranksBefore
  have perm : ranked.Perm (considered arrangement order settings segment) :=
    List.mergeSort_perm ..
  have apart : ranked.Pairwise fun a b => a.system ≠ b.system := by
    have once : ((considered arrangement order settings segment).map Hypothesis.system).Nodup := by
      rw [considered, scored, List.map_map]
      exact nodup_system_beam ..
    exact List.pairwise_map.mp ((perm.map Hypothesis.system).nodup_iff.mpr once)
  have sorted : ranked.Pairwise fun a b => a.ranksBefore b = true :=
    List.pairwise_mergeSort ranksBefore_trans ranksBefore_total _
  have strict : ranked.Pairwise hypothesisOrder := (sorted.and apart).imp fun both =>
    hypothesisOrder_of_ranksBefore both.1 both.2
  exact topmost_take perm strict settings.nbestSize

/-- A hypothesis for a line, made from all lines of the segment whatever the sizes are. -/
structure Made (arrangement : Arrangement) (order : Nat) (settings : DecoderSettings)
    (segment : Segment) (made : Hypothesis) (line : Rendition) : Prop where
  stands : segment.systems[made.system]? = some line
  text : made.text = line.text
  features : made.features = features arrangement order settings segment
    (eligible settings.horizon segment.systems) made.system line
  score : made.score = made.features.score settings.weights
  sizes : ∀ beamSize nbestSize,
    hypothesis arrangement order { settings with beamSize, nbestSize } segment made.system line =
      made

theorem mem_considered {arrangement : Arrangement} {order : Nat} {settings : DecoderSettings}
    {segment : Segment} {made : Hypothesis}
    (h : made ∈ considered arrangement order settings segment) :
    ∃ line, (line, made.system) ∈ beam settings.beamSize segment.systems ∧
      Made arrangement order settings segment made line := by
  obtain ⟨⟨line, system⟩, kept, rfl⟩ := List.mem_map.mp h
  exact ⟨line, kept, mem_beam kept, rfl, rfl, rfl, fun _ _ => rfl⟩

theorem considered_isPrefix (arrangement : Arrangement) (order : Nat)
    (settings : DecoderSettings) (segment : Segment) (more : Nat) :
    considered arrangement order settings segment <+:
      considered arrangement order { settings with beamSize := settings.beamSize + more } segment :=
  (List.take_prefix_take_left (Nat.le_add_right ..)).map _

/-- The decoder keeps the topmost hypotheses of the topmost candidates, the first ones in a strict
order on either side of each cut. A hypothesis does not depend on how many there are, so a greater
size adds hypotheses behind the others or candidates behind the others, and takes none away. -/
theorem nbest_topmost (arrangement : Arrangement) (order : Nat) (settings : DecoderSettings)
    (segment : Segment) :
    let candidates := beam settings.beamSize segment.systems
    let best := nbestIn arrangement order settings segment
    Topmost candidateOrder settings.beamSize segment.systems.zipIdx candidates ∧
    Topmost hypothesisOrder settings.nbestSize (considered arrangement order settings segment)
      best ∧
    best.length = min settings.nbestSize (min settings.beamSize segment.systems.length) ∧
    (best.map Hypothesis.system).Nodup ∧
    (∀ made ∈ best, ∃ line, (line, made.system) ∈ candidates ∧
      Made arrangement order settings segment made line) ∧
    (∀ candidate ∈ candidates, candidate.2 ∉ best.map Hypothesis.system → ∀ made ∈ best,
      hypothesisOrder made
        (hypothesis arrangement order settings segment candidate.2 candidate.1)) ∧
    ∀ more,
      best <+: nbestIn arrangement order
        { settings with nbestSize := settings.nbestSize + more } segment ∧
      candidates <+: beam (settings.beamSize + more) segment.systems ∧
      considered arrangement order settings segment <+:
        considered arrangement order
          { settings with beamSize := settings.beamSize + more } segment := by
  intro candidates best
  have topmost := topmost_nbestIn arrangement order settings segment
  obtain ⟨rest, perm, above⟩ := topmost.leaves
  refine ⟨topmost_beam .., topmost, length_nbestIn .., nodup_system_nbestIn ..,
    fun made kept => ?made, fun candidate isCandidate left made kept => ?left,
    fun more => ⟨?nbest, ?beam, considered_isPrefix ..⟩⟩
  case made => exact mem_considered (perm.mem_iff.mp (List.mem_append_left rest kept))
  case left =>
    refine above made kept _ ?_
    have isConsidered : hypothesis arrangement order settings segment candidate.2 candidate.1 ∈
        considered arrangement order settings segment :=
      List.mem_map.mpr ⟨candidate, isCandidate, rfl⟩
    rcases List.mem_append.mp (perm.mem_iff.mpr isConsidered) with isKept | isLeft
    · exact absurd (List.mem_map.mpr ⟨_, isKept, rfl⟩) left
    · exact isLeft
  case nbest => exact List.take_prefix_take_left (Nat.le_add_right ..)
  case beam => exact List.take_prefix_take_left (Nat.le_add_right ..)

/-- A beam of one system among two with the same confidence and one whose zero is negative: the
first is kept, and its hypothesis is the only one although more are asked for. -/
theorem nbest_topmost_of_beam_of_one :
    ∃ (settings : DecoderSettings) (segment : Segment) (line : Rendition),
      beam settings.beamSize segment.systems = [(line, 0)] ∧ settings.nbestSize = 2 ∧
      ∀ arrangement order, ∃ made, nbestIn arrangement order settings segment = [made] ∧
        made.system = 0 ∧ made.text = "a" ∧
        hypothesis arrangement order { settings with beamSize := 3 } segment 0 line = made := by
  let line : Rendition := ⟨["a"], [none], 0⟩
  let systems : List Rendition := [line, ⟨["b"], [none], 0⟩, ⟨["a"], [none], -0⟩]
  let settings : DecoderSettings := ⟨⟨1, 1, 1, 1, 1, 0⟩, 1, false, 2, ⟨0, false, 0⟩⟩
  let segment : Segment := ⟨0, systems, []⟩
  have ranked : systems.zipIdx.Pairwise fun a b =>
    a.1.confidence.fallsTo b.1.confidence = true := by decide +kernel
  have kept : beam settings.beamSize segment.systems = [(line, 0)] := by
    rw [beam, List.mergeSort_of_pairwise ranked]
    rfl
  refine ⟨settings, segment, line, kept, rfl, fun arrangement order => ?_⟩
  obtain ⟨-, -, count, -, all, -⟩ := nbest_topmost arrangement order settings segment
  obtain ⟨made, only⟩ := List.length_eq_one_iff.mp count
  obtain ⟨line', isKept, isMade⟩ := all made (by simp [only])
  rw [kept, List.mem_singleton, Prod.mk.injEq] at isKept
  obtain ⟨rfl, first⟩ := isKept
  have text : line.text = "a" := by decide +kernel
  exact ⟨made, only, first, isMade.text.trans text, first ▸ isMade.sizes 3 2⟩

end SystemCombination.Decoder
