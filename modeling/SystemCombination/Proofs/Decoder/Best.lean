import SystemCombination.Decoder.Basic

/-! The hypotheses that the decoder keeps: how many there are, where their texts come from, and
that the number of the segment has no part in them. -/

namespace SystemCombination.Decoder

variable {arrangement : Arrangement} {order : Nat} {settings : DecoderSettings} {segment : Segment}

theorem length_beam (size : Nat) (systems : List Rendition) :
    (beam size systems).length = min size systems.length := by
  rw [beam, List.length_take, List.length_mergeSort, List.length_zipIdx]

theorem mem_beam {size system : Nat} {systems : List Rendition} {line : Rendition}
    (h : (line, system) ∈ beam size systems) : systems[system]? = some line := by
  have sorted := List.mem_of_mem_take h
  exact List.mem_zipIdx_iff_getElem?.mp (List.mem_mergeSort.mp sorted)

theorem length_nbestIn (arrangement : Arrangement) (order : Nat) (settings : DecoderSettings)
    (segment : Segment) :
    (nbestIn arrangement order settings segment).length =
      min settings.nbestSize (min settings.beamSize segment.systems.length) := by
  rw [nbestIn, List.length_take, List.length_mergeSort, List.length_map, length_beam]

theorem nbestIn_ne_nil (beamSize : 1 ≤ settings.beamSize) (nbestSize : 1 ≤ settings.nbestSize)
    (systems : segment.systems ≠ []) : nbestIn arrangement order settings segment ≠ [] := by
  have count := length_nbestIn arrangement order settings segment
  have := List.length_pos_iff.mpr systems
  exact List.ne_nil_of_length_pos (by omega)

/-- A hypothesis has the text of the line of its system. -/
theorem mem_nbestIn {hypothesis : Hypothesis}
    (h : hypothesis ∈ nbestIn arrangement order settings segment) :
    ∃ line, segment.systems[hypothesis.system]? = some line ∧ hypothesis.text = line.text := by
  have sorted := List.mem_of_mem_take h
  obtain ⟨⟨line, system⟩, kept, rfl⟩ := List.mem_map.mp (List.mem_mergeSort.mp sorted)
  exact ⟨line, mem_beam kept, rfl⟩

theorem nodup_system_beam (size : Nat) (systems : List Rendition) :
    ((beam size systems).map Prod.snd).Nodup := by
  have numbered : (systems.zipIdx.map Prod.snd).Nodup := by
    rw [List.zipIdx_map_snd]
    exact List.nodup_range'
  have sorted := (List.mergeSort_perm systems.zipIdx fun a b =>
    a.1.confidence.fallsTo b.1.confidence).map Prod.snd
  exact (sorted.nodup_iff.mpr numbered).sublist ((List.take_sublist _ _).map Prod.snd)

/-- No system has two hypotheses. -/
theorem nodup_system_nbestIn (arrangement : Arrangement) (order : Nat)
    (settings : DecoderSettings) (segment : Segment) :
    ((nbestIn arrangement order settings segment).map Hypothesis.system).Nodup := by
  let scored := (beam settings.beamSize segment.systems).map fun candidate =>
    hypothesis arrangement order settings segment candidate.2 candidate.1
  have distinct : (scored.map Hypothesis.system).Nodup := by
    rw [List.map_map]
    exact nodup_system_beam ..
  have sorted := (List.mergeSort_perm scored Hypothesis.ranksBefore).map Hypothesis.system
  exact (sorted.nodup_iff.mpr distinct).sublist ((List.take_sublist _ _).map Hypothesis.system)

/-- Segments that differ in their numbers alone have the same hypotheses. -/
theorem nbest_index (order : Nat) (settings : DecoderSettings) (segment : Segment) (index : Nat) :
    nbest order settings { segment with index } = nbest order settings segment := rfl

end SystemCombination.Decoder
