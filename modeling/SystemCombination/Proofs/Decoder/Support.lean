import SystemCombination.Proofs.Decoder.Alike

/-! The hypotheses for a segment, whatever the table of alignments looks like. A system counts once
for a token, if it exists, is eligible, and is named in the cell of the token; of the table nothing
else matters, neither the positions in it nor cells that are missing or that belong to no token. -/

namespace SystemCombination

/-- Two tables name the same systems of a segment at each of its tokens. -/
def Segment.NamesSame (segment : Segment) (table table' : AlignmentTable) : Prop :=
  ∀ entry ∈ segment.systems.zipIdx, ∀ position < entry.1.tokens.length,
    ∀ other < segment.systems.length,
      other ∈ systemsOf (table.at ⟨entry.2, position⟩) ↔
        other ∈ systemsOf (table'.at ⟨entry.2, position⟩)

instance (segment : Segment) (table table' : AlignmentTable) :
    Decidable (segment.NamesSame table table') :=
  inferInstanceAs (Decidable (∀ entry ∈ segment.systems.zipIdx,
    ∀ position < entry.1.tokens.length, ∀ other < segment.systems.length,
      other ∈ systemsOf (table.at ⟨entry.2, position⟩) ↔
        other ∈ systemsOf (table'.at ⟨entry.2, position⟩)))

namespace Decoder

/-- Segments of the same lines, each with the same support, have the same hypotheses. -/
theorem nbestIn_congr_of_support {arrangement arrangement' : Arrangement}
    {segment segment' : Segment} (systems : segment.systems = segment'.systems)
    (supported : ∀ system line, segment.systems[system]? = some line → ∀ eligible,
      support arrangement segment eligible system line =
        support arrangement' segment' eligible system line)
    (order : Nat) (settings : DecoderSettings) :
    nbestIn arrangement order settings segment = nbestIn arrangement' order settings segment' := by
  apply nbestIn_of_scored
  rw [← systems]
  refine List.map_congr_left fun ⟨line, system⟩ kept => ?_
  have others : ∀ other, other ∈ (segment.others system).map Rendition.tokens ↔
      other ∈ (segment'.others system).map Rendition.tokens := by
    intro other
    rw [Segment.others, Segment.others, systems]
  have stands := mem_beam kept
  have alike := features_congr rfl
    (supported system line stands (eligible settings.horizon segment.systems)) others order settings
  simp only [hypothesis, ← systems, alike]

section NamesSame

variable {segment : Segment} {table table' : AlignmentTable}
  (same : segment.NamesSame table table')

include same

theorem support_of_namesSame {system : Nat} {line : Rendition}
    (stands : segment.systems[system]? = some line) (arrangement : Arrangement)
    (eligible : List Bool) :
    support arrangement { segment with alignments := table } eligible system line =
      support arrangement { segment with alignments := table' } eligible system line := by
  have member : (line, system) ∈ segment.systems.zipIdx := List.mem_zipIdx_iff_getElem?.mpr stands
  exact @support_congr { segment with alignments := table } { segment with alignments := table' }
    system line line rfl rfl (same _ member) arrangement eligible

theorem nbestIn_of_namesSame (arrangement : Arrangement) (order : Nat)
    (settings : DecoderSettings) :
    nbestIn arrangement order settings { segment with alignments := table } =
      nbestIn arrangement order settings { segment with alignments := table' } := by
  apply nbestIn_congr_of_support
  · rfl
  · intro system line stands eligible
    exact support_of_namesSame same stands arrangement eligible

end NamesSame

/-- Where confidences add up exactly, the arrangement makes no difference. -/
theorem nbestIn_of_exact (segment : Segment)
    (exact : Binary64.ExactlyAddable (segment.systems.map Rendition.confidence))
    (arrangement arrangement' : Arrangement) (order : Nat) (settings : DecoderSettings) :
    nbestIn arrangement order settings segment = nbestIn arrangement' order settings segment := by
  refine nbestIn_congr_of_support rfl (fun system line _ eligible => ?_) order settings
  rw [support_of_exact exact, support_of_exact exact]

/-- For any table of alignments, the support of a line is the sum over its tokens of the sums of the
confidences of the systems that exist, are eligible and are named for the token, each counted once,
in whatever order they are arranged. Tables that name the same existing systems at each token give
the same hypotheses where these systems are added up in the same order and, as the order makes no
difference to a sum without rounding, in any order where confidences add up exactly. -/
theorem support_of_any_table (segment : Segment) :
    (∀ arrangement eligible system line,
      support arrangement segment eligible system line =
        .total ((List.range line.tokens.length).map fun position =>
          totalConfidence segment (arrangement.arrange ⟨system, position⟩
            (supportingSystems segment eligible ⟨system, position⟩)))) ∧
    (Binary64.ExactlyAddable (segment.systems.map Rendition.confidence) →
      ∀ eligible token found, found.Perm (supportingSystems segment eligible token) →
        totalConfidence segment found =
          totalConfidence segment (supportingSystems segment eligible token)) ∧
    ∀ table table', segment.NamesSame table table' →
      (∀ arrangement order settings,
        nbestIn arrangement order settings { segment with alignments := table } =
          nbestIn arrangement order settings { segment with alignments := table' }) ∧
      (Binary64.ExactlyAddable (segment.systems.map Rendition.confidence) →
        ∀ arrangement arrangement' order settings,
          nbestIn arrangement order settings { segment with alignments := table } =
            nbestIn arrangement' order settings { segment with alignments := table' }) := by
  refine ⟨fun arrangement => support_eq arrangement segment,
    fun exact _ _ _ => totalConfidence_of_perm exact,
    fun table table' same => ⟨nbestIn_of_namesSame same,
      fun exact arrangement arrangement' order settings => ?_⟩⟩
  rw [nbestIn_of_namesSame same arrangement order settings]
  exact nbestIn_of_exact { segment with alignments := table' } exact arrangement arrangement'
    order settings

/-- Two tables for three lines. One names a system at two positions of which one does not exist, a
system under a number that does not exist either, and lacks all cells but one. The other names the
systems at other positions and in another order, has a cell too many, and names in its second cell a
system that does not exist. -/
theorem support_of_any_table_of_ragged_tables :
    ∃ (segment : Segment) (line : Rendition) (table table' : AlignmentTable),
      segment.systems[0]? = some line ∧ line.tokens.length = 2 ∧
      table = [[[⟨1, 0⟩, ⟨1, 5⟩, ⟨9, 0⟩, ⟨2, 0⟩]]] ∧
      table' = [[[⟨2, 3⟩, ⟨1, 7⟩], [⟨8, 0⟩], [⟨2, 0⟩]], []] ∧
      Binary64.ExactlyAddable (segment.systems.map Rendition.confidence) ∧
      segment.NamesSame table table' ∧
      support .rising { segment with alignments := table } [true, true, true] 0 line = 6 ∧
      totalConfidence segment [2, 1] = totalConfidence segment [1, 2] ∧
      (∀ arrangement order settings,
        nbestIn arrangement order settings { segment with alignments := table } =
          nbestIn arrangement order settings { segment with alignments := table' }) ∧
      ∀ arrangement arrangement' order settings,
        nbestIn arrangement order settings { segment with alignments := table } =
          nbestIn arrangement' order settings { segment with alignments := table' } := by
  let line : Rendition := ⟨["a", "b"], [none, none], 1⟩
  let segment : Segment := ⟨0, [line, ⟨["a"], [none], 2⟩, ⟨["b"], [none], 4⟩], []⟩
  let table : AlignmentTable := [[[⟨1, 0⟩, ⟨1, 5⟩, ⟨9, 0⟩, ⟨2, 0⟩]]]
  let table' : AlignmentTable := [[[⟨2, 3⟩, ⟨1, 7⟩], [⟨8, 0⟩], [⟨2, 0⟩]], []]
  have exact : Binary64.ExactlyAddable (segment.systems.map Rendition.confidence) := by
    decide +kernel
  have same : segment.NamesSame table table' := by decide
  have ⟨gathered, reordered, _⟩ := support_of_any_table { segment with alignments := table }
  have ⟨alike, alike'⟩ := (support_of_any_table segment).2.2 table table' same
  refine ⟨segment, line, table, table', rfl, rfl, rfl, rfl, exact, same, ?_, ?_, alike,
    alike' exact⟩
  · rw [gathered]
    decide +kernel
  · exact reordered exact [true, true, true] ⟨0, 0⟩ [2, 1] (by decide)

/-- Sums that are rounded tell arrangements apart. -/
example :
    let confidences : List Binary64 :=
      [⟨0x3FB999999999999A⟩, ⟨0x3FC999999999999A⟩, ⟨0x3FD3333333333333⟩]
    let segment : Segment := ⟨0, confidences.map (⟨[], [], ·⟩), []⟩
    totalConfidence segment [0, 1, 2] ≠ totalConfidence segment [2, 1, 0] := by
  decide +kernel

end Decoder

end SystemCombination
