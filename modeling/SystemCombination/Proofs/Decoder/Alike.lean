import SystemCombination.Decoder.Basic
import SystemCombination.Proofs.Decoder.Best
import SystemCombination.Proofs.Decoder.Supporters

/-! What the decoder tells apart. Of a line it sees the tokens, how many of them are known, and
the confidence; of a cell of the alignments, which systems it names; and of the other lines, which
there are. `nbestIn_congr` says that segments which agree in this have the same hypotheses. -/

namespace SystemCombination

/-- What the decoder sees of a line: the tokens, how many are known, and the confidence. -/
def Rendition.seen (line : Rendition) : List String × Nat × Binary64 :=
  (line.tokens, line.numbers.countP Option.isSome, line.confidence)

/-- The lines of some systems, with the alignments of their tokens. -/
def Segment.aligned (settings : InputSettings) (index : Nat) (systems : List Rendition) :
    Segment :=
  { index, systems, alignments := Alignment.table settings (systems.map Rendition.tokens) }

namespace Decoder

/-! ### The other lines -/

section Others

variable {others others' : List (List String)} {line : List String}

theorem sharedRuns_congr (same : ∀ other, other ∈ others ↔ other ∈ others') (n : Nat) :
    sharedRuns others line n = sharedRuns others' line n := by
  unfold sharedRuns
  congr 1
  funext run
  rw [Bool.eq_iff_iff]
  simp only [List.any_eq_true, same]

theorem overlap_congr (same : ∀ other, other ∈ others ↔ other ∈ others') :
    overlap others line = overlap others' line := by
  refine List.countP_congr fun token _ => ?_
  simp only [Std.HashSet.contains_ofList, List.contains_iff_mem, List.mem_flatten, same]

theorem ngramMatchFrom_congr
    (shared : ∀ n, 0 < n → sharedRuns others line n = sharedRuns others' line n)
    (order : Nat) (base total : Binary64) (n orders : Nat) :
    ngramMatchFrom order base total (n + 1) (.ofLength others line n) orders =
      ngramMatchFrom order base total (n + 1) (.ofLength others' line n) orders := by
  induction orders generalizing total n with
  | zero => rfl
  | succ orders ih =>
    have count : (SharedRuns.ofLength others line n).longer.line.length = _ :=
      SharedRuns.length_ofLength others line (Nat.succ_pos n)
    have count' : (SharedRuns.ofLength others' line n).longer.line.length = _ :=
      SharedRuns.length_ofLength others' line (Nat.succ_pos n)
    simp only [ngramMatchFrom, count, count', shared (n + 1) (Nat.succ_pos n)]
    split
    · rfl
    · exact ih _ (n + 1)

theorem ngramMatch_congr (same : ∀ other, other ∈ others ↔ other ∈ others') (order : Nat)
    (base : Binary64) : ngramMatch order base others line = ngramMatch order base others' line :=
  congrArg Binary64.clamp
    (ngramMatchFrom_congr (fun n _ => sharedRuns_congr same n) order base 0 0 _)

end Others

/-! ### Features and hypotheses -/

theorem eligible_eq (horizon : Horizon) (systems : List Rendition) :
    eligible horizon systems = (systems.map Rendition.confidence).map fun confidence =>
      !horizon.gated || horizon.threshold *
        (Binary64.largest? (systems.map Rendition.confidence)).getD 0 ≤ confidence := by
  rw [List.map_map]
  rfl

theorem features_congr {arrangement arrangement' : Arrangement} {segment segment' : Segment}
    {able able' : List Bool} {system system' : Nat} {line line' : Rendition}
    (seen : line.seen = line'.seen)
    (supported : support arrangement segment able system line =
      support arrangement' segment' able' system' line')
    (others : ∀ other, other ∈ (segment.others system).map Rendition.tokens ↔
      other ∈ (segment'.others system').map Rendition.tokens)
    (order : Nat) (settings : DecoderSettings) :
    features arrangement order settings segment able system line =
      features arrangement' order settings segment' able' system' line' := by
  have tokens : line.tokens = line'.tokens := congrArg Prod.fst seen
  have known : line.numbers.countP Option.isSome = line'.numbers.countP Option.isSome :=
    congrArg (fun seen => seen.2.1) seen
  simp only [features, tokens, known, supported, ngramMatch_congr others, overlap_congr others]

/-- Segments that the decoder does not tell apart. -/
structure Alike (segment segment' : Segment) : Prop where
  seen : segment.systems.map Rendition.seen = segment'.systems.map Rendition.seen
  named : ∀ place system, system ∈ systemsOf (segment.alignments.at place) ↔
    system ∈ systemsOf (segment'.alignments.at place)

section Alike

variable {segment segment' : Segment}

theorem Alike.tokens (h : Alike segment segment') :
    segment.systems.map Rendition.tokens = segment'.systems.map Rendition.tokens := by
  have first := congrArg (List.map Prod.fst) h.seen
  rwa [List.map_map, List.map_map] at first

theorem Alike.confidences (h : Alike segment segment') :
    segment.systems.map Rendition.confidence = segment'.systems.map Rendition.confidence := by
  have last := congrArg (List.map fun seen => seen.2.2) h.seen
  rwa [List.map_map, List.map_map] at last

theorem map_tokens_others (segment : Segment) (system : Nat) :
    (segment.others system).map Rendition.tokens =
      ((segment.systems.map Rendition.tokens).zipIdx.filter fun (_, other) =>
        other ≠ system).map Prod.fst := by
  simp only [Segment.others, List.zipIdx_map, List.filter_map, List.map_map]
  rfl

theorem Alike.support_eq (h : Alike segment segment') (arrangement : Arrangement) {system : Nat}
    {line line' : Rendition} (seen : line.seen = line'.seen) (able : List Bool) :
    support arrangement segment able system line =
      support arrangement segment' able system line' :=
  support_congr h.confidences (congrArg (fun seen => seen.1.length) seen)
    (fun position _ other _ => h.named ⟨system, position⟩ other) arrangement able

theorem map_eq_map_of_seen {α β γ : Type} {seen : α → β} {f g : α → γ} {xs ys : List α}
    (same : xs.map seen = ys.map seen) (h : ∀ x y, seen x = seen y → f x = g y) :
    xs.map f = ys.map g := by
  induction xs generalizing ys with
  | nil => rw [List.map_eq_nil_iff.mp same.symm]; rfl
  | cons x xs ih =>
    obtain ⟨y, ys, rfl, first, later⟩ := List.map_eq_cons_iff.mp same.symm
    rw [List.map_cons, List.map_cons, h x y first.symm, ih later.symm]

theorem map_seen_beam (size : Nat) (systems : List Rendition) :
    (beam size systems).map (Prod.map Rendition.seen id) =
      ((systems.map Rendition.seen).zipIdx.mergeSort fun a b =>
        a.1.2.2.fallsTo b.1.2.2).take size := by
  rw [beam, List.map_take, List.zipIdx_map]
  congr 1
  exact List.map_mergeSort fun _ _ _ _ => rfl

def scored (arrangement : Arrangement) (order : Nat) (settings : DecoderSettings)
    (segment : Segment) (candidates : List (Rendition × Nat)) : List Hypothesis :=
  candidates.map fun candidate =>
    hypothesis arrangement order settings segment candidate.2 candidate.1

theorem nbestIn_eq (arrangement : Arrangement) (order : Nat) (settings : DecoderSettings)
    (segment : Segment) :
    nbestIn arrangement order settings segment =
      ((scored arrangement order settings segment
        (beam settings.beamSize segment.systems)).mergeSort Hypothesis.ranksBefore).take
          settings.nbestSize := rfl

theorem nbestIn_of_scored {arrangement arrangement' : Arrangement} {order : Nat}
    {settings : DecoderSettings}
    (same : scored arrangement order settings segment (beam settings.beamSize segment.systems) =
      scored arrangement' order settings segment' (beam settings.beamSize segment'.systems)) :
    nbestIn arrangement order settings segment = nbestIn arrangement' order settings segment' := by
  rw [nbestIn_eq, nbestIn_eq, same]

/-- Segments that are not told apart have the same hypotheses. -/
theorem nbestIn_congr (h : Alike segment segment') (arrangement : Arrangement) (order : Nat)
    (settings : DecoderSettings) :
    nbestIn arrangement order settings segment = nbestIn arrangement order settings segment' := by
  have able : eligible settings.horizon segment.systems =
      eligible settings.horizon segment'.systems := by
    rw [eligible_eq, eligible_eq, h.confidences]
  have candidates : (beam settings.beamSize segment.systems).map (Prod.map Rendition.seen id) =
      (beam settings.beamSize segment'.systems).map (Prod.map Rendition.seen id) := by
    rw [map_seen_beam, map_seen_beam, h.seen]
  apply nbestIn_of_scored
  refine map_eq_map_of_seen candidates ?_
  rintro ⟨line, system⟩ ⟨line', other⟩ same
  obtain ⟨seen, rfl⟩ : line.seen = line'.seen ∧ system = other := Prod.mk.inj same
  have others : ∀ other, other ∈ (segment.others system).map Rendition.tokens ↔
      other ∈ (segment'.others system).map Rendition.tokens := by
    intro other
    rw [map_tokens_others, map_tokens_others, h.tokens]
  have alike : features arrangement order settings segment
      (eligible settings.horizon segment.systems) system line =
        features arrangement order settings segment'
          (eligible settings.horizon segment'.systems) system line' := by
    rw [able]
    exact features_congr seen (h.support_eq arrangement seen _) others order settings
  have text : line.text = line'.text :=
    congrArg " ".intercalate (congrArg Prod.fst seen : line.tokens = line'.tokens)
  simp only [hypothesis, alike, text]

end Alike

end Decoder

end SystemCombination
