import SystemCombination.Proofs.Decoder.Alike
import SystemCombination.Proofs.Engine.Agreement

/-! What it changes to keep only the nearest match in each line. A token is then aligned with fewer
tokens, never with others. As long as no third system mediates, every cell still names the same
systems, and a run does the same whether or not only the nearest matches are kept. -/

namespace SystemCombination

/-- The request with the choice of the nearest match made as given. -/
def Request.pickingBest (request : Request) (pickBest : Bool) : Request :=
  { request with input := { request.input with pickBest } }

/-- Segments that differ only in their alignments, of which the first has fewer. -/
structure Segment.Thins (segment segment' : Segment) : Prop where
  index : segment.index = segment'.index
  systems : segment.systems = segment'.systems
  fewer : ∀ place, segment.alignments.at place ⊆ segment'.alignments.at place

namespace Reader

variable {settings : InputSettings} {vocabulary : Vocabulary}

theorem thins_segmentOf (index : Nat) (run : List String) :
    (segmentOf { settings with pickBest := true } vocabulary index run).Thins
      (segmentOf { settings with pickBest := false } vocabulary index run) where
  index := rfl
  systems := rfl
  fewer _ _ member := Alignment.mem_at_table_of_nearest member

/-- Where no third system mediates, a match is named by its system whether or not it is the
nearest. -/
theorem alike_segmentOf (direct : settings.transitive = false) (index : Nat)
    (run : List String) :
    Decoder.Alike (segmentOf { settings with pickBest := true } vocabulary index run)
      (segmentOf { settings with pickBest := false } vocabulary index run) where
  seen := rfl
  named place system := by
    simp only [segmentOf, Alignment.mem_systems_table, direct, Bool.false_eq_true, false_and,
      or_false]

end Reader

namespace Engine

open Pipeline

/-- Keeping only the nearest matches leaves out alignments and nothing else; unless a third system
may mediate, the hypotheses, the outputs and how the run ends stay the same. -/
theorem run_pickingBest (model : Model) (request : Request) :
    let nearest := request.pickingBest true
    let every := request.pickingBest false
    (∀ lines, List.Forall₂ (Corresponds Segment.Thins)
      (Reader.results nearest.input model.vocabulary nearest.matchedFile { lines })
      (Reader.results every.input model.vocabulary every.matchedFile { lines })) ∧
    (request.input.transitive = false →
      (∀ lines, List.Forall₂ (Corresponds (SameDecode model model nearest every))
        (Reader.results nearest.input model.vocabulary nearest.matchedFile { lines })
        (Reader.results every.input model.vocabulary every.matchedFile { lines })) ∧
      (∀ (σ : Type) (oneBest oracle : Stream σ) (lines : List Text.Line),
        Pipeline.run model nearest oneBest oracle lines =
          Pipeline.run model every oneBest oracle lines) ∧
      ∀ files, run model nearest files = run model every files) := by
  intro nearest every
  have paths : SamePaths nearest every := ⟨rfl, rfl, rfl⟩
  have confidences : nearest.input.confidences = every.input.confidences := rfl
  have thins (index : Nat) (run : List String) :
      (Reader.segmentOf nearest.input model.vocabulary index run).Thins
        (Reader.segmentOf every.input model.vocabulary index run) :=
    Reader.thins_segmentOf index run
  refine ⟨Reader.results_correspond confidences (fun index run _ => thins index run) _,
    fun direct => ?_⟩
  have same (index : Nat) (run : List String) : SameDecode model model nearest every
      (Reader.segmentOf nearest.input model.vocabulary index run)
      (Reader.segmentOf every.input model.vocabulary index run) :=
    ⟨rfl, Decoder.nbestIn_congr (Reader.alike_segmentOf direct index run) _ _ _⟩
  have correspond := Reader.results_correspond confidences (fun index run _ => same index run)
    request.matchedFile
  exact ⟨correspond, fun _ oneBest oracle lines => Pipeline.run_congr paths (correspond lines)
    oneBest oracle, Engine.run_congr paths correspond⟩

/-- Two lines of which the second has two matches in the first: one is kept or both, and the run
is the same. -/
theorem run_pickingBest_of_two_matches :
    ∃ (model : Model) (body : List UInt8) (request : Request) (lines : List (List String)),
      Request.parse body = .ok request ∧ request.input.transitive = false ∧
      (Alignment.table (request.pickingBest true).input lines).at ⟨1, 1⟩ = [⟨0, 0⟩] ∧
      (Alignment.table (request.pickingBest false).input lines).at ⟨1, 1⟩ = [⟨0, 0⟩, ⟨0, 2⟩] ∧
      ∀ files, run model (request.pickingBest true) files =
        run model (request.pickingBest false) files := by
  let body := Text.encode <| "score.lm=1\nscore.alignment=1\nscore.ngram=1\nscore.overlap=1\n" ++
    "output.one_best=best\ninput.matched_file=matched\ninput.confidence=1 0.5\n"
  let lines := [["a", "b", "a"], ["x", "a"]]
  have shape : (Request.parse body).toOption.map (fun request =>
      (request.input.transitive,
        (Alignment.table (request.pickingBest true).input lines).at ⟨1, 1⟩,
        (Alignment.table (request.pickingBest false).input lines).at ⟨1, 1⟩)) =
      some (false, [⟨0, 0⟩], [⟨0, 0⟩, ⟨0, 2⟩]) := by
    decide +kernel
  cases accepted : Request.parse body with
  | error error =>
    rw [accepted] at shape
    cases shape
  | ok request =>
    rw [accepted] at shape
    obtain ⟨direct, nearest, every⟩ := by simpa [Except.toOption] using shape
    exact ⟨⟨3, .corpus ⟨.empty, 0, 0⟩⟩, body, request, lines, accepted, direct, nearest, every,
      ((run_pickingBest _ request).2 direct).2.2⟩

end Engine

end SystemCombination
