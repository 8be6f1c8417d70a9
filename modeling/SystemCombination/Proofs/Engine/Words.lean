import SystemCombination.Proofs.Engine.PickBest
import SystemCombination.Proofs.Vocabulary

/-! What a run takes from the model: its order, and which words it knows. The numbers of the words
enter the lines of a segment, and there only whether a word has one is ever looked at. -/

namespace SystemCombination

/-- Vocabularies with the same words, in whatever order they are numbered. -/
def Vocabulary.SameWords (vocabulary vocabulary' : Vocabulary) : Prop :=
  ∀ word, word ∈ vocabulary.words ↔ word ∈ vocabulary'.words

namespace Reader

variable {vocabulary vocabulary' : Vocabulary}

theorem seen_rendition (same : vocabulary.SameWords vocabulary') (line : String)
    (confidence : Binary64) :
    (rendition vocabulary line confidence).seen = (rendition vocabulary' line confidence).seen := by
  have known (word : String) :
      (vocabulary.index? word).isSome = (vocabulary'.index? word).isSome := by
    rw [Bool.eq_iff_iff, Vocabulary.isSome_index?_iff, Vocabulary.isSome_index?_iff, same]
  simp only [Rendition.seen, rendition, List.countP_map, Function.comp_def, known]

theorem alike_segmentOf_of_sameWords (same : vocabulary.SameWords vocabulary')
    (settings : InputSettings) (index : Nat) (run : List String) :
    Decoder.Alike (segmentOf settings vocabulary index run)
      (segmentOf settings vocabulary' index run) := by
  have seen : (segmentOf settings vocabulary index run).systems.map Rendition.seen =
      (segmentOf settings vocabulary' index run).systems.map Rendition.seen := by
    simp only [segmentOf, List.map_zipWith, seen_rendition same]
  -- The alignments are made from the words themselves, not from their numbers.
  have alignments : (segmentOf settings vocabulary index run).alignments =
      (segmentOf settings vocabulary' index run).alignments := by
    have tokens := congrArg (List.map Prod.fst) seen
    rw [List.map_map, List.map_map] at tokens
    exact congrArg (Alignment.table settings) tokens
  refine ⟨seen, ?_⟩
  intro place system
  rw [alignments]

end Reader

namespace Engine

open Pipeline

/-- Models of the same order that know the same words are decoded with alike: the segments have
the same hypotheses, and a run ends the same way and leaves the same files. -/
theorem run_of_sameWords {model model' : Model} (order : model.order = model'.order)
    (same : model.vocabulary.SameWords model'.vocabulary) (request : Request) :
    (∀ lines, List.Forall₂ (Corresponds (SameDecode model model' request request))
      (Reader.results request.input model.vocabulary request.matchedFile { lines })
      (Reader.results request.input model'.vocabulary request.matchedFile { lines })) ∧
    ∀ files, run model request files = run model' request files := by
  have decode (index : Nat) (run : List String) : SameDecode model model' request request
      (Reader.segmentOf request.input model.vocabulary index run)
      (Reader.segmentOf request.input model'.vocabulary index run) := by
    refine ⟨rfl, ?_⟩
    rw [nbestOf, nbestOf, order]
    exact Decoder.nbestIn_congr (Reader.alike_segmentOf_of_sameWords same _ index run) _ _ _
  have correspond := Reader.results_correspond rfl (fun index run _ => decode index run)
    request.matchedFile
  exact ⟨correspond, run_congr ⟨rfl, rfl, rfl⟩ correspond⟩

/-- A table of n-grams and a corpus that number the same two words differently. -/
theorem run_of_sameWords_of_two_backends :
    ∃ model model' : Model, model.backend ≠ model'.backend ∧
      model.vocabulary.index? "a" = some 1 ∧ model'.vocabulary.index? "a" = some 0 ∧
      model.order = model'.order ∧ model.vocabulary.SameWords model'.vocabulary ∧
      ∀ request files, run model request files = run model' request files := by
  let model : Model := ⟨2, .ngrams ⟨.ofList ["b", "a"], [2]⟩⟩
  let model' : Model := ⟨2, .corpus ⟨.ofList ["a", "b", "a"], 1, 3⟩⟩
  have words : model.vocabulary.words.toList = ["b", "a"] :=
    Vocabulary.toList_words_ofList ["b", "a"]
  have words' : model'.vocabulary.words.toList = ["a", "b"] :=
    Vocabulary.toList_words_ofList ["a", "b", "a"]
  have stands : model.vocabulary.words[1]? = some "a" := by
    rw [← Array.getElem?_toList, words]
    rfl
  have stands' : model'.vocabulary.words[0]? = some "a" := by
    rw [← Array.getElem?_toList, words']
    rfl
  have number : model.vocabulary.index? "a" = some 1 := Vocabulary.index?_of_word stands
  have number' : model'.vocabulary.index? "a" = some 0 := Vocabulary.index?_of_word stands'
  have same : model.vocabulary.SameWords model'.vocabulary := by
    intro word
    rw [← Array.mem_toList_iff, ← Array.mem_toList_iff, words, words']
    simp [or_comm]
  have order : model.order = model'.order := rfl
  refine ⟨model, model', by decide, number, number', order, same, fun request => ?_⟩
  exact (run_of_sameWords order same request).2

end Engine

end SystemCombination
