import Std.Data.HashMap

/-! Vocabularies: the words that a model knows, numbered in the order in which they were first
inserted. Looking a word up and looking a number up are inverse to each other, which `places_iff`
keeps for every vocabulary. -/

namespace SystemCombination

/-- The number of a word. Numbers have 32 bits; words past the last number share it. -/
abbrev WordNumber := Nat

/-- Words without repetition, and the place of each. -/
structure Vocabulary where
  words : Array String
  places : Std.HashMap String Nat
  places_iff : ∀ (word : String) (place : Nat),
    places[word]? = some place ↔ words[place]? = some word

namespace Vocabulary

def empty : Vocabulary := ⟨#[], ∅, by simp⟩

instance : Inhabited Vocabulary := ⟨empty⟩

def size (v : Vocabulary) : Nat := v.words.size

def isEmpty (v : Vocabulary) : Bool := v.words.isEmpty

def largestNumber : WordNumber := UInt32.size - 1

/-- The number of the word at a place. -/
def numberAt (place : Nat) : WordNumber := min place largestNumber

def index? (v : Vocabulary) (word : String) : Option WordNumber := v.places[word]?.map numberAt

def word? (v : Vocabulary) (number : WordNumber) : Option String := v.words[number]?

/-- A word that has no place is nowhere among the words. -/
theorem word_ne_of_no_place {v : Vocabulary} {word : String} (h : v.places[word]? = none)
    (place : Nat) : v.words[place]? ≠ some word := by
  intro found
  rw [← v.places_iff, h] at found
  cases found

/-- The vocabulary with one more word, which is not known yet. -/
def push (v : Vocabulary) (word : String) (h : v.places[word]? = none) : Vocabulary :=
  let next := v.size
  { words := v.words.push word
    places := v.places.insert word next
    places_iff := by
      intro other place
      rw [Std.HashMap.getElem?_insert, Array.getElem?_push]
      by_cases same : word = other
      · subst same
        have absent := word_ne_of_no_place h place
        by_cases last : place = v.words.size
        · simp [next, size, last]
        · simp [next, size, last, absent, Ne.symm last]
      · by_cases last : place = v.words.size
        · have nowhere : v.words[place]? = none := by simp [last]
          have := v.places_iff other place
          simp_all
        · simp [same, last, v.places_iff] }

/-- Insert a word that may be known already, and give its number. -/
def insert (v : Vocabulary) (word : String) : WordNumber × Vocabulary :=
  match h : v.places[word]? with
  | some place => (numberAt place, v)
  | none => (numberAt v.size, v.push word h)

def insertAll (v : Vocabulary) (words : List String) : Vocabulary :=
  words.foldl (fun v word => (v.insert word).2) v

def ofList (words : List String) : Vocabulary := empty.insertAll words

theorem insert_of_known {v : Vocabulary} {word : String} {place : Nat}
    (h : v.places[word]? = some place) : v.insert word = (numberAt place, v) := by
  unfold insert
  split
  · next h' => rw [h] at h'; cases h'; rfl
  · next h' => rw [h] at h'; cases h'

theorem insert_of_unknown {v : Vocabulary} {word : String} (h : v.places[word]? = none) :
    v.insert word = (numberAt v.size, v.push word h) := by
  unfold insert
  split
  · next h' => rw [h] at h'; cases h'
  · rfl

end Vocabulary

end SystemCombination
