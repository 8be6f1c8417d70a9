import Mathlib.Data.List.Chain
import SystemCombination.Text.Blank
import SystemCombination.Text.Input

/-! Lines cut into paragraphs. A blank line is a gap; a line that cannot be read breaks off the
lines since the last gap or bad line; every other run of lines that are not blank is a paragraph.
`IsCut` says what a cut is without saying how it is found, and `isCut_iff` that `cut` finds it and
that there is no other. -/

namespace SystemCombination

inductive Piece
  | gap (line : String)
  | paragraph (run : List String)
  | broken (run : List String) (error : IoError)
deriving DecidableEq

namespace Piece

def lines : Piece → List Text.Line
  | gap line => [.ok line]
  | paragraph run => run.map .ok
  | broken run error => run.map .ok ++ [.error error]

def Formed : Piece → Prop
  | gap line => Text.AllBlank line.toList
  | paragraph run => run ≠ [] ∧ ∀ line ∈ run, ¬Text.AllBlank line.toList
  | broken run _ => ∀ line ∈ run, ¬Text.AllBlank line.toList

def IsGap : Piece → Prop
  | gap _ => True
  | _ => False

/-- What comes after a paragraph is a gap. -/
def Apart : Piece → Piece → Prop
  | paragraph _, next => next.IsGap
  | _, _ => True

/-- A line that is not blank put in front of the pieces of the lines after it. -/
def attach (line : String) : List Piece → List Piece
  | paragraph run :: pieces => paragraph (line :: run) :: pieces
  | broken run error :: pieces => broken (line :: run) error :: pieces
  | pieces => paragraph [line] :: pieces

/-- The pieces of the lines. -/
def cut : List Text.Line → List Piece
  | [] => []
  | .error error :: lines => broken [] error :: cut lines
  | .ok line :: lines =>
    if Text.AllBlank line.toList then gap line :: cut lines else attach line (cut lines)

end Piece

open Piece

/-- The pieces hold every line once and in order, and no paragraph could be longer. -/
structure IsCut (lines : List Text.Line) (pieces : List Piece) : Prop where
  whole : pieces.flatMap Piece.lines = lines
  formed : ∀ piece ∈ pieces, piece.Formed
  apart : pieces.IsChain Apart

namespace IsCut

variable {line : String} {error : IoError} {lines : List Text.Line} {piece : Piece}
  {pieces : List Piece}

theorem nil : IsCut [] [] := ⟨rfl, by simp, .nil⟩

theorem cons (piece : Piece) (formed : piece.Formed)
    (apart : ∀ next ∈ pieces.head?, Apart piece next) (h : IsCut lines pieces) :
    IsCut (piece.lines ++ lines) (piece :: pieces) where
  whole := by rw [List.flatMap_cons, h.whole]
  formed := by
    intro other member
    rcases List.mem_cons.mp member with rfl | later
    · exact formed
    · exact h.formed other later
  apart := List.isChain_cons.mpr ⟨apart, h.apart⟩

/-- What stands behind the first piece is cut as well. -/
theorem tail (h : IsCut lines (piece :: pieces)) :
    ∃ rest, lines = piece.lines ++ rest ∧ IsCut rest pieces := by
  refine ⟨pieces.flatMap Piece.lines, ?_, rfl, ?_, ?_⟩
  · rw [← h.whole, List.flatMap_cons]
  · intro other member
    exact h.formed other (List.mem_cons_of_mem piece member)
  · exact (List.isChain_cons.mp h.apart).2

theorem head (h : IsCut lines (piece :: pieces)) :
    piece.Formed ∧ ∀ next ∈ pieces.head?, Apart piece next :=
  ⟨h.formed piece List.mem_cons_self, (List.isChain_cons.mp h.apart).1⟩

theorem attach (content : ¬Text.AllBlank line.toList) (h : IsCut lines pieces) :
    IsCut (.ok line :: lines) (attach line pieces) := by
  match pieces with
  | [] => exact h.cons (paragraph [line]) (by simp [Formed, content]) (by simp)
  | .gap blank :: pieces =>
    exact h.cons (paragraph [line]) (by simp [Formed, content]) (by simp [Apart, IsGap])
  | .paragraph run :: pieces =>
    obtain ⟨rest, rfl, inner⟩ := h.tail
    have ⟨⟨_, contents⟩, apart⟩ := h.head
    refine inner.cons (paragraph (line :: run)) ⟨by simp, ?_⟩ apart
    exact List.forall_mem_cons.mpr ⟨content, contents⟩
  | .broken run error :: pieces =>
    obtain ⟨rest, rfl, inner⟩ := h.tail
    have ⟨contents, _⟩ := h.head
    refine inner.cons (broken (line :: run) error) ?_ (by simp [Apart])
    exact List.forall_mem_cons.mpr ⟨content, contents⟩

/-- Behind a paragraph the lines end, or a blank line ends it. -/
theorem ends {run : List String} (h : IsCut lines pieces)
    (apart : ∀ next ∈ pieces.head?, Apart (paragraph run) next) :
    lines = [] ∨ ∃ blank rest, lines = .ok blank :: rest ∧ Text.AllBlank blank.toList := by
  match pieces with
  | [] => exact .inl h.whole.symm
  | .gap blank :: pieces =>
    obtain ⟨rest, rfl, _⟩ := h.tail
    exact .inr ⟨blank, rest, rfl, h.head.1⟩
  | .paragraph _ :: _ => exact (apart _ rfl).elim
  | .broken _ _ :: _ => exact (apart _ rfl).elim

end IsCut

theorem isCut_cut (lines : List Text.Line) : IsCut lines (cut lines) := by
  induction lines with
  | nil => exact .nil
  | cons line lines ih =>
    rcases line with error | line
    · exact ih.cons (broken [] error) (by simp [Formed]) (by simp [Apart])
    · rw [cut]
      split
      · next blank => exact ih.cons (gap line) blank (by simp [Apart])
      · next content => exact ih.attach content

/-! ### No other cut -/

theorem cut_paragraph {run : List String} {lines : List Text.Line} (formed : (paragraph run).Formed)
    (apart : ∀ next ∈ (cut lines).head?, Apart (paragraph run) next) :
    cut ((paragraph run).lines ++ lines) = paragraph run :: cut lines := by
  obtain ⟨nonempty, contents⟩ := formed
  induction run with
  | nil => exact absurd rfl nonempty
  | cons line run ih =>
    have ⟨content, contents⟩ := List.forall_mem_cons.mp contents
    show cut (.ok line :: ((paragraph run).lines ++ lines)) = _
    rw [cut, if_neg content]
    by_cases last : run = []
    · subst last
      show attach line (cut lines) = _
      match cut lines, apart with
      | [], _ => rfl
      | .gap _ :: _, _ => rfl
      | .paragraph _ :: _, apart => exact (apart _ rfl).elim
      | .broken _ _ :: _, apart => exact (apart _ rfl).elim
    · rw [ih apart last contents]
      rfl

theorem cut_broken {run : List String} {error : IoError} {lines : List Text.Line}
    (formed : (broken run error).Formed) :
    cut ((broken run error).lines ++ lines) = broken run error :: cut lines := by
  induction run with
  | nil => rfl
  | cons line run ih =>
    have ⟨content, contents⟩ := List.forall_mem_cons.mp formed
    show cut (.ok line :: ((broken run error).lines ++ lines)) = _
    rw [cut, if_neg content, ih contents]
    rfl

theorem IsCut.eq_cut {lines : List Text.Line} {pieces : List Piece} (h : IsCut lines pieces) :
    pieces = cut lines := by
  induction pieces generalizing lines with
  | nil => rw [← h.whole]; rfl
  | cons piece pieces ih =>
    obtain ⟨rest, rfl, inner⟩ := h.tail
    have ⟨formed, apart⟩ := h.head
    have same := ih inner
    cases piece with
    | gap line => rw [same]; exact (if_pos formed).symm
    | paragraph run => rw [same] at apart ⊢; exact (cut_paragraph formed apart).symm
    | broken run error => rw [same]; exact (cut_broken formed).symm

theorem isCut_iff {lines : List Text.Line} {pieces : List Piece} :
    IsCut lines pieces ↔ pieces = cut lines :=
  ⟨IsCut.eq_cut, fun h => h ▸ isCut_cut lines⟩

end SystemCombination
