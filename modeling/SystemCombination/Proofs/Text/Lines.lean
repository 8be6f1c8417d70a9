import SystemCombination.Proofs.Text.Words
import SystemCombination.Text.Input

/-! Lines and their bytes. No line holds a line end, a character of ASCII is in a text when its
byte is in the encoding, and text written line by line is cut into the same lines again. -/

namespace SystemCombination.Text

section Lines

variable {α : Type} [BEq α] [LawfulBEq α]

theorem mem_splitOn {separator : α} {run xs : List α} (h : run ∈ xs.splitOn separator) :
    separator ∉ run ∧ run ⊆ xs := by
  rw [List.splitOn_eq_splitOnP] at h
  have ⟨fresh, inside⟩ := mem_splitOnP h
  exact ⟨fun member => by simpa using fresh separator member, inside⟩

omit [LawfulBEq α] in
theorem dropEnd_subset (cr : α) (line : List α) : dropEnd cr line ⊆ line := by
  unfold dropEnd
  split
  · split
    · exact List.dropLast_subset line
    · exact List.Subset.refl line
  · exact List.Subset.refl line

/-- A line has no line end in it. -/
theorem mem_lines {cr lf : α} {line xs : List α} (h : line ∈ lines cr lf xs) :
    lf ∉ line ∧ line ⊆ xs := by
  rcases List.mem_append.mp h with ended | last
  · obtain ⟨run, member, rfl⟩ := List.mem_map.mp ended
    have ⟨fresh, inside⟩ := mem_splitOn (List.dropLast_subset _ member)
    exact ⟨fun found => fresh (dropEnd_subset cr run found),
      List.Subset.trans (dropEnd_subset cr run) inside⟩
  · split at last
    · next run isLast =>
      split at last
      · cases last
      · rw [List.mem_singleton] at last
        subst last
        exact mem_splitOn (List.mem_of_getLast? isLast)
    · cases last

/-- What holds no line end is one line. -/
theorem lines_of_not_mem {lf : α} (cr : α) {line : List α} (fresh : lf ∉ line)
    (nonempty : line ≠ []) : lines cr lf line = [line] := by
  simp [lines, List.splitOn_eq_singleton fresh, nonempty]

/-- What follows a line end is cut on its own. -/
theorem lines_append_lineEnd (cr lf : α) (xs rest : List α) :
    lines cr lf (xs ++ lf :: rest) = lines cr lf (xs ++ [lf]) ++ lines cr lf rest := by
  have ne := List.splitOn_ne_nil lf rest
  have last := List.getLast?_eq_some_getLast ne
  simp [lines, List.splitOn_append_cons_self, List.dropLast_append_of_ne_nil ne, last]

end Lines

theorem newline_not_mem_of_mem_linesOfText {text : String} {line : List Char}
    (h : line ∈ linesOfText text) : '\n' ∉ line :=
  (mem_lines h).1

/-! ### Bytes -/

theorem encode_eq_flatMap (text : String) :
    encode text = text.toList.flatMap String.utf8EncodeChar := by
  rw [encode, ← String.utf8Encode_toList, List.utf8Encode, List.toList_data_toByteArray]

@[simp] theorem encode_append (left right : String) :
    encode (left ++ right) = encode left ++ encode right := by
  simp [encode_eq_flatMap]

theorem encode_newline : encode "\n" = [10] := rfl

/-- The byte of an ASCII character is a byte of no other character. -/
theorem mem_utf8EncodeChar_ascii {c d : Char} (ascii : c.toNat < 128) :
    UInt8.ofNat c.toNat ∈ String.utf8EncodeChar d ↔ d = c := by
  rw [← Char.toNat_inj, String.utf8EncodeChar, show d.val.toNat = d.toNat from rfl]
  -- The bytes of a longer encoding are all from 128 on.
  split
  · simp only [List.mem_singleton, ← UInt8.toNat_inj, UInt8.toNat_ofNat']
    omega
  · split
    · simp only [List.mem_cons, List.not_mem_nil, or_false, ← UInt8.toNat_inj, UInt8.toNat_ofNat']
      omega
    · split <;>
        simp only [List.mem_cons, List.not_mem_nil, or_false, ← UInt8.toNat_inj,
          UInt8.toNat_ofNat'] <;>
        omega

theorem mem_encode_ascii {c : Char} (ascii : c.toNat < 128) {text : String} :
    UInt8.ofNat c.toNat ∈ encode text ↔ c ∈ text.toList := by
  simp only [encode_eq_flatMap, List.mem_flatMap, mem_utf8EncodeChar_ascii ascii,
    exists_eq_right]

theorem newline_mem_encode {text : String} : 10 ∈ encode text ↔ '\n' ∈ text.toList :=
  mem_encode_ascii (c := '\n') (by decide)

/-- Cutting the bytes of a text at the line feeds cuts the text at its own. -/
theorem splitOn_encode (cs : List Char) :
    (encode (String.ofList cs)).splitOn 10 =
      (cs.splitOn '\n').map fun line => encode (String.ofList line) := by
  have cut (line : List Char) (fresh : '\n' ∉ line) : 10 ∉ encode (String.ofList line) := by
    rw [newline_mem_encode, String.toList_ofList]
    exact fresh
  induction count : cs.length using Nat.strongRecOn generalizing cs with
  | ind n ih =>
  by_cases broken : '\n' ∈ cs
  · obtain ⟨line, rest, rfl, fresh⟩ := List.eq_append_cons_of_mem broken
    have later := ih rest.length (by rw [← count]; simp; omega) rest rfl
    have bytes : encode (String.ofList (line ++ '\n' :: rest)) =
        encode (String.ofList line) ++ 10 :: encode (String.ofList rest) := by
      rw [← List.singleton_append, String.ofList_append, String.ofList_append, encode_append,
        encode_append]
      rfl
    rw [bytes, List.splitOn_append_cons_self_of_not_mem (cut line fresh), later,
      List.splitOn_append_cons_self_of_not_mem fresh, List.map_cons]
  · rw [List.splitOn_eq_singleton broken, List.splitOn_eq_singleton (cut cs broken)]
    rfl

theorem dropEnd_concat {α : Type} [BEq α] (cr : α) (line : List α) (x : α) :
    dropEnd cr (line ++ [x]) = if x == cr then line else line ++ [x] := by
  rw [dropEnd, List.getLast?_concat, List.dropLast_concat]

theorem encode_concat (line : List Char) (c : Char) :
    encode (String.ofList (line ++ [c])) =
      encode (String.ofList line) ++ String.utf8EncodeChar c := by
  simp [encode_eq_flatMap]

theorem dropEnd_encode (line : List Char) :
    dropEnd 13 (encode (String.ofList line)) = encode (String.ofList (dropEnd '\r' line)) := by
  rcases List.eq_nil_or_concat line with rfl | ⟨line, c, rfl⟩
  · rfl
  · rw [List.concat_eq_append, dropEnd_concat, encode_concat]
    by_cases ends : c = '\r'
    · subst ends
      rw [show String.utf8EncodeChar '\r' = [13] from rfl, dropEnd_concat]
      rfl
    · obtain ⟨bytes, byte, last⟩ :=
        (List.eq_nil_or_concat (String.utf8EncodeChar c)).resolve_left (by simp)
      rw [List.concat_eq_append] at last
      have other : byte ≠ 13 := by
        rintro rfl
        have inside : UInt8.ofNat '\r'.toNat ∈ String.utf8EncodeChar c := by
          rw [last]
          exact List.mem_concat_self
        exact ends ((mem_utf8EncodeChar_ascii (by decide)).mp inside)
      rw [last, ← List.append_assoc, dropEnd_concat]
      rw [if_neg (by simpa using other), if_neg (by simpa using ends), encode_concat, last,
        List.append_assoc]

/-- The lines of the bytes of a text are those of the text. -/
theorem linesOfBytes_encode (text : String) :
    linesOfBytes (encode text) =
      (linesOfText text).map fun line => Except.ok (String.ofList line) := by
  have read (line : List Char) :
      Line.ofBytes (encode (String.ofList line)) = Except.ok (String.ofList line) := by
    rw [Line.ofBytes, decode?_encode]
  have cut := splitOn_encode text.toList
  rw [String.ofList_toList] at cut
  have ne := List.splitOn_ne_nil '\n' text.toList
  have last := List.getLast?_eq_some_getLast ne
  rw [linesOfBytes, linesOfText, lines, lines, cut]
  simp only [List.map_append, List.map_map, ← List.map_dropLast, List.getLast?_map, last,
    Option.map_some]
  congr 1
  · refine List.map_congr_left fun line _ => ?_
    rw [Function.comp_apply, Function.comp_apply, dropEnd_encode, read, Function.comp_apply]
  · cases (text.toList.splitOn '\n').getLast ne with
    | nil => rfl
    | cons c line =>
      have some : (encode (String.ofList (c :: line))).isEmpty = false := by
        simp [encode_eq_flatMap]
      simp only [some, List.isEmpty_cons, Bool.false_eq_true, if_false, List.map_cons,
        List.map_nil, read]

/-- Texts written as lines, each ended by a line feed. -/
def encodeLines (texts : List String) : List UInt8 :=
  texts.flatMap fun text => encode (text ++ "\n")

/-- Cutting written lines at the line feeds gives the texts back, and nothing after the last. -/
theorem splitOn_encodeLines {texts : List String} (h : ∀ text ∈ texts, '\n' ∉ text.toList) :
    (encodeLines texts).splitOn 10 = texts.map encode ++ [[]] := by
  induction texts with
  | nil => rfl
  | cons text texts ih =>
    have fresh : 10 ∉ encode text := fun found =>
      h text List.mem_cons_self (newline_mem_encode.mp found)
    have rest := ih fun other member => h other (List.mem_cons_of_mem text member)
    rw [encodeLines, List.flatMap_cons, encode_append, encode_newline, List.append_assoc,
      List.singleton_append, List.splitOn_append_cons_self_of_not_mem fresh, ← encodeLines, rest]
    rfl

end SystemCombination.Text
