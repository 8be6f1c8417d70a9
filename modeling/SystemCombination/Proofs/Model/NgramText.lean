import SystemCombination.Proofs.Model.NgramLine
import SystemCombination.Proofs.Vocabulary

/-! The text of a table of n-grams. Every line is judged by the last header before it, which
`StandsIn` finds; `Says` relates lines that are all in order to the counts and the words in them,
and `Offends` says what is wrong with the first line that is not. `verdict_iff` says that reading a
text gives the one verdict that there is on its lines. -/

namespace SystemCombination.Model.NgramTable

open Text

/-- The part that a line stands in when the lines `before` stand before it: what the last header
opens, once the counts have been opened. -/
inductive StandsIn : List (List Char) → Part → Prop
  | preamble {before : List (List Char)} (fresh : dataHeader ∉ before) : StandsIn before .preamble
  | opened {earlier later : List (List Char)} {header : List Char} {part : Part}
      (opens : Opens header part) (started : dataHeader ∈ earlier ++ [header])
      (plain : ∀ line ∈ later, line.head? ≠ some '\\') :
      StandsIn (earlier ++ header :: later) part

/-- Lines that are in order, the counts that they declare, and the words of their n-grams of
order 1. -/
inductive Says : List (List Char) → List Nat → List (List Char) → Prop
  | nil : Says [] [] []
  /-- Up to the header of the counts, a line may hold anything. -/
  | free {before counts words} {line : List Char} (said : Says before counts words)
      (fresh : dataHeader ∉ before) : Says (before ++ [line]) counts words
  | header {before counts words} {line : List Char} {part : Part}
      (said : Says before counts words) (started : dataHeader ∈ before) (other : line ≠ dataHeader)
      (opens : Opens line part) : Says (before ++ [line]) counts words
  | count {before counts words} {line : List Char} {count : Nat} (said : Says before counts words)
      (part : StandsIn before .counts) (plain : line.head? ≠ some '\\')
      (declares : Declares line count) : Says (before ++ [line]) (counts ++ [count]) words
  | unigram {before counts words} {line word : List Char} {more : List (List Char)}
      (said : Says before counts words) (part : StandsIn before (.grams 1))
      (plain : line.head? ≠ some '\\') (entry : Entry 1 line (word :: more)) :
      Says (before ++ [line]) counts (words ++ [word])
  | ngram {before counts words} {line : List Char} {order : Nat} {gram : List (List Char)}
      (said : Says before counts words) (part : StandsIn before (.grams order)) (long : order ≠ 1)
      (plain : line.head? ≠ some '\\') (entry : Entry order line gram) :
      Says (before ++ [line]) counts words
  /-- Behind the end, a line that is no header may hold anything. -/
  | remark {before counts words} {line : List Char} (said : Says before counts words)
      (part : StandsIn before .closing) (plain : line.head? ≠ some '\\') :
      Says (before ++ [line]) counts words

/-- What is wrong with a line behind the lines `before`. -/
inductive Offends (before : List (List Char)) (line : List Char) : Defect → Prop
  | header (started : dataHeader ∈ before) (backslash : line.head? = some '\\')
      (unknown : line = dataHeader ∨ ∀ part, ¬ Opens line part) :
      Offends before line (.misplacedHeader (String.ofList line))
  | count (part : StandsIn before .counts) (plain : line.head? ≠ some '\\')
      (unread : ∀ count, ¬ Declares line count) : Offends before line .countLine
  | entry {order : Nat} (part : StandsIn before (.grams order)) (plain : line.head? ≠ some '\\')
      (unread : ∀ words, ¬ Entry order line words) : Offends before line (.entryLine order)

/-- The trimmed lines that are not blank. -/
def contents (texts : List String) : List (List Char) :=
  (texts.map fun text => trim text.toList).filter (· ≠ [])

/-- What comes of a text: its table, or what is wrong with the first line that is not in order or,
where they all are, with the text. -/
inductive Verdict (lines : List Text.Line) : Except Fault NgramTable → Prop
  | accepted {texts : List String} {counts words} (readable : lines = texts.map .ok)
      (said : Says (contents texts) counts words) (started : dataHeader ∈ contents texts)
      (declared : counts ≠ []) (known : words ≠ []) :
      Verdict lines (.ok ⟨.ofList (words.map String.ofList), counts⟩)
  | unreadable {before : List String} {error : IoError} {after : List Text.Line} {counts words}
      (place : lines = before.map .ok ++ .error error :: after)
      (said : Says (contents before) counts words) : Verdict lines (.error (.unreadable error))
  | malformed {before : List String} {text : String} {after : List Text.Line}
      {content : List Char} {defect : Defect} {counts words}
      (place : lines = before.map .ok ++ .ok text :: after)
      (said : Says (contents before) counts words) (trims : Trims text.toList content)
      (nonempty : content ≠ []) (offends : Offends (contents before) content defect) :
      Verdict lines (.error (.malformed (before.length + 1) defect))
  | noDataHeader {texts : List String} {counts words} (readable : lines = texts.map .ok)
      (said : Says (contents texts) counts words) (missing : dataHeader ∉ contents texts) :
      Verdict lines (.error (.malformed 0 .noDataHeader))
  | noCounts {texts : List String} {words} (readable : lines = texts.map .ok)
      (said : Says (contents texts) [] words) (started : dataHeader ∈ contents texts) :
      Verdict lines (.error (.malformed 0 .noCounts))
  | empty {texts : List String} {counts} (readable : lines = texts.map .ok)
      (said : Says (contents texts) counts []) (started : dataHeader ∈ contents texts)
      (declared : counts ≠ []) : Verdict lines (.error .empty)

/-! ### The part that is open -/

section StandsIn

variable {before : List (List Char)} {line : List Char} {part part' : Part}

theorem StandsIn.started (h : StandsIn before part) (open' : part ≠ .preamble) :
    dataHeader ∈ before := by
  cases h with
  | preamble => exact absurd rfl open'
  | @opened earlier later header _ _ started =>
    have inside : earlier ++ [header] ⊆ earlier ++ header :: later := by simp
    exact inside started

theorem StandsIn.fresh (h : StandsIn before .preamble) : dataHeader ∉ before := by
  cases h with
  | preamble fresh => exact fresh
  | opened opens => cases opens

theorem StandsIn.unique (h : StandsIn before part) (h' : StandsIn before part') :
    part = part' := by
  by_cases fresh : dataHeader ∈ before
  · cases h with
    | preamble absent => exact absurd fresh absent
    | opened opens _ plain =>
      generalize same : _ ++ _ :: _ = before at h'
      cases h' with
      | preamble absent => exact absurd (same ▸ fresh) absent
      | opened opens' _ plain' =>
        have ⟨_, header, _⟩ := cut_last_unique (p := fun line => line.head? = some '\\') same
          opens.head? opens'.head? plain plain'
        exact opens.unique (header ▸ opens')
  · have only {part : Part} (h : StandsIn before part) : part = .preamble := by
      by_contra open'
      exact fresh (h.started open')
    rw [only h, only h']

theorem StandsIn.concat (h : StandsIn before part) (plain : line.head? ≠ some '\\') :
    StandsIn (before ++ [line]) part := by
  cases h with
  | preamble fresh =>
    refine .preamble fun member => ?_
    rcases List.mem_append.mp member with old | new
    · exact fresh old
    · rw [← List.mem_singleton.mp new] at plain
      exact plain rfl
  | @opened earlier later header _ opens started none =>
    rw [List.append_assoc, List.cons_append]
    refine .opened opens started fun other member => ?_
    rcases List.mem_append.mp member with old | new
    · exact none other old
    · rwa [List.mem_singleton.mp new]

theorem StandsIn.header (opens : Opens line part) (started : dataHeader ∈ before ++ [line]) :
    StandsIn (before ++ [line]) part :=
  .opened opens started (by simp)

end StandsIn

/-! ### Reading what is in order -/

/-- The progress after lines that declare the counts and hold the words. -/
structure Tracks (before : List (List Char)) (counts : List Nat) (words : List (List Char))
    (progress : Progress) : Prop where
  part : StandsIn before progress.part
  counts : progress.counts = counts.reverse
  vocabulary : progress.vocabulary = .ofList (words.map String.ofList)

theorem tracks_nil : Tracks [] [] [] {} := ⟨.preamble (by simp), rfl, rfl⟩

section Step

variable {before : List (List Char)} {counts : List Nat} {words : List (List Char)}
  {progress : Progress} {line : List Char}

theorem step_header (progress : Progress) {part : Part} (backslash : line.head? = some '\\')
    (opened : opened? progress.part line = some part) :
    progress.step line = .ok { progress with part } := by
  rw [Progress.step, if_pos backslash, opened]

theorem step_misplaced (progress : Progress) (backslash : line.head? = some '\\')
    (unopened : opened? progress.part line = none) :
    progress.step line = .error (.misplacedHeader (String.ofList line)) := by
  rw [Progress.step, if_pos backslash, unopened]

theorem Tracks.part_ne (h : Tracks before counts words progress) (started : dataHeader ∈ before) :
    progress.part ≠ .preamble := by
  intro preamble
  exact (preamble ▸ h.part).fresh started

theorem Tracks.step_free (h : Tracks before counts words progress)
    (fresh : dataHeader ∉ before) :
    ∃ next, progress.step line = .ok next ∧ Tracks (before ++ [line]) counts words next := by
  have part : progress.part = .preamble := h.part.unique (.preamble fresh)
  by_cases data : line = dataHeader
  · subst data
    have opened : opened? progress.part dataHeader = some .counts := by
      rw [opened?_dataHeader, if_pos part]
    exact ⟨_, step_header progress rfl opened, .header .data (by simp), h.counts, h.vocabulary⟩
  · have still : StandsIn (before ++ [line]) .preamble := .preamble (by simp [fresh, Ne.symm data])
    by_cases backslash : line.head? = some '\\'
    · have opened : opened? progress.part line = some .preamble := by
        rw [part, opened?_of_preamble data]
      exact ⟨_, step_header progress backslash opened, still, h.counts, h.vocabulary⟩
    · have stays : progress.step line = .ok progress := by
        rw [Progress.step, if_neg backslash, part]
      exact ⟨progress, stays, part ▸ still, h.counts, h.vocabulary⟩

theorem Tracks.step_header (h : Tracks before counts words progress)
    (started : dataHeader ∈ before) {part : Part} (other : line ≠ dataHeader)
    (opens : Opens line part) :
    ∃ next, progress.step line = .ok next ∧ Tracks (before ++ [line]) counts words next := by
  have opened := (opened?_eq_some_iff (h.part_ne started) other).mpr opens
  exact ⟨_, NgramTable.step_header progress opens.head? opened,
    .header opens (List.mem_append_left _ started), h.counts, h.vocabulary⟩

theorem Tracks.step_count (h : Tracks before counts words progress)
    (part : StandsIn before .counts) (plain : line.head? ≠ some '\\') {count : Nat}
    (declares : Declares line count) :
    ∃ next, progress.step line = .ok next ∧
      Tracks (before ++ [line]) (counts ++ [count]) words next := by
  have reads : progress.step line =
      .ok { progress with counts := count :: progress.counts } := by
    rw [Progress.step, if_neg plain, h.part.unique part]
    simp only [count?_eq_some_iff.mpr declares]
  exact ⟨_, reads, h.part.concat plain, by simp [h.counts], h.vocabulary⟩

theorem Tracks.step_unigram (h : Tracks before counts words progress)
    (part : StandsIn before (.grams 1)) (plain : line.head? ≠ some '\\') {word : List Char}
    {more : List (List Char)} (entry : Entry 1 line (word :: more)) :
    ∃ next, progress.step line = .ok next ∧
      Tracks (before ++ [line]) counts (words ++ [word]) next := by
  have reads : progress.step line = .ok { progress with
      vocabulary := progress.vocabulary.insertAll [String.ofList word] } := by
    rw [Progress.step, if_neg plain, h.part.unique part]
    simp only [read_of_entry entry, if_true]
    rfl
  refine ⟨_, reads, h.part.concat plain, h.counts, ?_⟩
  rw [h.vocabulary, List.map_append, List.map_singleton, Vocabulary.ofList_append]
  rfl

theorem Tracks.step_ngram (h : Tracks before counts words progress) {order : Nat}
    (part : StandsIn before (.grams order)) (long : order ≠ 1) (plain : line.head? ≠ some '\\')
    {gram : List (List Char)} (entry : Entry order line gram) :
    ∃ next, progress.step line = .ok next ∧ Tracks (before ++ [line]) counts words next := by
  have stays : progress.step line = .ok progress := by
    rw [Progress.step, if_neg plain, h.part.unique part]
    simp only [read_of_entry entry, if_neg long]
  exact ⟨progress, stays, h.part.concat plain, h.counts, h.vocabulary⟩

theorem Tracks.step_remark (h : Tracks before counts words progress)
    (part : StandsIn before .closing) (plain : line.head? ≠ some '\\') :
    ∃ next, progress.step line = .ok next ∧ Tracks (before ++ [line]) counts words next := by
  have stays : progress.step line = .ok progress := by
    rw [Progress.step, if_neg plain, h.part.unique part]
  exact ⟨progress, stays, h.part.concat plain, h.counts, h.vocabulary⟩

theorem Tracks.step_offends (h : Tracks before counts words progress) {defect : Defect}
    (offends : Offends before line defect) : progress.step line = .error defect := by
  cases offends with
  | header started backslash unknown =>
    have part := h.part_ne started
    refine step_misplaced progress backslash ?_
    by_cases data : line = dataHeader
    · rw [data, opened?_dataHeader, if_neg part]
    · rw [Option.eq_none_iff_forall_ne_some]
      intro next opened
      exact unknown.resolve_left data next ((opened?_eq_some_iff part data).mp opened)
  | count part plain unread =>
    have none : count? line = none := by
      rw [Option.eq_none_iff_forall_ne_some]
      intro count reads
      exact unread count (count?_eq_some_iff.mp reads)
    rw [Progress.step, if_neg plain, h.part.unique part]
    simp only [none]
  | entry part plain unread =>
    rw [Progress.step, if_neg plain, h.part.unique part]
    simp only [unread_of_no_entry unread]

end Step

theorem tracks_concat {before : List (List Char)} {line : List Char} {counts counts' words words'}
    (read : ∃ progress, before.foldlM Progress.step {} = .ok progress ∧
      Tracks before counts words progress)
    (step : ∀ {progress : Progress}, Tracks before counts words progress →
      ∃ next, progress.step line = .ok next ∧ Tracks (before ++ [line]) counts' words' next) :
    ∃ progress, (before ++ [line]).foldlM Progress.step {} = .ok progress ∧
      Tracks (before ++ [line]) counts' words' progress := by
  obtain ⟨progress, run, tracks⟩ := read
  obtain ⟨next, one, tracks⟩ := step tracks
  refine ⟨next, ?_, tracks⟩
  rw [List.foldlM_append, run]
  show List.foldlM Progress.step progress [line] = _
  rw [List.foldlM_cons, one]
  rfl

/-- Lines that are in order are read to their end. -/
theorem Says.tracks {lines : List (List Char)} {counts words} (h : Says lines counts words) :
    ∃ progress, lines.foldlM Progress.step {} = .ok progress ∧
      Tracks lines counts words progress := by
  induction h with
  | nil => exact ⟨{}, rfl, tracks_nil⟩
  | free _ fresh ih => exact tracks_concat ih fun tracks => tracks.step_free fresh
  | header _ started other opens ih =>
    exact tracks_concat ih fun tracks => tracks.step_header started other opens
  | count _ part plain declares ih =>
    exact tracks_concat ih fun tracks => tracks.step_count part plain declares
  | unigram _ part plain entry ih =>
    exact tracks_concat ih fun tracks => tracks.step_unigram part plain entry
  | ngram _ part long plain entry ih =>
    exact tracks_concat ih fun tracks => tracks.step_ngram part long plain entry
  | remark _ part plain ih => exact tracks_concat ih fun tracks => tracks.step_remark part plain

/-- Whatever comes after lines that are in order is in order itself or offends. -/
theorem Says.concat_or_offends {before : List (List Char)} {counts words}
    (h : Says before counts words) (line : List Char) :
    (∃ counts words, Says (before ++ [line]) counts words) ∨
      ∃ defect, Offends before line defect := by
  obtain ⟨⟨part, vocabulary, read⟩, _, tracks⟩ := h.tracks
  by_cases started : dataHeader ∈ before
  · by_cases backslash : line.head? = some '\\'
    · by_cases data : line = dataHeader
      · exact .inr ⟨_, .header started backslash (.inl data)⟩
      · by_cases known : ∃ part, Opens line part
        · obtain ⟨part, opens⟩ := known
          exact .inl ⟨counts, words, .header h started data opens⟩
        · exact .inr ⟨_, .header started backslash (.inr (not_exists.mp known))⟩
    · cases part with
      | preamble => exact absurd rfl (tracks.part_ne started)
      | counts =>
        by_cases declares : ∃ count, Declares line count
        · obtain ⟨count, declares⟩ := declares
          exact .inl ⟨counts ++ [count], words, .count h tracks.part backslash declares⟩
        · exact .inr ⟨_, .count tracks.part backslash (not_exists.mp declares)⟩
      | grams order =>
        by_cases entry : ∃ words, Entry order line words
        · obtain ⟨gram, entry⟩ := entry
          by_cases one : order = 1
          · subst one
            have ⟨_, _, _, long⟩ := entry
            obtain ⟨word, more, rfl⟩ := List.exists_cons_of_length_pos long
            exact .inl ⟨counts, words ++ [word], .unigram h tracks.part backslash entry⟩
          · exact .inl ⟨counts, words, .ngram h tracks.part one backslash entry⟩
        · exact .inr ⟨_, .entry tracks.part backslash (not_exists.mp entry)⟩
      | closing => exact .inl ⟨counts, words, .remark h tracks.part backslash⟩
  · exact .inl ⟨counts, words, .free h started⟩

/-! ### Whole texts -/

theorem contents_append (texts texts' : List String) :
    contents (texts ++ texts') = contents texts ++ contents texts' := by
  rw [contents, List.map_append, List.filter_append]
  rfl

theorem contents_blank {text : String} (blank : trim text.toList = []) : contents [text] = [] := by
  simp [contents, blank]

theorem contents_singleton {text : String} (nonempty : trim text.toList ≠ []) :
    contents [text] = [trim text.toList] := by
  simp [contents, nonempty]

theorem foldlM_cons_iff {progress next : Progress} {line : List Char} {lines : List (List Char)} :
    (line :: lines).foldlM Progress.step progress = .ok next ↔
      ∃ between, progress.step line = .ok between ∧
        lines.foldlM Progress.step between = .ok next := by
  rw [List.foldlM_cons]
  cases progress.step line with
  | error defect => exact iff_of_false (fun h => nomatch h) fun ⟨_, h, _⟩ => nomatch h
  | ok between => exact ⟨fun h => ⟨between, rfl, h⟩, fun ⟨_, same, h⟩ => Except.ok.inj same ▸ h⟩

theorem foldlM_append_iff {progress next : Progress} {lines more : List (List Char)} :
    (lines ++ more).foldlM Progress.step progress = .ok next ↔
      ∃ between, lines.foldlM Progress.step progress = .ok between ∧
        more.foldlM Progress.step between = .ok next := by
  rw [List.foldlM_append]
  cases lines.foldlM Progress.step progress with
  | error defect => exact iff_of_false (fun h => nomatch h) fun ⟨_, h, _⟩ => nomatch h
  | ok between => exact ⟨fun h => ⟨between, rfl, h⟩, fun ⟨_, same, h⟩ => Except.ok.inj same ▸ h⟩

theorem readFrom_texts (texts : List String) (rest : List Text.Line) {progress next : Progress}
    (number : Nat) (run : (contents texts).foldlM Progress.step progress = .ok next) :
    progress.readFrom number (texts.map .ok ++ rest) =
      next.readFrom (number + texts.length) rest := by
  induction texts generalizing progress number with
  | nil =>
    obtain rfl := Except.ok.inj run
    rfl
  | cons text texts ih =>
    rw [List.map_cons, List.cons_append, Progress.readFrom, List.length_cons,
      Nat.add_comm texts.length, ← Nat.add_assoc]
    rw [← List.singleton_append, contents_append] at run
    by_cases blank : trim text.toList = []
    · rw [contents_blank blank] at run
      simp only [blank, List.isEmpty_nil, if_true]
      exact ih (number + 1) run
    · rw [contents_singleton blank, List.singleton_append, foldlM_cons_iff] at run
      obtain ⟨between, step, run⟩ := run
      simp only [List.isEmpty_iff, blank, if_false, step]
      exact ih (number + 1) run

theorem Says.readFrom {texts : List String} {counts words} (h : Says (contents texts) counts words)
    (rest : List Text.Line) :
    ∃ progress, Tracks (contents texts) counts words progress ∧
      Progress.readFrom {} 1 (texts.map .ok ++ rest) =
        progress.readFrom (texts.length + 1) rest := by
  obtain ⟨progress, run, tracks⟩ := h.tracks
  refine ⟨progress, tracks, ?_⟩
  rw [readFrom_texts texts rest 1 run, Nat.add_comm]

theorem Tracks.finish {before : List (List Char)} {counts words} {progress : Progress}
    (h : Tracks before counts words progress) :
    progress.finish =
      if dataHeader ∉ before then .error (.malformed 0 .noDataHeader)
      else if counts = [] then .error (.malformed 0 .noCounts)
      else if words = [] then .error .empty
      else .ok ⟨.ofList (words.map String.ofList), counts⟩ := by
  have part : progress.part = .preamble ↔ dataHeader ∉ before := by
    constructor
    · intro preamble
      exact (preamble ▸ h.part).fresh
    · intro fresh
      exact h.part.unique (.preamble fresh)
  simp only [Progress.finish, part, h.counts, h.vocabulary, Vocabulary.isEmpty_ofList,
    List.isEmpty_reverse, List.isEmpty_iff, List.map_eq_nil_iff, List.reverse_reverse]

theorem Says.ofLines {texts : List String} {counts words} (h : Says (contents texts) counts words) :
    ofLines (texts.map .ok) =
      if dataHeader ∉ contents texts then .error (.malformed 0 .noDataHeader)
      else if counts = [] then .error (.malformed 0 .noCounts)
      else if words = [] then .error .empty
      else .ok ⟨.ofList (words.map String.ofList), counts⟩ := by
  obtain ⟨progress, tracks, read⟩ := h.readFrom []
  rw [List.append_nil] at read
  rw [NgramTable.ofLines, read, ← tracks.finish]
  rfl

theorem ofLines_of_verdict {lines : List Text.Line} {result : Except Fault NgramTable}
    (h : Verdict lines result) : ofLines lines = result := by
  cases h with
  | accepted readable said started declared known =>
    rw [readable, said.ofLines, if_neg (not_not.mpr started), if_neg declared, if_neg known]
  | @unreadable before error after _ _ place said =>
    obtain ⟨progress, _, read⟩ := said.readFrom (.error error :: after)
    rw [place, ofLines, read]
    rfl
  | @malformed before text after content _ _ _ place said trims nonempty offends =>
    obtain ⟨progress, tracks, read⟩ := said.readFrom (.ok text :: after)
    have content' : trim text.toList = content := trim_eq_iff.mpr trims
    have refused := tracks.step_offends offends
    rw [place, ofLines, read, Progress.readFrom]
    simp only [content', List.isEmpty_iff, nonempty, if_false, refused]
    rfl
  | noDataHeader readable said missing => rw [readable, said.ofLines, if_pos missing]
  | noCounts readable said started =>
    rw [readable, said.ofLines, if_neg (not_not.mpr started), if_pos rfl]
  | empty readable said started declared =>
    rw [readable, said.ofLines, if_neg (not_not.mpr started), if_neg declared, if_pos rfl]

theorem exists_verdict (rest : List Text.Line) {before : List String} {counts words}
    (h : Says (contents before) counts words) :
    ∃ result, Verdict (before.map .ok ++ rest) result := by
  -- The lines so far are in order; the first that is not settles the verdict.
  induction rest generalizing before counts words with
  | nil =>
    rw [List.append_nil]
    by_cases started : dataHeader ∈ contents before
    · by_cases declared : counts = []
      · subst declared
        exact ⟨_, .noCounts rfl h started⟩
      · by_cases known : words = []
        · subst known
          exact ⟨_, .empty rfl h started declared⟩
        · exact ⟨_, .accepted rfl h started declared known⟩
    · exact ⟨_, .noDataHeader rfl h started⟩
  | cons line rest ih =>
    cases line with
    | error error => exact ⟨_, .unreadable rfl h⟩
    | ok text =>
      have next : before.map Except.ok ++ Except.ok text :: rest =
          (before ++ [text]).map Except.ok ++ rest := by
        simp
      by_cases blank : trim text.toList = []
      · have said : Says (contents (before ++ [text])) counts words := by
          rwa [contents_append, contents_blank blank, List.append_nil]
        rw [next]
        exact ih said
      · rcases h.concat_or_offends (trim text.toList) with ⟨counts, words, said⟩ | ⟨_, offends⟩
        · have said : Says (contents (before ++ [text])) counts words := by
            rwa [contents_append, contents_singleton blank]
          rw [next]
          exact ih said
        · exact ⟨_, .malformed rfl h (trims_trim _) blank offends⟩

theorem verdict_iff {lines : List Text.Line} {result : Except Fault NgramTable} :
    ofLines lines = result ↔ Verdict lines result := by
  constructor
  · intro read
    have start : Says (contents []) [] [] := .nil
    obtain ⟨result', verdict⟩ : ∃ result', Verdict lines result' := exists_verdict lines start
    rwa [← read, ofLines_of_verdict verdict]
  · exact ofLines_of_verdict

/-- Reading bytes as a table of n-grams gives the verdict of the grammar on their lines. A table
that is accepted has a count for each line that declares one, and numbers the words of its n-grams
of order 1 from 0 in the order in which they first come. -/
theorem ofLines_linesOfBytes (bytes : List UInt8) :
    let lines := linesOfBytes bytes
    (∀ result, ofLines lines = result ↔ Verdict lines result) ∧
    ∀ table, ofLines lines = .ok table → ∃ texts counts words,
      lines = texts.map .ok ∧ Says (contents texts) counts words ∧
      table.declared = counts ∧ table.declaredOrder = counts.length ∧
      table.vocabulary.words.toList = (words.map String.ofList).eraseDups ∧
      table.vocabulary.Numbers (words.map String.ofList) := by
  intro lines
  refine ⟨fun result => verdict_iff, fun table read => ?_⟩
  generalize result : Except.ok table = accepted at read
  cases verdict_iff.mp read with
  | @accepted texts counts words readable said =>
    obtain rfl := Except.ok.inj result
    exact ⟨texts, counts, words, readable, said, rfl, rfl, Vocabulary.toList_words_ofList _,
      Vocabulary.numbers_ofList _⟩
  | _ => cases result

theorem ofLines_of_read {lines : List Text.Line} (part : Part) (words : List String)
    (counts : List Nat) (read : Progress.readFrom {} 1 lines = .ok ⟨part, .ofList words, counts⟩)
    (open' : part ≠ .preamble) (declared : counts ≠ []) (known : words ≠ []) :
    ofLines lines = .ok ⟨.ofList words, counts.reverse⟩ := by
  rw [ofLines, read]
  show Progress.finish _ = _
  simp [Progress.finish, Vocabulary.isEmpty_ofList, open', declared, known]

/-- A table of two orders, in which the first word comes again and a pair has a word of its own. -/
def repeatedWord : String :=
  "preface\n\\data\\\nngram 1=3\nngram 2=1\n\n\\1-grams:\n-1 the\n-2 cat -1\n-3 the\n" ++
    "\n\\2-grams:\n-1 the dog\n\n\\end\\\n"

/-- The words are numbered in order, and the word of the pair is not known. -/
theorem ofLines_linesOfBytes_of_repeatedWord :
    ∃ table, ofLines (linesOfBytes (encode repeatedWord)) = .ok table ∧
      table.declaredOrder = 2 ∧ table.vocabulary.index? "the" = some 0 ∧
      table.vocabulary.index? "cat" = some 1 ∧ table.vocabulary.index? "dog" = none := by
  have loads : ofLines (linesOfBytes (encode repeatedWord)) =
      .ok ⟨.ofList ["the", "cat", "the"], [3, 1]⟩ :=
    ofLines_of_read .closing ["the", "cat", "the"] [1, 3] rfl (by simp) (by simp) (by simp)
  obtain ⟨_, _, words, -, -, -, -, order, numbers⟩ :=
    (ofLines_linesOfBytes (encode repeatedWord)).2 _ loads
  rw [Vocabulary.toList_words_ofList] at order
  have unknown : "dog" ∉ words.map String.ofList := by
    rw [← List.mem_eraseDups, ← order]
    decide
  refine ⟨_, loads, rfl, numbers.number 0 (by decide) "the" ?_,
    numbers.number 1 (by decide) "cat" ?_, ?_⟩
  · rw [← order]
    decide
  · rw [← order]
    decide
  · have absent := mt (numbers.known "dog").mp unknown
    rwa [Bool.not_eq_true, Option.isSome_eq_false_iff, Option.isNone_iff_eq_none] at absent

end SystemCombination.Model.NgramTable
