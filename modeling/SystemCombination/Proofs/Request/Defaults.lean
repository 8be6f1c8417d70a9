import SystemCombination.Proofs.Request.Supplied

/-! Defaults. A block is read on where it was left off when lines are appended to it, so a default
can be written out behind any block that does not supply its key: the request, or why it is
rejected, stays the same. -/

namespace SystemCombination.Request

open Text

/-! ### Appended lines -/

/-- `start` is the text up to where a new line begins: the text itself where its last line is ended,
or the text with a line end behind it. -/
inductive Closes (text : List Char) : (start : List Char) → Prop
  | ended (last : ∀ c ∈ text.getLast?, c = '\n') : Closes text text
  | newline : Closes text (text ++ ['\n'])
  | carriageReturn : Closes text (text ++ ['\r', '\n'])

/-- `whole` is the text with lines appended, none of which continues a line of the text. -/
def Appends (text : String) (lines : List (List Char)) (whole : String) : Prop :=
  ∃ start added, Closes text.toList start ∧ Ended lines added ∧ whole.toList = start ++ added

/-- What the lines of a text say. -/
def statementsOf (text : List Char) : List Statement :=
  (Text.lines '\r' '\n' text).map Statement.ofLine

theorem statementsOf_append {line : List Char} (fresh : '\n' ∉ line) (rest : List Char) :
    statementsOf (line ++ '\n' :: rest) = Statement.ofLine line :: statementsOf rest := by
  rw [statementsOf, lines_append _ _ fresh, List.map_cons, ofLine_dropEnd, statementsOf]

theorem Closes.rest {line rest start : List Char} (h : Closes (line ++ '\n' :: rest) start) :
    ∃ start', Closes rest start' ∧ start = line ++ '\n' :: start' := by
  cases h with
  | ended last =>
    refine ⟨rest, .ended fun c isLast => last c ?_, rfl⟩
    rw [List.getLast?_append, List.getLast?_cons, Option.mem_def.mp isLast]
    rfl
  | newline => exact ⟨_, .newline, by simp⟩
  | carriageReturn => exact ⟨_, .carriageReturn, by simp⟩

/-- The last line of a text says the same whether or not it is ended. Where it is ended already, one
more end makes an empty line. -/
theorem statementsOf_closes {text start : List Char} (closes : Closes text start)
    (added : List Char) :
    ∃ gap : List (List Char), (∀ line ∈ gap, line = []) ∧
      statementsOf (start ++ added) =
        statementsOf text ++ gap.map Statement.ofLine ++ statementsOf added := by
  induction size : text.length using Nat.strong_induction_on generalizing text start with
  | _ size ih =>
  by_cases several : '\n' ∈ text
  · obtain ⟨line, rest, rfl, fresh⟩ := List.eq_append_cons_of_mem several
    obtain ⟨start', closes', rfl⟩ := closes.rest
    obtain ⟨gap, empty, same⟩ := ih rest.length (by simp at size; omega) closes' rfl
    refine ⟨gap, empty, ?_⟩
    rw [statementsOf_append fresh, List.append_assoc, List.cons_append, statementsOf_append fresh,
      same]
    rfl
  · -- The end of the line is left: nothing, or a line end that may have a carriage return.
    have closed {line : List Char} (fresh : '\n' ∉ line)
        (reads : Statement.ofLine line = Statement.ofLine text) :
        ∃ gap : List (List Char), (∀ line ∈ gap, line = []) ∧
          statementsOf (line ++ '\n' :: added) =
            statementsOf text ++ gap.map Statement.ofLine ++ statementsOf added := by
      rw [statementsOf_append fresh, reads]
      by_cases nothing : text = []
      · have none_said : statementsOf [] = [] := by rw [statementsOf, lines_nil]; rfl
        refine ⟨[[]], by simp, ?_⟩
        rw [nothing, none_said]
        rfl
      · refine ⟨[], by simp, ?_⟩
        have single : statementsOf text = [Statement.ofLine text] := by
          rw [statementsOf, lines_of_not_mem _ several nothing]
          rfl
        rw [single]
        rfl
    cases closes with
    | ended last =>
      obtain rfl : text = [] := by
        rcases List.eq_nil_or_concat text with nothing | ⟨before, c, rfl⟩
        · exact nothing
        · have isNewline := last c (by simp)
          simp [isNewline] at several
      exact ⟨[], by simp, by simp [statementsOf]⟩
    | newline =>
      obtain ⟨gap, empty, same⟩ := closed several rfl
      exact ⟨gap, empty, by rw [List.append_assoc]; exact same⟩
    | carriageReturn =>
      have dropped : dropEnd '\r' (text ++ ['\r']) = text := by simp [dropEnd]
      have reads : Statement.ofLine (text ++ ['\r']) = Statement.ofLine text := by
        rw [← ofLine_dropEnd, dropped]
      obtain ⟨gap, empty, same⟩ := closed (by simp [several]) reads
      exact ⟨gap, empty, by simpa using same⟩

/-- Reading stops at an error, or is resumed with the lines that follow. -/
theorem assignmentsFrom_append (lines : List (List Char)) (found : List Assignment)
    (opened : String) (number : Nat) :
    (∃ error, ∀ more, assignmentsFrom found opened number (lines ++ more) = .error error) ∨
      ∃ found' opened', ∀ more, assignmentsFrom found opened number (lines ++ more) =
        assignmentsFrom found' opened' (number + lines.length) more := by
  induction lines generalizing found opened number with
  | nil => exact .inr ⟨found, opened, fun more => rfl⟩
  | cons line lines ih =>
    have next : number + (lines.length + 1) = number + 1 + lines.length := by omega
    simp only [List.cons_append, assignmentsFrom, List.length_cons, next]
    cases Statement.ofLine line with
    | blank => exact ih found opened (number + 1)
    | header title => exact ih found (qualifier title) (number + 1)
    | assignment name value => exact ih _ opened (number + 1)
    | malformed content => exact .inl ⟨_, fun more => rfl⟩

theorem assignmentsFrom_empty {gap : List (List Char)} (empty : ∀ line ∈ gap, line = [])
    (found : List Assignment) (opened : String) (number : Nat) (more : List (List Char)) :
    assignmentsFrom found opened number (gap ++ more) =
      assignmentsFrom found opened (number + gap.length) more := by
  induction gap generalizing number with
  | nil => rfl
  | cons line gap ih =>
    obtain ⟨rfl, later⟩ := List.forall_mem_cons.mp empty
    have blank : Statement.ofLine [] = .blank := by decide
    rw [List.cons_append, assignmentsFrom, blank, List.length_cons, Nat.add_comm gap.length,
      ← Nat.add_assoc]
    exact ih later (number + 1)

/-- A text with lines appended fails as the text does, or its assignments come first. -/
theorem assignments_appends {text whole : String} {lines : List (List Char)}
    (appends : Appends text lines whole) (inLine : ∀ line ∈ lines, '\n' ∉ line) :
    (∃ error, assignments text = .error error ∧ assignments whole = .error error) ∨
      ∃ as opened number, assignments text = .ok as ∧
        assignments whole = assignmentsFrom as.reverse opened number lines := by
  obtain ⟨start, added, closes, ended, isWhole⟩ := appends
  obtain ⟨gap, empty, same⟩ := statementsOf_closes closes added
  have said : (linesOfText whole).map Statement.ofLine =
      (linesOfText text ++ (gap ++ lines)).map Statement.ofLine := by
    rw [linesOfText, isWhole, ← statementsOf, same, statementsOf, statementsOf,
      statements_ended ended inLine, List.map_append, List.map_append, List.append_assoc,
      linesOfText]
  have read : assignments whole =
      assignmentsFrom [] "" 1 (linesOfText text ++ (gap ++ lines)) :=
    assignmentsFrom_congr said [] "" 1
  have alone : assignments text = assignmentsFrom [] "" 1 (linesOfText text ++ []) := by
    rw [List.append_nil, assignments]
  rw [read, alone]
  rcases assignmentsFrom_append (linesOfText text) [] "" 1 with
    ⟨error, failed⟩ | ⟨found, opened, resumed⟩
  · exact .inl ⟨error, failed [], failed _⟩
  · refine .inr ⟨found.reverse, opened, 1 + (linesOfText text).length + gap.length, resumed [], ?_⟩
    rw [resumed, assignmentsFrom_empty empty, List.reverse_reverse]

/-! ### Written defaults -/

/-- The lines that give a key a value in any section. -/
def linesFor (key : Key) (raw : String) : List (List Char) :=
  ["[]".toList, (key.name ++ " = " ++ raw).toList]

theorem ofLine_default {key : Key} {raw : String} (optional : key.default? = some raw) :
    Statement.ofLine (key.name ++ " = " ++ raw).toList =
        .assignment key.name.toList raw.toList ∧
      '\n' ∉ (key.name ++ " = " ++ raw).toList := by
  have all : ∀ key ∈ Key.all, (key.default?.all fun raw =>
      Statement.ofLine (key.name ++ " = " ++ raw).toList =
          .assignment key.name.toList raw.toList ∧
        '\n' ∉ (key.name ++ " = " ++ raw).toList) = true := by
    decide +kernel
  simpa [optional] using all key key.mem_all

theorem assignmentsFrom_linesFor {key : Key} {raw : String} (optional : key.default? = some raw)
    (found : List Assignment) (opened : String) (number : Nat) :
    assignmentsFrom found opened number (linesFor key raw) =
      .ok (found.reverse ++ [⟨key.name, raw, number + 1⟩]) := by
  have header : Statement.ofLine "[]".toList = .header [] := by decide
  simp only [linesFor, assignmentsFrom, header, (ofLine_default optional).1]
  simp [qualifier]

section Writing

variable {as : List Assignment} {key : Key} {raw : String} (optional : key.default? = some raw)
  (absent : ∀ value, ¬ Gives as key value) (number : Nat)

include absent in
theorem count_eq_zero : count as key = 0 := by
  refine List.countP_eq_zero.mpr fun a member named => absent a.value ⟨a, member, ?_, rfl⟩
  simpa using named

theorem name_injective {key key' : Key} (same : key.name = key'.name) : key = key' := by
  have all : ∀ key ∈ Key.all, ∀ key' ∈ Key.all, key.name = key'.name → key = key' := by
    decide +kernel
  exact all key key.mem_all key' key'.mem_all same

include optional absent

/-- Assignments that leave a key out are taken like those that give it its default. -/
theorem ofAssignments_append_default :
    ofAssignments (as ++ [⟨key.name, raw, number⟩]) = ofAssignments as := by
  have none_given : valuesOf as key = [] := by
    rw [← List.length_eq_zero_iff, length_valuesOf, count_eq_zero absent]
  have written (other : Key) : valuesOf (as ++ [⟨key.name, raw, number⟩]) other =
      if other = key then [raw] else valuesOf as other := by
    by_cases same : other = key
    · rw [if_pos same, same, valuesOf, List.filter_append, List.map_append, ← valuesOf, none_given]
      simp
    · have differs : key.name ≠ other.name := fun named => same (name_injective named).symm
      simp [valuesOf, same, differs]
  refine ofAssignments_congr ?_ (checkCounts_congr fun other => ?_) fun _ => funext fun other => ?_
  · have known : (Key.ofName? key.name).isNone = false := by
      have all : ∀ key ∈ Key.all, (Key.ofName? key.name).isNone = false := by decide +kernel
      exact all key key.mem_all
    simp [checkNames, known]
  · by_cases same : other = key
    · subst same
      right
      simp [RightCount, optional, ← length_valuesOf, written, none_given]
    · left
      rw [← length_valuesOf, written, if_neg same, length_valuesOf]
  · by_cases same : other = key
    · subst same
      simp [rawOf, written, none_given, optional]
    · rw [rawOf, written, if_neg same, rawOf]

end Writing

/-! ### Texts -/

/-- The text is a block that gives the key a value. -/
def Supplies (text : String) (key : Key) (value : String) : Prop :=
  ∃ as, assignments text = .ok as ∧ Gives as key value

/-- The request holds the value for the key. The radius has a place in both halves. -/
structure Carries (request : Request) (key : Key) (value : key.kind.Value) : Prop where
  setting : request.setting key = value
  radius : key = .horizonRadius → request.input.radius = request.decoder.horizon.radius

/-- A default applies exactly where its key is absent. Writing it behind a text that does not supply
the key changes nothing, whether the text is accepted or not; and what an accepted text supplies is
what the request carries. -/
theorem parseText_default {key : Key} {raw : String} (optional : key.default? = some raw)
    (text : String) :
    ((∀ value, ¬ Supplies text key value) →
      ∀ whole, Appends text (linesFor key raw) whole → parseText whole = parseText text) ∧
    ∀ request, parseText text = .ok request →
      (∀ value, Supplies text key value →
        ∃ converted, key.kind.read? value = some converted ∧ request.Carries key converted) ∧
      ((∀ value, ¬ Supplies text key value) →
        ∃ converted, key.kind.read? raw = some converted ∧ request.Carries key converted) := by
  constructor
  · intro absent whole appends
    have inLine : ∀ line ∈ linesFor key raw, '\n' ∉ line := by
      simp only [linesFor, List.forall_mem_cons]
      exact ⟨by decide, (ofLine_default optional).2, List.forall_mem_nil _⟩
    rcases assignments_appends appends inLine with
      ⟨error, failed, failed'⟩ | ⟨as, opened, number, listed, resumed⟩
    · rw [parseText, parseText, failed, failed']
    · rw [assignmentsFrom_linesFor optional, List.reverse_reverse] at resumed
      rw [parseText, parseText, listed, resumed]
      exact ofAssignments_append_default optional
        (fun value gives => absent value ⟨as, listed, gives⟩) _
  · intro request accepted
    cases listed : assignments text with
    | error error =>
      rw [parseText, listed] at accepted
      cases accepted
    | ok as =>
      have judged := judged_ofAssignments as
      have taken : ofAssignments as = .ok request := by
        rw [parseText, listed] at accepted
        exact accepted
      rw [taken] at judged
      cases judged with
      | accepted names counts follows =>
        have carries : request.Carries key (request.setting key) :=
          ⟨rfl, fun _ => follows.radius⟩
        constructor
        · rintro value ⟨as', listed', gives⟩
          obtain rfl := Except.ok.inj (listed.symm.trans listed')
          exact ⟨_, follows.given key value gives, carries⟩
        · intro absent
          exact ⟨_, follows.absent key raw (fun value gives => absent value ⟨as, listed, gives⟩)
            optional, carries⟩

/-- A block that leaves one key out and supplies another in its last section, whose last line has no
end. -/
theorem parseText_default_of_open_section :
    let text := "score.lm=1\nscore.alignment=1\nscore.ngram=1\nscore.overlap=1\n" ++
      "input.matched_file=m\ninput.confidence=1 0.5\n[output]\none_best=f\nnbest = 3"
    let whole := text ++ "\n[]\nbeam_size = 500"
    Key.beamSize.default? = some "500" ∧ (∀ value, ¬ Supplies text .beamSize value) ∧
      Appends text (linesFor .beamSize "500") whole ∧ parseText whole = parseText text ∧
      Key.nbestSize.default? = some "1" ∧ Supplies text .nbestSize "3" ∧
      ∃ request, parseText text = .ok request ∧ request.decoder.nbestSize = 3 := by
  intro text whole
  let as : List Assignment := [⟨"score.lm", "1", 1⟩, ⟨"score.alignment", "1", 2⟩,
    ⟨"score.ngram", "1", 3⟩, ⟨"score.overlap", "1", 4⟩, ⟨"input.matched_file", "m", 5⟩,
    ⟨"input.confidence", "1 0.5", 6⟩, ⟨"output.one_best", "f", 8⟩, ⟨"output.nbest", "3", 9⟩]
  have listed : assignments text = .ok as := by decide +kernel
  have absent : ∀ value, ¬ Supplies text .beamSize value := by
    rintro value ⟨as', listed', gives⟩
    obtain rfl := Except.ok.inj (listed.symm.trans listed')
    have none_given : valuesOf as .beamSize = [] := by decide +kernel
    simpa [none_given] using gives_iff.mp gives
  have appends : Appends text (linesFor .beamSize "500") whole := by
    refine ⟨_, _, .newline, .newline (.last (by decide)), ?_⟩
    rw [String.toList_append, List.append_assoc]
    exact congrArg (text.toList ++ ·) (by decide)
  have supplied : Supplies text .nbestSize "3" :=
    ⟨as, listed, ⟨"output.nbest", "3", 9⟩, by simp [as], rfl, rfl⟩
  have read : parseText text = ofAssignments as := by rw [parseText, listed]; rfl
  have accepts : (ofAssignments as).toOption.isSome = true := by decide +kernel
  rw [← read] at accepts
  cases accepted : parseText text with
  | error error =>
    rw [accepted] at accepts
    cases accepts
  | ok request =>
    have beam : Key.beamSize.default? = some "500" := rfl
    have nbest : Key.nbestSize.default? = some "1" := rfl
    have same := (parseText_default beam text).1 absent whole appends
    obtain ⟨converted, isRead, carries⟩ :=
      ((parseText_default nbest text).2 request accepted).1 "3" supplied
    have three : Kind.read? .positive "3" = some (3 : Nat) := by decide +kernel
    obtain rfl := Option.some.inj (three.symm.trans isRead)
    exact ⟨beam, absent, appends, same.trans accepted, nbest, supplied, request, rfl,
      carries.setting⟩

end SystemCombination.Request
