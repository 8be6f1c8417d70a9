import SystemCombination.Proofs.Request.Block
import SystemCombination.Proofs.Request.Stages

/-! The verdict on a request, stage by stage. `Judged` is the verdict on assignments and `Verdict`
the verdict on a body; the main statement is that `parse` gives the one verdict that there is. -/

namespace SystemCombination.Request

open Text

/-- What a request holds for a key. -/
def setting (request : Request) : (key : Key) → key.kind.Value
  | .lmWeight => request.decoder.weights.lm
  | .alignmentWeight => request.decoder.weights.alignment
  | .ngramWeight => request.decoder.weights.ngram
  | .ngramBase => request.decoder.weights.ngramBase
  | .overlapWeight => request.decoder.weights.overlap
  | .fuzzRatio => request.decoder.weights.fuzzRatio
  | .beamSize => request.decoder.beamSize
  | .lengthNormalize => request.decoder.lengthNormalize
  | .nbestSize => request.decoder.nbestSize
  | .horizonRadius => request.decoder.horizon.radius
  | .horizonNew => request.decoder.horizon.gated
  | .horizonThreshold => request.decoder.horizon.threshold
  | .oraclePrefix => request.oraclePrefix
  | .oneBest => request.oneBest
  | .matchedFile => request.matchedFile
  | .confidence => request.confidenceText
  | .pickBest => request.input.pickBest
  | .transitive => request.input.transitive

@[simp] theorem setting_ofSettings (settings : Settings) (values : List Binary64) (key : Key) :
    (ofSettings settings values).setting key = settings key := by
  cases key <;> rfl

/-- A request whose two radii agree is made of its settings and its confidences. -/
theorem ofSettings_setting {request : Request}
    (radius : request.input.radius = request.decoder.horizon.radius) :
    ofSettings request.setting request.input.confidences = request := by
  obtain ⟨⟨confidences, inputRadius, pickBest, transitive⟩, decoder, _⟩ := request
  dsimp only at radius
  subst radius
  rfl

/-- Every value that the key is given is one. -/
def Readable (as : List Assignment) (key : Key) : Prop :=
  ∀ raw, Gives as key raw → (key.kind.read? raw).isSome = true

/-- The request holds what the assignments give, and the defaults of the keys that they do not
give. -/
structure Follows (request : Request) (as : List Assignment) : Prop where
  given : ∀ key raw, Gives as key raw → key.kind.read? raw = some (request.setting key)
  absent : ∀ key raw, (∀ other, ¬ Gives as key other) → key.default? = some raw →
    key.kind.read? raw = some (request.setting key)
  confidences : (words request.confidenceText.toList).map Decimal.finite? =
    request.input.confidences.map some
  radius : request.input.radius = request.decoder.horizon.radius

/-- The verdict on assignments. -/
inductive Judged (as : List Assignment) : Except Error Request → Prop
  | unknownKey {a : Assignment} (fault : FirstFault (fun a => Known a.name) as a) :
      Judged as (.error (.unknownKey a.name a.line))
  | keyCount {key : Key} (names : ∀ a ∈ as, Known a.name)
      (fault : FirstFault (RightCount as) Key.all key) :
      Judged as (.error (.keyCount key (count as key)))
  | invalidValue {key : Key} {raw : String} (names : ∀ a ∈ as, Known a.name)
      (counts : ∀ key, RightCount as key) (fault : FirstFault (Readable as) Key.all key)
      (gives : Gives as key raw) : Judged as (.error (.invalidValue key raw))
  | badConfidence {raw : String} {word : List Char} (names : ∀ a ∈ as, Known a.name)
      (counts : ∀ key, RightCount as key) (values : ∀ key, Readable as key)
      (gives : Gives as .confidence raw) (member : word ∈ words raw.toList)
      (bad : Decimal.finite? word = none) : Judged as (.error (.badConfidence raw))
  | accepted {request : Request} (names : ∀ a ∈ as, Known a.name)
      (counts : ∀ key, RightCount as key) (follows : request.Follows as) :
      Judged as (.ok request)

/-- The body is short enough, and a text with the given lines. -/
def HasLines (body : List UInt8) (lines : List (List Char)) : Prop :=
  body.length ≤ sizeLimit ∧ ∃ text, body = encode text ∧ lines = linesOfText text

/-- The verdict on a body. -/
inductive Verdict (body : List UInt8) : Except Error Request → Prop
  | tooLarge (large : sizeLimit < body.length) : Verdict body (.error .tooLarge)
  | notUtf8 (small : body.length ≤ sizeLimit) (noText : ∀ text, body ≠ encode text) :
      Verdict body (.error .notUtf8)
  | malformedLine {before after : List (List Char)} {line content : List Char}
      (lines : HasLines body (before ++ line :: after))
      (earlier : ∀ other ∈ before, ¬ Malformed other) (means : Means line (.malformed content)) :
      Verdict body (.error (.malformedLine (before.length + 1) (String.ofList content)))
  | judged {lines : List (List Char)} {as : List Assignment} {result : Except Error Request}
      (hasLines : HasLines body lines) (formed : ∀ line ∈ lines, ¬ Malformed line)
      (lists : Lists lines as) (judged : Judged as result) : Verdict body result

/-! ### Assignments -/

theorem gives_rawOf {as : List Assignment} {key : Key} (right : RightCount as key)
    (required : key.default? = none) : Gives as key (rawOf as key) := by
  by_contra nothing
  have absent : ∀ raw, ¬ Gives as key raw := fun raw gives =>
    nothing (rawOf_of_gives right gives ▸ gives)
  cases required.symm.trans (rawOf_of_absent right absent)

/-- The text that is read for a key is a value unless it is given and is none: defaults are. -/
theorem readable_iff {as : List Assignment} {key : Key} (right : RightCount as key) :
    (key.kind.read? (rawOf as key)).isSome = true ↔ Readable as key := by
  constructor
  · intro read raw gives
    rwa [← rawOf_of_gives right gives]
  · intro readable
    by_cases given : ∃ raw, Gives as key raw
    · obtain ⟨raw, gives⟩ := given
      rw [rawOf_of_gives right gives]
      exact readable raw gives
    · exact read?_default (rawOf_of_absent right (not_exists.mp given))

theorem readSettings_rawOf_eq_ok_iff {as : List Assignment} {settings : Settings}
    (counts : ∀ key, RightCount as key) :
    readSettings (rawOf as) = .ok settings ↔
      (∀ key raw, Gives as key raw → key.kind.read? raw = some (settings key)) ∧
      ∀ key raw, (∀ other, ¬ Gives as key other) → key.default? = some raw →
        key.kind.read? raw = some (settings key) := by
  rw [readSettings_eq_ok_iff]
  constructor
  · intro read
    refine ⟨fun key raw gives => ?_, fun key raw absent default => ?_⟩
    · rw [← rawOf_of_gives (counts key) gives, read key]
    · rw [← Option.some.inj ((rawOf_of_absent (counts key) absent).symm.trans default), read key]
  · rintro ⟨given, absent⟩ key
    by_cases supplied : ∃ raw, Gives as key raw
    · obtain ⟨raw, gives⟩ := supplied
      rw [rawOf_of_gives (counts key) gives]
      exact given key raw gives
    · have none_given := not_exists.mp supplied
      exact absent key _ none_given (rawOf_of_absent (counts key) none_given)

theorem readSettings_rawOf_eq_error_iff {as : List Assignment} {error : Error}
    (counts : ∀ key, RightCount as key) :
    readSettings (rawOf as) = .error error ↔
      ∃ key raw, FirstFault (Readable as) Key.all key ∧ Gives as key raw ∧
        error = .invalidValue key raw := by
  have readable : (fun key => (key.kind.read? (rawOf as key)).isSome = true) = Readable as :=
    funext fun key => propext (readable_iff (counts key))
  rw [readSettings_eq_error_iff, readable]
  refine exists_congr fun key => ?_
  constructor
  · rintro ⟨fault, rfl⟩
    have ⟨_, _, _, _, unreadable⟩ := fault
    by_cases given : ∃ raw, Gives as key raw
    · obtain ⟨raw, gives⟩ := given
      rw [rawOf_of_gives (counts key) gives]
      exact ⟨raw, fault, gives, rfl⟩
    · exact absurd (fun raw gives => absurd ⟨raw, gives⟩ given) unreadable
  · rintro ⟨raw, fault, gives, rfl⟩
    rw [rawOf_of_gives (counts key) gives]
    exact ⟨fault, rfl⟩

theorem judged_ofAssignments (as : List Assignment) : Judged as (ofAssignments as) := by
  cases names : checkNames as with
  | error error =>
    obtain ⟨a, fault, rfl⟩ := checkNames_eq_error_iff.mp names
    simp only [ofAssignments, names, bind, Except.bind]
    exact .unknownKey fault
  | ok =>
  cases counts : checkCounts as with
  | error error =>
    obtain ⟨key, fault, rfl⟩ := checkCounts_eq_error_iff.mp counts
    simp only [ofAssignments, names, counts, bind, Except.bind]
    exact .keyCount (checkNames_eq_ok_iff.mp names) fault
  | ok =>
  have right := checkCounts_eq_ok_iff.mp counts
  cases settings : readSettings (rawOf as) with
  | error error =>
    obtain ⟨key, raw, fault, gives, rfl⟩ := (readSettings_rawOf_eq_error_iff right).mp settings
    simp only [ofAssignments, names, counts, settings, bind, Except.bind]
    exact .invalidValue (checkNames_eq_ok_iff.mp names) right fault gives
  | ok values =>
  obtain ⟨given, absent⟩ := (readSettings_rawOf_eq_ok_iff right).mp settings
  cases numbers : confidences (values .confidence) with
  | error error =>
    obtain ⟨⟨word, member, bad⟩, rfl⟩ := confidences_eq_error_iff.mp numbers
    have gives := gives_rawOf (right .confidence) rfl
    have same : values .confidence = rawOf as .confidence :=
      (Option.some.inj (given .confidence _ gives)).symm
    simp only [ofAssignments, names, counts, settings, numbers, bind, Except.bind]
    rw [same] at member ⊢
    refine .badConfidence (checkNames_eq_ok_iff.mp names) right (fun key => ?_) gives member bad
    intro raw gives'
    simp [given key raw gives']
  | ok numbers' =>
    simp only [ofAssignments, names, counts, settings, numbers, bind, Except.bind, pure,
      Except.pure]
    refine .accepted (checkNames_eq_ok_iff.mp names) right ⟨?_, ?_, ?_, rfl⟩
    · simpa using given
    · simpa using absent
    · exact confidences_eq_ok_iff.mp numbers

theorem ofAssignments_of_judged {as : List Assignment} {result : Except Error Request}
    (h : Judged as result) : ofAssignments as = result := by
  cases h with
  | unknownKey fault =>
    simp only [ofAssignments, checkNames_eq_error_iff.mpr ⟨_, fault, rfl⟩, bind, Except.bind]
  | keyCount names fault =>
    simp only [ofAssignments, checkNames_eq_ok_iff.mpr names,
      checkCounts_eq_error_iff.mpr ⟨_, fault, rfl⟩, bind, Except.bind]
  | invalidValue names counts fault gives =>
    simp only [ofAssignments, checkNames_eq_ok_iff.mpr names, checkCounts_eq_ok_iff.mpr counts,
      (readSettings_rawOf_eq_error_iff counts).mpr ⟨_, _, fault, gives, rfl⟩, bind, Except.bind]
  | @badConfidence raw word names counts values gives member bad =>
    -- The values are those that the texts denote, and the last of them is the text itself.
    cases settings : readSettings (rawOf as) with
    | error error =>
      obtain ⟨key, -, ⟨_, _, -, -, unreadable⟩, -⟩ :=
        (readSettings_rawOf_eq_error_iff counts).mp settings
      exact absurd (values key) unreadable
    | ok read =>
      have same : read .confidence = raw :=
        (Option.some.inj (((readSettings_rawOf_eq_ok_iff counts).mp settings).1 _ _ gives)).symm
      have rejected : confidences (read .confidence) = .error (.badConfidence raw) := by
        rw [same]
        exact confidences_eq_error_iff.mpr ⟨⟨word, member, bad⟩, rfl⟩
      simp only [ofAssignments, checkNames_eq_ok_iff.mpr names, checkCounts_eq_ok_iff.mpr counts,
        settings, rejected, bind, Except.bind]
  | @accepted request names counts follows =>
    have settings : readSettings (rawOf as) = .ok request.setting :=
      (readSettings_rawOf_eq_ok_iff counts).mpr ⟨follows.given, follows.absent⟩
    have numbers : confidences (request.setting .confidence) = .ok request.input.confidences :=
      confidences_eq_ok_iff.mpr follows.confidences
    simp only [ofAssignments, checkNames_eq_ok_iff.mpr names, checkCounts_eq_ok_iff.mpr counts,
      settings, numbers, bind, Except.bind, pure, Except.pure, ofSettings_setting follows.radius]

/-! ### Bodies -/

theorem parse_of_text {text : String} (small : (encode text).length ≤ sizeLimit) :
    parse (encode text) = parseText text := by
  simp only [parse, if_neg (Nat.not_lt.mpr small), decode?_encode]

theorem verdict_parse (body : List UInt8) : Verdict body (parse body) := by
  by_cases large : sizeLimit < body.length
  · rw [parse, if_pos large]
    exact .tooLarge large
  have small := Nat.not_lt.mp large
  cases decoded : decode? body with
  | none =>
    simp only [parse, if_neg large, decoded]
    refine .notUtf8 small fun text same => ?_
    cases decoded.symm.trans (decode?_eq_some_iff.mpr same)
  | some text =>
    obtain rfl := decode?_eq_some_iff.mp decoded
    rw [parse_of_text small, parseText]
    have outcome := outcome_assignments text
    cases read : assignments text with
    | error error =>
      rw [read] at outcome
      obtain ⟨before, line, after, content, cut, earlier, means, rfl⟩ := outcome
      simpa [bind, Except.bind] using
        Verdict.malformedLine ⟨small, text, rfl, cut.symm⟩ earlier means
    | ok as =>
      rw [read] at outcome
      exact .judged ⟨small, text, rfl, rfl⟩ outcome.2 outcome.1 (judged_ofAssignments as)

theorem parse_of_verdict {body : List UInt8} {result : Except Error Request}
    (h : Verdict body result) : parse body = result := by
  cases h with
  | tooLarge large => rw [parse, if_pos large]
  | notUtf8 small noText =>
    have decoded : decode? body = none :=
      Option.eq_none_iff_forall_ne_some.mpr fun text h => noText text (decode?_eq_some_iff.mp h)
    simp only [parse, if_neg (Nat.not_lt.mpr small), decoded]
  | malformedLine hasLines earlier means =>
    obtain ⟨small, text, rfl, cut⟩ := hasLines
    have outcome : Outcome [] (linesOfText text) (.error _) :=
      ⟨_, _, _, _, cut.symm, earlier, means, rfl⟩
    have read := assignments_eq_iff.mpr outcome
    rw [parse_of_text small, parseText, read]
    simp [bind, Except.bind]
  | judged hasLines formed lists judged =>
    obtain ⟨small, text, rfl, rfl⟩ := hasLines
    have read : assignments text = .ok _ := assignments_eq_iff.mpr ⟨lists, formed⟩
    rw [parse_of_text small, parseText, read]
    exact ofAssignments_of_judged judged

/-- Parsing gives the verdict of the grammar, for every body, and no other. -/
theorem parse_eq_iff_verdict (body : List UInt8) (result : Except Error Request) :
    parse body = result ↔ Verdict body result :=
  ⟨fun h => h ▸ verdict_parse body, parse_of_verdict⟩

/-! ### Accepted requests -/

theorem exists_parse_eq_ok {α : Type} {body : List UInt8} {view : Request → α} {value : α}
    (h : (parse body).toOption.map view = some value) :
    ∃ request, parse body = .ok request ∧ view request = value := by
  cases accepted : parse body with
  | error error =>
    rw [accepted] at h
    cases h
  | ok request =>
    rw [accepted] at h
    exact ⟨request, rfl, Option.some.inj h⟩

/-- What a request holds for a key was read from some text. -/
theorem Judged.exists_read? {as : List Assignment} {request : Request}
    (h : Judged as (.ok request)) (key : Key) :
    ∃ raw, key.kind.read? raw = some (request.setting key) := by
  cases h with
  | accepted _ counts follows =>
    by_cases given : ∃ raw, Gives as key raw
    · obtain ⟨raw, gives⟩ := given
      exact ⟨raw, follows.given key raw gives⟩
    · have absent := not_exists.mp given
      exact ⟨_, follows.absent key _ absent (rawOf_of_absent (counts key) absent)⟩

theorem exists_read?_setting {body : List UInt8} {request : Request}
    (accepted : parse body = .ok request) (key : Key) :
    ∃ raw, key.kind.read? raw = some (request.setting key) := by
  have verdict := verdict_parse body
  rw [accepted] at verdict
  cases verdict with
  | judged _ _ _ judged => exact judged.exists_read? key

theorem one_le_of_read?_positive {raw : String} {value : Nat}
    (h : Kind.read? .positive raw = some value) : 1 ≤ value := by
  have ⟨_, positive⟩ := Option.filter_eq_some_iff.mp h
  simpa using positive

theorem one_le_beamSize {body : List UInt8} {request : Request}
    (accepted : parse body = .ok request) : 1 ≤ request.decoder.beamSize := by
  obtain ⟨raw, read⟩ := exists_read?_setting accepted .beamSize
  exact one_le_of_read?_positive read

theorem one_le_nbestSize {body : List UInt8} {request : Request}
    (accepted : parse body = .ok request) : 1 ≤ request.decoder.nbestSize := by
  obtain ⟨raw, read⟩ := exists_read?_setting accepted .nbestSize
  exact one_le_of_read?_positive read

end SystemCombination.Request
