import SystemCombination.CommandLine.Config
import SystemCombination.Proofs.CommandLine.Occurrences
import SystemCombination.Proofs.Request.Stages
import SystemCombination.Proofs.Text.Blank

/-! The checks on a command line, each described by the settings alone. `Verdict` is what checks
that run in order make of the settings: they report the first that fails, or all pass and give a
value; the verdicts on parts of the checks compose. -/

namespace SystemCombination.CommandLine

open Text
open Request (FirstFault)

variable {α β : Type} {given : List Setting}

/-! ### What the settings offer for a flag -/

def Setting.flag : Setting → Flag
  | lmType _ => .lmType
  | lmFile _ => .lmFile
  | lmOrder _ => .lmOrder
  | port _ => .port
  | host _ => .host
  | logFilter _ => .logFilter
  | logFormat _ => .logFormat

/-- How often a flag is given. -/
def count (given : List Setting) (flag : Flag) : Nat :=
  given.countP fun setting => setting.flag = flag

/-- The settings made with `give` hold the value that is offered and no other, or there are none. -/
def Offers (given : List Setting) (give : α → Setting) (offer : Option α) : Prop :=
  ∀ value, give value ∈ given ↔ offer = some value

theorem Offers.unique {give : α → Setting} {offer offer' : Option α} (h : Offers given give offer)
    (h' : Offers given give offer') : offer = offer' :=
  Option.ext fun value => (h value).symm.trans (h' value)

/-- A field is what the value of a flag stands for, or its default where the flag is absent. -/
def Filled (given : List Setting) (give : String → Setting) (stands : String → α → Prop)
    (default field : α) : Prop :=
  ∃ offer, Offers given give offer ∧ offer.elim (field = default) (stands · field)

theorem Filled.unique {give : String → Setting} {stands : String → α → Prop}
    {default field field' : α}
    (h : Filled given give stands default field) (h' : Filled given give stands default field')
    (unique : ∀ {name x y}, stands name x → stands name y → x = y) : field = field' := by
  obtain ⟨offer, offers, fills⟩ := h
  obtain ⟨offer', offers', fills'⟩ := h'
  obtain rfl := offers.unique offers'
  cases offer with
  | none => exact fills.trans fills'.symm
  | some name => exact unique fills fills'

theorem filled_getD {give : String → Setting} {default : String} {offer : Option String}
    (offers : Offers given give offer) : Filled given give Eq default (offer.getD default) :=
  ⟨offer, offers, by cases offer <;> rfl⟩

/-- The values of a flag among the settings. -/
structure Collects (given : List Setting) (flag : Flag) (give : α → Setting) (values : List α) :
    Prop where
  length : values.length = count given flag
  mem : ∀ value, value ∈ values ↔ give value ∈ given

/-- A partial inverse of `give` that is defined on the settings of a flag collects its values. -/
theorem collects_filterMap {flag : Flag} {give : α → Setting} {read : Setting → Option α}
    (reads : ∀ setting value, read setting = some value ↔ setting = give value)
    (defined : ∀ setting, (read setting).isSome = decide (setting.flag = flag)) :
    Collects given flag give (given.filterMap read) where
  length := by
    rw [List.length_filterMap_eq_countP, count]
    exact congrArg (given.countP ·) (funext defined)
  mem value := by simp [reads]

theorem collects_files : Collects given .lmFile .lmFile (files given) :=
  collects_filterMap (fun setting _ => by cases setting <;> simp)
    fun setting => by cases setting <;> rfl

theorem collects_orders : Collects given .lmOrder .lmOrder (orders given) :=
  collects_filterMap (fun setting _ => by cases setting <;> simp)
    fun setting => by cases setting <;> rfl

theorem collects_ports : Collects given .port .port (ports given) :=
  collects_filterMap (fun setting _ => by cases setting <;> simp)
    fun setting => by cases setting <;> rfl

theorem collects_backends : Collects given .lmType .lmType (backends given) :=
  collects_filterMap (fun setting _ => by cases setting <;> simp)
    fun setting => by cases setting <;> rfl

theorem collects_hosts : Collects given .host .host (hosts given) :=
  collects_filterMap (fun setting _ => by cases setting <;> simp)
    fun setting => by cases setting <;> rfl

theorem collects_logFilters : Collects given .logFilter .logFilter (logFilters given) :=
  collects_filterMap (fun setting _ => by cases setting <;> simp)
    fun setting => by cases setting <;> rfl

theorem collects_logFormats : Collects given .logFormat .logFormat (logFormats given) :=
  collects_filterMap (fun setting _ => by cases setting <;> simp)
    fun setting => by cases setting <;> rfl

/-! ### The checks -/

/-- The name, without the blanks around it, is the backend's. -/
def Selects (name : String) (backend : Backend) : Prop := Trims name.toList backend.name.toList

/-- The name is the format's, but for the case of ASCII letters. -/
def Matches (name : String) (format : LogFormat) : Prop :=
  name.toList.map Char.toLower = format.name.toList

theorem Selects.unique {name : String} {backend backend' : Backend} (h : Selects name backend)
    (h' : Selects name backend') : backend = backend' := by
  have same : backend.name.toList = backend'.name.toList :=
    (trim_of_trims h).symm.trans (trim_of_trims h')
  cases backend <;> cases backend' <;> first | rfl | exact absurd same (by decide)

theorem Matches.unique {name : String} {format format' : LogFormat} (h : Matches name format)
    (h' : Matches name format') : format = format' := by
  have same : format.name.toList = format'.name.toList := h.symm.trans h'
  cases format <;> cases format' <;> first | rfl | exact absurd same (by decide)

/-- A flag that has no default. -/
def Flag.isNeeded : Flag → Bool
  | lmFile | lmOrder | port => true
  | lmType | host | logFilter | logFormat => false

inductive Check
  | count (flag : Flag)
  | backendName
  | order
  | formatName
deriving DecidableEq, Repr

namespace Check

/-- The checks in the order in which they are made. -/
def all : List Check :=
  [count .lmFile, count .lmOrder, count .port, count .lmType, backendName, order, count .host,
    count .logFilter, count .logFormat, formatName]

theorem mem_all (check : Check) : check ∈ all := by
  rcases check with flag | _ | _ | _
  · cases flag <;> decide
  all_goals decide

def Passes (given : List Setting) : Check → Prop
  | count flag =>
    if flag.isNeeded then CommandLine.count given flag = 1 else CommandLine.count given flag ≤ 1
  | backendName => ∀ name, .lmType name ∈ given → ∃ backend, Selects name backend
  | order => ∀ order, .lmOrder order ∈ given → 1 ≤ order
  | formatName => ∀ name, .logFormat name ∈ given → ∃ format, Matches name format

/-- The error that reports a check that fails. -/
def Reports (given : List Setting) : Check → Error → Prop
  | count flag, error => error = .optionCount flag (CommandLine.count given flag)
  | backendName, error => ∃ name trimmed, Offers given .lmType (some name) ∧
      Trims name.toList trimmed.toList ∧ error = .unknownBackend trimmed
  | order, error => error = .invalidOrder 0
  | formatName, error => ∃ name, Offers given .logFormat (some name) ∧
      error = .invalidLogFormat name

theorem Reports.unique {check : Check} {error error' : Error} (h : check.Reports given error)
    (h' : check.Reports given error') : error = error' := by
  match check, h, h' with
  | .count _, rfl, rfl => rfl
  | .backendName, ⟨_, _, offers, trims, rfl⟩, ⟨_, _, offers', trims', rfl⟩ =>
    cases offers.unique offers'
    rw [String.toList_inj.mp ((trim_of_trims trims).symm.trans (trim_of_trims trims'))]
  | .order, rfl, rfl => rfl
  | .formatName, ⟨_, offers, rfl⟩, ⟨_, offers', rfl⟩ =>
    cases offers.unique offers'
    rfl

end Check

/-! ### Verdicts -/

/-- What checks that run in order make of the settings: the report of the first one that fails, or
a value of which `holds` is true if they all pass. -/
def Verdict (given : List Setting) (checks : List Check) (holds : α → Prop) :
    Except Error α → Prop
  | .ok value => (∀ check ∈ checks, check.Passes given) ∧ holds value
  | .error error =>
    ∃ check, FirstFault (Check.Passes given) checks check ∧ check.Reports given error

theorem verdict_pure {holds : α → Prop} {value : α} (h : holds value) :
    Verdict given [] holds (.ok value) :=
  ⟨fun _ member => (nomatch member), h⟩

theorem verdict_single {check : Check} {holds : α → Prop} {result : Except Error α}
    (ok : ∀ value, result = .ok value → check.Passes given ∧ holds value)
    (error : ∀ error, result = .error error → ¬ check.Passes given ∧ check.Reports given error) :
    Verdict given [check] holds result := by
  match result with
  | .ok value =>
    obtain ⟨passes, h⟩ := ok value rfl
    exact ⟨fun _ member => List.mem_singleton.mp member ▸ passes, h⟩
  | .error e =>
    obtain ⟨fails, reports⟩ := error e rfl
    exact ⟨check, ⟨[], [], rfl, fun _ member => (nomatch member), fails⟩, reports⟩

/-- Checks that are made after others have passed continue the verdict of these. -/
theorem Verdict.bind {checks rest : List Check} {holds : α → Prop} {holds' : β → Prop}
    {result : Except Error α} {next : α → Except Error β} (h : Verdict given checks holds result)
    (continues : ∀ value, holds value → Verdict given rest holds' (next value)) :
    Verdict given (checks ++ rest) holds' (result >>= next) := by
  match result, h with
  | .error error, ⟨check, fault, reports⟩ => exact ⟨check, fault.append rest, reports⟩
  | .ok value, ⟨pass, held⟩ =>
    have verdict := continues value held
    show Verdict given (checks ++ rest) holds' (next value)
    match next value, verdict with
    | .error error, ⟨check, fault, reports⟩ => exact ⟨check, .append_of_sound pass fault, reports⟩
    | .ok _, ⟨pass', held'⟩ => exact ⟨List.forall_mem_append.mpr ⟨pass, pass'⟩, held'⟩

/-- A verdict tells the error. -/
theorem Verdict.eq_error_iff {checks : List Check} {holds : α → Prop} {result : Except Error α}
    (h : Verdict given checks holds result) {error : Error} :
    result = .error error ↔
      ∃ check, FirstFault (Check.Passes given) checks check ∧ check.Reports given error := by
  constructor
  · rintro rfl
    exact h
  · rintro ⟨check, fault, reports⟩
    match result, h with
    | .ok _, ⟨pass, _⟩ => exact absurd pass fault.not_all
    | .error _, ⟨check', fault', reports'⟩ =>
      obtain rfl := fault.unique fault'
      rw [reports.unique reports']

/-- A verdict tells the value, if there is only one of which what is to hold is true. -/
theorem Verdict.eq_ok_iff {checks : List Check} {holds : α → Prop} {result : Except Error α}
    (h : Verdict given checks holds result)
    (unique : ∀ {value value'}, holds value → holds value' → value = value') {value : α} :
    result = .ok value ↔ (∀ check ∈ checks, check.Passes given) ∧ holds value := by
  constructor
  · rintro rfl
    exact h
  · rintro ⟨pass, held⟩
    match result, h with
    | .ok _, ⟨_, held'⟩ => rw [unique held held']
    | .error _, ⟨_, fault, _⟩ => exact absurd pass fault.not_all

/-- There is a value unless a check fails. -/
theorem Verdict.isOk_iff {checks : List Check} {holds : α → Prop} {result : Except Error α}
    (h : Verdict given checks holds result) :
    (∃ value, result = .ok value) ↔ ∀ check ∈ checks, check.Passes given := by
  match result, h with
  | .ok value, ⟨pass, _⟩ => exact iff_of_true ⟨value, rfl⟩ pass
  | .error _, ⟨_, fault, _⟩ =>
    exact iff_of_false (fun ⟨_, h⟩ => nomatch h) fault.not_all

/-! ### One check -/

theorem needed_eq_ok {flag : Flag} {values : List α} {value : α}
    (h : needed flag values = .ok value) : values = [value] := by
  unfold needed at h
  split at h <;> cases h
  rfl

theorem needed_eq_error {flag : Flag} {values : List α} {error : Error}
    (h : needed flag values = .error error) :
    values.length ≠ 1 ∧ error = .optionCount flag values.length := by
  unfold needed at h
  split at h <;> cases h
  next several =>
    exact ⟨fun one => (List.length_eq_one_iff.mp one).elim several, rfl⟩

theorem allowed_eq_ok {flag : Flag} {values : List α} {offer : Option α}
    (h : allowed flag values = .ok offer) : values = offer.toList := by
  unfold allowed at h
  split at h
  · cases h
    rfl
  · obtain ⟨value, single, rfl⟩ := map_eq_ok.mp h
    exact needed_eq_ok single

theorem allowed_eq_error {flag : Flag} {values : List α} {error : Error}
    (h : allowed flag values = .error error) :
    1 < values.length ∧ error = .optionCount flag values.length := by
  unfold allowed at h
  split at h
  · cases h
  · next present =>
    cases several : needed flag values with
    | ok _ =>
      rw [several] at h
      cases h
    | error _ =>
      rw [several] at h
      cases h
      obtain ⟨notOne, rfl⟩ := needed_eq_error several
      have notZero := List.length_eq_zero_iff.not.mpr present
      exact ⟨by omega, rfl⟩

variable {flag : Flag} {give : α → Setting} {values : List α}

theorem Collects.verdict_needed (collects : Collects given flag give values)
    (isNeeded : flag.isNeeded = true) :
    Verdict given [.count flag] (fun value => Offers given give (some value))
      (needed flag values) := by
  refine verdict_single (fun value h => ?_) fun error h => ?_
  · obtain rfl := needed_eq_ok h
    refine ⟨?_, fun other => ?_⟩
    · rw [Check.Passes, if_pos isNeeded, ← collects.length, List.length_singleton]
    · rw [← collects.mem, List.mem_singleton, Option.some.injEq, eq_comm]
  · obtain ⟨notOne, rfl⟩ := needed_eq_error h
    refine ⟨?_, by rw [Check.Reports, collects.length]⟩
    rwa [Check.Passes, if_pos isNeeded, ← collects.length]

theorem Collects.verdict_allowed (collects : Collects given flag give values)
    (optional : flag.isNeeded = false) :
    Verdict given [.count flag] (Offers given give) (allowed flag values) := by
  have notNeeded : ¬ flag.isNeeded = true := by simp [optional]
  refine verdict_single (fun offer h => ?_) fun error h => ?_
  · obtain rfl := allowed_eq_ok h
    refine ⟨?_, fun value => by rw [← collects.mem, Option.mem_toList]⟩
    rw [Check.Passes, if_neg notNeeded, ← collects.length]
    exact Option.length_toList_le
  · obtain ⟨several, rfl⟩ := allowed_eq_error h
    refine ⟨?_, by rw [Check.Reports, collects.length]⟩
    rwa [Check.Passes, if_neg notNeeded, ← collects.length, not_le]

theorem backendOfName_eq_ok {name : String} {backend : Backend}
    (h : backendOfName name = .ok backend) : Selects name backend := by
  simp only [backendOfName, Backend.ofName?] at h
  split at h <;> cases h
  next found =>
    have same : backend.name = String.ofList (trim name.toList) := by
      simpa using List.find?_some found
    rw [Selects, ← trim_eq_iff, same, String.toList_ofList]

theorem backendOfName_eq_error {name : String} {error : Error}
    (h : backendOfName name = .error error) :
    (∀ backend, ¬ Selects name backend) ∧
      ∃ trimmed, Trims name.toList trimmed.toList ∧ error = .unknownBackend trimmed := by
  simp only [backendOfName, Backend.ofName?] at h
  split at h <;> cases h
  next none_found =>
    refine ⟨fun backend selects => ?_, _, by rw [String.toList_ofList]; exact trims_trim _, rfl⟩
    have same : backend.name = String.ofList (trim name.toList) := by
      rw [trim_of_trims selects, String.ofList_toList]
    have all : backend ∈ [Backend.sri, .salm] := by cases backend <;> simp
    exact List.find?_eq_none.mp none_found backend all (decide_eq_true same)

theorem logFormatOfName_eq_ok {name : String} {format : LogFormat}
    (h : logFormatOfName name = .ok format) : Matches name format := by
  unfold logFormatOfName LogFormat.ofName? at h
  split at h <;> cases h
  next found => simpa [Matches, eq_comm] using List.find?_some found

theorem logFormatOfName_eq_error {name : String} {error : Error}
    (h : logFormatOfName name = .error error) :
    (∀ format, ¬ Matches name format) ∧ error = .invalidLogFormat name := by
  unfold logFormatOfName LogFormat.ofName? at h
  split at h <;> cases h
  next none_found =>
    refine ⟨fun format same => ?_, rfl⟩
    have all : format ∈ [LogFormat.json, .compact] := by cases format <;> simp
    exact List.find?_eq_none.mp none_found format all (decide_eq_true same.symm)

/-- What the name that is offered stands for, or the default where none is. -/
def namedOr (read : String → Except Error α) (default : α) : Option String → Except Error α
  | some name => read name
  | none => pure default

/-- A check that every name given stands for something is made by reading the one that is
offered. -/
theorem verdict_namedOr {check : Check} {give : String → Setting} {stands : String → α → Prop}
    {read : String → Except Error α} {default : α} {offer : Option String}
    (passes : check.Passes given ↔ ∀ name, give name ∈ given → ∃ x, stands name x)
    (ok : ∀ name x, read name = .ok x → stands name x)
    (error : ∀ name error, read name = .error error → (∀ x, ¬ stands name x) ∧
      (Offers given give (some name) → check.Reports given error))
    (offers : Offers given give offer) :
    Verdict given [check] (Filled given give stands default) (namedOr read default offer) := by
  cases offer with
  | none =>
    refine verdict_single (fun x h => ?_) fun _ h => nomatch h
    cases h
    refine ⟨passes.mpr fun name member => ?_, none, offers, rfl⟩
    cases (offers name).mp member
  | some name =>
    refine verdict_single (fun x h => ?_) fun e h => ?_
    · have stood := ok name x h
      refine ⟨passes.mpr fun name' member => ?_, some name, offers, stood⟩
      cases (offers name').mp member
      exact ⟨x, stood⟩
    · obtain ⟨unknown, reports⟩ := error name e h
      refine ⟨fun pass => ?_, reports offers⟩
      obtain ⟨x, stood⟩ := passes.mp pass name ((offers name).mpr rfl)
      exact unknown x stood

theorem verdict_backend {offer : Option String} (offers : Offers given .lmType offer) :
    Verdict given [.backendName] (Filled given .lmType Selects .salm)
      (namedOr backendOfName .salm offer) := by
  refine verdict_namedOr Iff.rfl (fun _ _ => backendOfName_eq_ok) (fun name error h => ?_) offers
  obtain ⟨unknown, trimmed, trims, reported⟩ := backendOfName_eq_error h
  exact ⟨unknown, fun offers => ⟨name, trimmed, offers, trims, reported⟩⟩

theorem verdict_format {offer : Option String} (offers : Offers given .logFormat offer) :
    Verdict given [.formatName] (Filled given .logFormat Matches .json)
      (namedOr logFormatOfName .json offer) := by
  refine verdict_namedOr Iff.rfl (fun _ _ => logFormatOfName_eq_ok) (fun name error h => ?_) offers
  obtain ⟨unknown, reported⟩ := logFormatOfName_eq_error h
  exact ⟨unknown, fun offers => ⟨name, offers, reported⟩⟩

/-- An order of zero is refused. -/
def positive (order : Nat) : Except Error Unit :=
  if order = 0 then throw (.invalidOrder order) else pure ()

theorem verdict_positive {order : Nat} (offers : Offers given .lmOrder (some order)) :
    Verdict given [.order] (fun _ => True) (positive order) := by
  have passes_iff : Check.Passes given .order ↔ 1 ≤ order :=
    ⟨fun pass => pass order ((offers order).mpr rfl), fun h other member => by
      cases (offers other).mp member
      exact h⟩
  unfold positive
  split
  · next zero =>
    subst zero
    refine verdict_single (fun _ h => nomatch h) fun _ h => ?_
    cases h
    exact ⟨fun pass => absurd (passes_iff.mp pass) (by omega), rfl⟩
  · next nonzero =>
    exact verdict_single (fun _ _ => ⟨passes_iff.mpr (by omega), trivial⟩) fun _ h => nomatch h

end SystemCombination.CommandLine
