import SystemCombination.Proofs.CommandLine.Checks

/-! What comes of a command line. The verdict on all checks describes a configuration and each error
by the settings alone, and so it is the same wherever the settings stand. Of the reader of the
flags nothing counts but that it finds what is written. -/

namespace SystemCombination.CommandLine

open Request (FirstFault)

variable {α β : Type} {given : List Setting}

/-! ### All checks -/

theorem namedOr_bind (read : String → Except Error α) (default : α) (offer : Option String)
    (next : α → Except Error β) :
    namedOr read default offer >>= next =
      match offer with
      | some name => read name >>= next
      | none => pure default >>= next := by
  cases offer <;> rfl

theorem positive_bind (order : Nat) (next : Unit → Except Error β) :
    positive order >>= next =
      if order = 0 then throw (.invalidOrder order) >>= next else next () := by
  unfold positive
  split <;> rfl

/-- The checks one after the other. -/
theorem ofSettings_eq (given : List Setting) :
    ofSettings given = do
      let file ← needed .lmFile (files given)
      let order ← needed .lmOrder (orders given)
      let port ← needed .port (ports given)
      let backend ← namedOr backendOfName .salm (← allowed .lmType (backends given))
      positive order
      let host ← allowed .host (hosts given)
      let filter ← allowed .logFilter (logFilters given)
      let format ← namedOr logFormatOfName .json (← allowed .logFormat (logFormats given))
      return {
        lm := { backend, file, order }
        listen := { host := host.getD "0.0.0.0", port }
        log := { filter := filter.getD "info", format } } := by
  simp only [namedOr_bind, positive_bind]
  rfl

/-- The configuration holds the values of the flags, and the defaults of those that are absent. -/
structure Carries (given : List Setting) (config : Config) : Prop where
  file : Offers given .lmFile (some config.lm.file)
  order : Offers given .lmOrder (some config.lm.order)
  port : Offers given .port (some config.listen.port)
  backend : Filled given .lmType Selects .salm config.lm.backend
  host : Filled given .host Eq "0.0.0.0" config.listen.host
  filter : Filled given .logFilter Eq "info" config.log.filter
  format : Filled given .logFormat Matches .json config.log.format

theorem verdict_ofSettings (given : List Setting) :
    Verdict given Check.all (Carries given) (ofSettings given) := by
  rw [ofSettings_eq]
  refine (collects_files.verdict_needed rfl).bind fun file isFile => ?_
  refine (collects_orders.verdict_needed rfl).bind fun order isOrder => ?_
  refine (collects_ports.verdict_needed rfl).bind fun port isPort => ?_
  refine (collects_backends.verdict_allowed rfl).bind fun offer offers => ?_
  refine (verdict_backend offers).bind fun backend isBackend => ?_
  refine (verdict_positive isOrder).bind fun _ _ => ?_
  refine (collects_hosts.verdict_allowed rfl).bind fun host isHost => ?_
  refine (collects_logFilters.verdict_allowed rfl).bind fun filter isFilter => ?_
  refine (collects_logFormats.verdict_allowed rfl).bind fun offer offers => ?_
  refine (verdict_format offers).bind fun format isFormat => verdict_pure ?_
  exact {
    file := isFile
    order := isOrder
    port := isPort
    backend := isBackend
    host := filled_getD isHost
    filter := filled_getD isFilter
    format := isFormat }

theorem Carries.unique {config config' : Config} (h : Carries given config)
    (h' : Carries given config') : config = config' := by
  obtain ⟨⟨backend, file, order⟩, ⟨host, port⟩, ⟨filter, format⟩⟩ := config
  obtain ⟨⟨backend', file', order'⟩, ⟨host', port'⟩, ⟨filter', format'⟩⟩ := config'
  obtain rfl : file = file' := Option.some.inj (h.file.unique h'.file)
  obtain rfl : order = order' := Option.some.inj (h.order.unique h'.order)
  obtain rfl : port = port' := Option.some.inj (h.port.unique h'.port)
  obtain rfl : backend = backend' := h.backend.unique h'.backend Selects.unique
  obtain rfl : host = host' := h.host.unique h'.host fun same same' => same.symm.trans same'
  obtain rfl : filter = filter' :=
    h.filter.unique h'.filter fun same same' => same.symm.trans same'
  obtain rfl : format = format' := h.format.unique h'.format Matches.unique
  rfl

/-! ### The order of the settings -/

theorem needed_perm {flag : Flag} {values values' : List α} (h : values.Perm values') :
    needed flag values = needed flag values' := by
  match values, h with
  | [], h => rw [List.nil_perm.mp h]
  | [_], h => rw [← List.singleton_perm.mp h]
  | _ :: _ :: _, h =>
    match values', h.length_eq with
    | _ :: _ :: _, length => rw [needed, needed, length] <;> simp

theorem allowed_perm {flag : Flag} {values values' : List α} (h : values.Perm values') :
    allowed flag values = allowed flag values' := by
  match values, values', h with
  | [], _, h => rw [List.nil_perm.mp h]
  | _, [], h => rw [List.perm_nil.mp h]
  | _ :: _, _ :: _, h => rw [allowed, allowed, needed_perm h] <;> simp

/-- Only the values of each flag count, in any order. -/
theorem ofSettings_perm {given' : List Setting} (h : given'.Perm given) :
    ofSettings given' = ofSettings given := by
  simp only [ofSettings, files, orders, ports, backends, hosts, logFilters, logFormats,
    needed_perm (h.filterMap _), allowed_perm (h.filterMap _)]

/-! ### Whole command lines -/

/-- Settings that are written on a command line are found, in order. -/
def Finds (read : List (List UInt8) → Except Usage (List Setting)) : Prop :=
  ∀ given arguments, Written given arguments → read arguments = .ok given

theorem finds_settings : Finds settings := fun _ _ => settings_eq_ok_iff.mpr

section Finds

variable {read : List (List UInt8) → Except Usage (List Setting)} (finds : Finds read)

include finds

theorem configureWith_eq {arguments : List (List UInt8)} (written : Written given arguments) :
    configureWith read arguments = ofSettings given := by
  rw [configureWith, finds given arguments written]

/-- Arguments that are occurrences of flags are accepted exactly if all checks pass, and then make
the configuration that carries the settings; otherwise the first check that fails is reported. The
order in which the settings are written has no part in it. -/
theorem configure_of_written {arguments : List (List UInt8)} (written : Written given arguments) :
    ((∃ config, configureWith read arguments = .ok config) ↔
      ∀ check : Check, check.Passes given) ∧
    (∀ config, configureWith read arguments = .ok config ↔
      (∀ check : Check, check.Passes given) ∧ Carries given config) ∧
    (∀ error, configureWith read arguments = .error error ↔
      ∃ check, FirstFault (Check.Passes given) Check.all check ∧ check.Reports given error) ∧
    ∀ given' arguments', given'.Perm given → Written given' arguments' →
      configureWith read arguments' = configureWith read arguments := by
  have every : (∀ check ∈ Check.all, check.Passes given) ↔ ∀ check : Check, check.Passes given :=
    ⟨fun pass check => pass check check.mem_all, fun pass check _ => pass check⟩
  have verdict := verdict_ofSettings given
  rw [configureWith_eq finds written, ← every]
  refine ⟨verdict.isOk_iff, fun _ => verdict.eq_ok_iff Carries.unique,
    fun _ => verdict.eq_error_iff, fun given' arguments' perm written' => ?_⟩
  rw [configureWith_eq finds written', ofSettings_perm perm]

end Finds

/-- A command line, the same flags in another order, and one with several faults. -/
theorem configure_of_written_of_interleaving :
    let config : Config :=
      { lm := ⟨.sri, "a.arpa", 3⟩, listen := ⟨"0.0.0.0", 9000⟩, log := ⟨"info", .compact⟩ }
    let inOrder := ["--lm.file=a.arpa", "--lm.order", "3", "--port=9000", "--lm.type", " sri ",
      "--log-format=Compact"].map Text.encode
    let mixed := ["--log-format", "Compact", "--port=9000", "--lm.type= sri ", "--lm.order=3",
      "--lm.file", "a.arpa", "--"].map Text.encode
    let faulty := ["--lm.order=0", "--port=1", "--lm.type=kenlm", "--port", "2"].map Text.encode
    configure inOrder = .ok config ∧ configure mixed = .ok config ∧
      configure faulty = .error (.optionCount .lmFile 0) := by
  intro config inOrder mixed faulty
  have isInOrder : Written [.lmFile "a.arpa", .lmOrder 3, .port 9000, .lmType " sri ",
      .logFormat "Compact"] inOrder := settings_eq_ok_iff.mp rfl
  have isMixed : Written [.logFormat "Compact", .port 9000, .lmType " sri ", .lmOrder 3,
      .lmFile "a.arpa"] mixed := settings_eq_ok_iff.mp rfl
  have isFaulty : Written [.lmOrder 0, .port 1, .lmType "kenlm", .port 2] faulty :=
    settings_eq_ok_iff.mp rfl
  obtain ⟨-, -, -, same⟩ := configure_of_written finds_settings isInOrder
  obtain ⟨-, -, reports, -⟩ := configure_of_written finds_settings isFaulty
  have accepted : configure inOrder = .ok config := rfl
  refine ⟨accepted, (same _ _ (by decide) isMixed).trans accepted, (reports _).mpr ?_⟩
  refine ⟨.count .lmFile, ⟨[], _, rfl, by simp, ?_⟩, rfl⟩
  rw [Check.Passes]
  decide

end SystemCombination.CommandLine
