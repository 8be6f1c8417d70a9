import SystemCombination.CommandLine.Flag
import SystemCombination.Proofs.Cut

/-! Arguments as occurrences of flags. `Written` is the grammar: each flag stands with its value in
one argument or in two, and a double dash may close the list. `settings_eq_ok_iff` says that no
other arguments are read, and that the settings read are those of the occurrences, in order. -/

namespace SystemCombination.CommandLine

open Text

/-- A value that may stand in an argument of its own: a dash in front of it is all of it. -/
def Plain (value : List UInt8) : Prop := value.head? = some 45 → value = [45]

/-- The argument that names a flag. -/
def Flag.argument (flag : Flag) : List UInt8 := 45 :: 45 :: encode flag.name

/-- The arguments are occurrences of flags that make the settings, in order. -/
inductive Written : List Setting → List (List UInt8) → Prop
  | nil : Written [] []
  | closed : Written [] [[45, 45]]
  /-- `--name=value` -/
  | attached {flag value setting given arguments} (reads : Flag.setting flag value = .ok setting)
      (rest : Written given arguments) :
      Written (setting :: given) ((flag.argument ++ 61 :: value) :: arguments)
  /-- `--name` and `value` -/
  | detached {flag value setting given arguments} (reads : Flag.setting flag value = .ok setting)
      (plain : Plain value) (rest : Written given arguments) :
      Written (setting :: given) (flag.argument :: value :: arguments)

/-! ### What one argument looks like -/

theorem ofBytes_of_plain {value : List UInt8} (plain : Plain value) :
    Argument.ofBytes value = .plain value := by
  unfold Argument.ofBytes
  split
  · cases plain rfl
  · cases plain rfl
  · cases plain rfl
  · rfl

theorem plain_of_ofBytes {bytes value : List UInt8} (h : Argument.ofBytes bytes = .plain value) :
    Plain bytes ∧ bytes = value := by
  unfold Argument.ofBytes at h
  split at h <;> cases h
  next none_escapes none_long none_short =>
    refine ⟨fun dash => ?_, rfl⟩
    match bytes, dash with
    | [_], dash => simpa using dash
    | _ :: letter :: rest, dash =>
      obtain rfl := Option.some.inj dash
      exact absurd rfl (none_short letter rest)

theorem ofBytes_eq_escape {bytes : List UInt8} (h : Argument.ofBytes bytes = .escape) :
    bytes = [45, 45] := by
  unfold Argument.ofBytes at h
  split at h <;> cases h
  rfl

/-- A name has no `=` in it, and what comes behind the first one is the value. -/
theorem ofBytes_long {name : List UInt8} (fresh : 61 ∉ name) (nonempty : name ≠ []) :
    Argument.ofBytes (45 :: 45 :: name) = .long name none ∧
      ∀ value, Argument.ofBytes (45 :: 45 :: name ++ 61 :: value) = .long name (some value) := by
  obtain ⟨first, name, rfl⟩ := List.exists_cons_of_ne_nil nonempty
  have cut (after : List UInt8) (marked : ∀ y ∈ after.head?, y = 61) :=
    takeWhile_ne_append fresh marked
  refine ⟨?_, fun value => ?_⟩
  · obtain ⟨before, after⟩ := cut [] (by simp)
    rw [List.append_nil] at before after
    simp only [Argument.ofBytes, before, after]
  · obtain ⟨before, after⟩ := cut (61 :: value) (by simp)
    simp only [Argument.ofBytes, List.cons_append] at before after ⊢
    rw [before, after]

theorem ofBytes_eq_long {bytes name : List UInt8} {attached : Option (List UInt8)}
    (h : Argument.ofBytes bytes = .long name attached) :
    bytes = 45 :: 45 :: name ++ (attached.elim [] (61 :: ·)) := by
  unfold Argument.ofBytes at h
  split at h <;> cases h
  next rest _ =>
    have parts : rest.takeWhile (· ≠ 61) ++ rest.dropWhile (· ≠ 61) = rest :=
      List.takeWhile_append_dropWhile
    have first := List.head?_dropWhile_not (· ≠ (61 : UInt8)) rest
    split
    · next left =>
      rw [left] at parts
      rw [Option.elim_none, List.cons_append, List.cons_append, parts]
    · next mark value left =>
      rw [left] at parts first
      obtain rfl : mark = 61 := by simpa using first
      rw [Option.elim_some, List.cons_append, List.cons_append, parts]

theorem ofName?_name (flag : Flag) :
    Switch.ofName? (encode flag.name) = some (.valued flag) := by
  cases flag <;> decide +kernel

theorem name_of_ofName? {name : List UInt8} {flag : Flag}
    (h : Switch.ofName? name = some (.valued flag)) : name = encode flag.name := by
  unfold Switch.ofName? at h
  split at h
  · cases h
  · split at h
    · cases h
    · obtain ⟨flag', found, same⟩ := Option.map_eq_some_iff.mp h
      cases same
      simpa using List.find?_some found

theorem ofBytes_argument (flag : Flag) :
    Argument.ofBytes flag.argument = .long (encode flag.name) none ∧
      ∀ value, Argument.ofBytes (flag.argument ++ 61 :: value) =
        .long (encode flag.name) (some value) :=
  ofBytes_long (by cases flag <;> decide +kernel) (by cases flag <;> decide +kernel)

/-! ### What the arguments say -/

/-- What has been read of the last flag, as arguments. -/
def Pending.arguments : Pending → List (List UInt8)
  | nothing => []
  | awaiting flag => [flag.argument]
  | given flag value => [flag.argument, value]

/-- A pending value was an argument of its own. -/
def Pending.Sound : Pending → Prop
  | given _ value => Plain value
  | _ => True

/-- A flag that is settled was written in front of what comes next. -/
theorem written_of_settle {pending : Pending} {found found' given : List Setting}
    {arguments : List (List UInt8)} (settled : pending.settle found = .ok found')
    (sound : pending.Sound) (rest : Written given arguments) :
    ∃ given', Written given' (pending.arguments ++ arguments) ∧
      found'.reverse ++ given = found.reverse ++ given' := by
  match pending with
  | .nothing =>
    cases settled
    exact ⟨given, rest, rfl⟩
  | .awaiting _ => cases settled
  | .given flag value =>
    cases reads : flag.setting value with
    | error _ =>
      rw [Pending.settle, reads] at settled
      cases settled
    | ok setting =>
      rw [Pending.settle, reads] at settled
      cases settled
      exact ⟨setting :: given, .detached reads sound rest, by simp⟩

theorem bind_eq_ok {ε α β : Type} {x : Except ε α} {f : α → Except ε β} {b : β} :
    x.bind f = .ok b ↔ ∃ a, x = .ok a ∧ f a = .ok b := by
  cases x <;> simp [Except.bind]

theorem map_eq_ok {ε α β : Type} {x : Except ε α} {f : α → β} {b : β} :
    x.map f = .ok b ↔ ∃ a, x = .ok a ∧ f a = b := by
  cases x <;> simp [Except.map]

/-- Whatever is read was written. The induction is on the arguments still to come; those that have
been taken in for the last flag stand in front of them. -/
theorem written_of_settingsFrom {arguments : List (List UInt8)} {found result : List Setting}
    (pending : Pending) (sound : pending.Sound)
    (h : settingsFrom found pending arguments = .ok result) :
    ∃ given, Written given (pending.arguments ++ arguments) ∧ result = found.reverse ++ given := by
  induction arguments generalizing found pending with
  | nil =>
    obtain ⟨found', settled, rfl⟩ := map_eq_ok.mp h
    simpa using written_of_settle settled sound .nil
  | cons argument rest ih =>
    unfold settingsFrom at h
    cases form : Argument.ofBytes argument with
    | escape =>
      simp only [form] at h
      split at h
      · next last =>
        obtain ⟨found', settled, rfl⟩ := map_eq_ok.mp h
        obtain rfl := List.isEmpty_iff.mp last
        obtain rfl := ofBytes_eq_escape form
        simpa using written_of_settle settled sound .closed
      · cases h
    | plain value =>
      obtain ⟨plain, rfl⟩ := plain_of_ofBytes form
      simp only [form] at h
      match pending with
      | .awaiting flag => exact ih (.given flag argument) plain h
    | short letters =>
      simp only [form] at h
      split at h <;> simp [bind_eq_ok] at h
    | long name attached =>
      obtain rfl := ofBytes_eq_long form
      simp only [form] at h
      split at h
      · cases h
      · next flag named =>
        obtain rfl := name_of_ofName? named
        obtain ⟨found', settled, h⟩ := bind_eq_ok.mp h
        obtain ⟨given, written, rfl⟩ := ih (.awaiting flag) trivial h
        simpa [Pending.arguments, Flag.argument] using written_of_settle settled sound written
      · next flag value named =>
        obtain rfl := name_of_ofName? named
        obtain ⟨found', settled, h⟩ := bind_eq_ok.mp h
        obtain ⟨setting, reads, h⟩ := bind_eq_ok.mp h
        obtain ⟨given, written, rfl⟩ := ih .nothing trivial h
        rw [List.reverse_cons, List.append_assoc]
        exact written_of_settle settled sound (.attached reads written)
      · cases h
      · simp [bind_eq_ok] at h
      · simp [bind_eq_ok] at h

/-- Whatever is written is read, once the last flag before it is settled. -/
theorem Written.settingsFrom_eq {given : List Setting} {arguments : List (List UInt8)}
    (written : Written given arguments) (pending : Pending) {found found' : List Setting}
    (settled : pending.settle found = .ok found') :
    settingsFrom found pending arguments = .ok (found'.reverse ++ given) := by
  induction written generalizing pending found found' with
  | nil => simp [settingsFrom, settled, Except.map]
  | closed =>
    have form : Argument.ofBytes [45, 45] = .escape := rfl
    simp [settingsFrom, form, settled, Except.map]
  | @attached flag value setting _ _ reads _ ih =>
    simp only [settingsFrom, (ofBytes_argument flag).2, ofName?_name, settled, reads, Except.bind]
    rw [ih .nothing rfl, List.reverse_cons, List.append_assoc, List.singleton_append]
  | @detached flag value setting _ _ reads plain _ ih =>
    have settled' : (Pending.given flag value).settle found' = .ok (setting :: found') := by
      rw [Pending.settle, reads]
      rfl
    simp only [settingsFrom, (ofBytes_argument flag).1, ofName?_name, settled, Except.bind,
      ofBytes_of_plain plain]
    rw [ih _ settled', List.reverse_cons, List.append_assoc, List.singleton_append]

/-- The arguments that are read are those that are written as occurrences of flags. -/
theorem settings_eq_ok_iff {arguments : List (List UInt8)} {given : List Setting} :
    settings arguments = .ok given ↔ Written given arguments := by
  constructor
  · intro h
    obtain ⟨given', written, rfl⟩ := written_of_settingsFrom .nothing trivial h
    exact written
  · exact fun written => written.settingsFrom_eq .nothing rfl

end SystemCombination.CommandLine
