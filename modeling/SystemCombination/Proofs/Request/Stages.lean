import SystemCombination.Proofs.Cut
import SystemCombination.Request.Basic

/-! The stages that make a request of assignments: names, counts, values, confidences. Each stage
passes exactly when all is well, and otherwise reports the first fault in its order, which is that
of the lines for names and that of `Key.all` for counts and values. -/

namespace SystemCombination.Request

open Text

/-! ### The first fault -/

section Fault

variable {α : Type} {good : α → Prop} {bad : α → Bool}

/-- `x` is the first of `xs` that is not good. -/
def FirstFault (good : α → Prop) (xs : List α) (x : α) : Prop :=
  ∃ before after, xs = before ++ x :: after ∧ (∀ y ∈ before, good y) ∧ ¬ good x

theorem FirstFault.unique {xs : List α} {x y : α} (h : FirstFault good xs x)
    (h' : FirstFault good xs y) : x = y := by
  obtain ⟨before, after, rfl, sound, fault⟩ := h
  obtain ⟨before', after', cut, sound', fault'⟩ := h'
  exact (cut_first_unique (p := fun x => ¬ good x) cut fault fault'
    (fun z member => not_not_intro (sound z member))
    (fun z member => not_not_intro (sound' z member))).2.1

theorem FirstFault.not_all {xs : List α} {x : α} (h : FirstFault good xs x) :
    ¬ ∀ y ∈ xs, good y := by
  obtain ⟨before, after, rfl, -, fault⟩ := h
  exact fun all => fault (all x (by simp))

theorem FirstFault.append {xs : List α} {x : α} (h : FirstFault good xs x) (ys : List α) :
    FirstFault good (xs ++ ys) x := by
  obtain ⟨before, after, rfl, sound, fault⟩ := h
  exact ⟨before, after ++ ys, by simp, sound, fault⟩

theorem FirstFault.append_of_sound {xs ys : List α} {y : α} (sound : ∀ x ∈ xs, good x)
    (h : FirstFault good ys y) : FirstFault good (xs ++ ys) y := by
  obtain ⟨before, after, rfl, sound', fault⟩ := h
  exact ⟨xs ++ before, after, by simp, List.forall_mem_append.mpr ⟨sound, sound'⟩, fault⟩

/-- Searching for what is bad finds the first fault. -/
theorem find?_eq_some_iff_firstFault (h : ∀ x, bad x = true ↔ ¬ good x) {xs : List α} {x : α} :
    xs.find? bad = some x ↔ FirstFault good xs x := by
  have passed (y : α) : (!bad y) = true ↔ good y := by
    rw [Bool.not_eq_true', ← Bool.not_eq_true, h, Classical.not_not]
  simp only [List.find?_eq_some_iff_append, h, passed]
  exact ⟨fun ⟨fault, before, after, cut, sound⟩ => ⟨before, after, cut, sound, fault⟩,
    fun ⟨before, after, cut, sound, fault⟩ => ⟨fault, before, after, cut, sound⟩⟩

theorem find?_eq_none_iff_good (h : ∀ x, bad x = true ↔ ¬ good x) {xs : List α} :
    xs.find? bad = none ↔ ∀ x ∈ xs, good x := by
  simp only [List.find?_eq_none, h, Classical.not_not]

end Fault

/-! ### Names -/

/-- A name that is the name of a key. -/
def Known (name : String) : Prop := ∃ key : Key, key.name = name

theorem ofName?_isNone_iff (a : Assignment) :
    (Key.ofName? a.name).isNone = true ↔ ¬ Known a.name := by
  rw [Option.isNone_iff_eq_none, Key.ofName?, List.find?_eq_none]
  simp [Known, Key.mem_all]

theorem checkNames_eq_ok_iff {as : List Assignment} :
    checkNames as = .ok () ↔ ∀ a ∈ as, Known a.name := by
  rw [← find?_eq_none_iff_good ofName?_isNone_iff]
  unfold checkNames
  split <;> next found => simp [found]

theorem checkNames_eq_error_iff {as : List Assignment} {error : Error} :
    checkNames as = .error error ↔
      ∃ a, FirstFault (fun a => Known a.name) as a ∧ error = .unknownKey a.name a.line := by
  simp only [← find?_eq_some_iff_firstFault ofName?_isNone_iff]
  unfold checkNames
  split <;> next found => simp [found, eq_comm]

/-! ### Counts -/

/-- How often the key is given. -/
def count (as : List Assignment) (key : Key) : Nat :=
  as.countP fun a => decide (a.name = key.name)

/-- A key without a default is given once, any other key at most once. -/
def RightCount (as : List Assignment) (key : Key) : Prop :=
  if key.default? = none then count as key = 1 else count as key ≤ 1

theorem length_valuesOf (as : List Assignment) (key : Key) :
    (valuesOf as key).length = count as key := by
  rw [valuesOf, List.length_map, ← List.countP_eq_length_filter, count]

theorem admitsCount_iff (as : List Assignment) (key : Key) :
    (!key.admitsCount (valuesOf as key).length) = true ↔ ¬ RightCount as key := by
  unfold Key.admitsCount RightCount
  rw [length_valuesOf]
  cases key.default? <;> simp

theorem checkCounts_eq_ok_iff {as : List Assignment} :
    checkCounts as = .ok () ↔ ∀ key, RightCount as key := by
  have all : (∀ key, RightCount as key) ↔ ∀ key ∈ Key.all, RightCount as key :=
    ⟨fun right key _ => right key, fun right key => right key key.mem_all⟩
  rw [all, ← find?_eq_none_iff_good (admitsCount_iff as)]
  unfold checkCounts
  split <;> next found => simp [found]

theorem checkCounts_eq_error_iff {as : List Assignment} {error : Error} :
    checkCounts as = .error error ↔
      ∃ key, FirstFault (RightCount as) Key.all key ∧ error = .keyCount key (count as key) := by
  simp only [← find?_eq_some_iff_firstFault (admitsCount_iff as), ← length_valuesOf]
  unfold checkCounts
  split <;> next found => simp [found, eq_comm]

/-! ### Values -/

/-- The assignments give the key a value. -/
def Gives (as : List Assignment) (key : Key) (raw : String) : Prop :=
  ∃ a ∈ as, a.name = key.name ∧ a.value = raw

theorem gives_iff {as : List Assignment} {key : Key} {raw : String} :
    Gives as key raw ↔ raw ∈ valuesOf as key := by
  simp [Gives, valuesOf, and_assoc]

/-- A key that is given at most once is read from the value that it is given. -/
theorem rawOf_of_gives {as : List Assignment} {key : Key} {raw : String} (right : RightCount as key)
    (gives : Gives as key raw) : rawOf as key = raw := by
  have short : (valuesOf as key).length ≤ 1 := by
    rw [length_valuesOf]
    unfold RightCount at right
    split at right <;> omega
  have member := gives_iff.mp gives
  unfold rawOf
  match valuesOf as key, short, member with
  | [value], _, member =>
    rw [List.mem_singleton.mp member]
    rfl

/-- A key that is not given has a default, and is read from it. -/
theorem rawOf_of_absent {as : List Assignment} {key : Key} (right : RightCount as key)
    (absent : ∀ raw, ¬ Gives as key raw) : key.default? = some (rawOf as key) := by
  have none_given : valuesOf as key = [] :=
    List.eq_nil_iff_forall_not_mem.mpr fun raw member => absent raw (gives_iff.mpr member)
  have zero : count as key = 0 := by rw [← length_valuesOf, none_given, List.length_nil]
  have optional : key.default? ≠ none := by
    intro required
    rw [RightCount, if_pos required, zero] at right
    cases right
  obtain ⟨raw, default⟩ := Option.ne_none_iff_exists'.mp optional
  simp [rawOf, none_given, default]

/-- Every default is a value of its key. -/
theorem read?_default {key : Key} {raw : String} (h : key.default? = some raw) :
    (key.kind.read? raw).isSome = true := by
  have all : ∀ key ∈ Key.all, (key.default?.all fun raw => (key.kind.read? raw).isSome) = true := by
    decide +kernel
  simpa [h] using all key key.mem_all

theorem read?_isNone_iff (raw : Key → String) (key : Key) :
    (key.kind.read? (raw key)).isNone = true ↔ ¬ (key.kind.read? (raw key)).isSome = true := by
  cases key.kind.read? (raw key) <;> simp

theorem readSettings_eq_ok_iff {raw : Key → String} {settings : Settings} :
    readSettings raw = .ok settings ↔ ∀ key, key.kind.read? (raw key) = some (settings key) := by
  unfold readSettings
  split
  · next key found =>
    have none_read := List.find?_some found
    refine iff_of_false (fun h => nomatch h) fun read => ?_
    simp [read key] at none_read
  · next found =>
    rw [Except.ok.injEq, funext_iff]
    refine forall_congr' fun key => ?_
    rw [Option.eq_some_iff_get_eq]
    exact ⟨fun same => ⟨_, same⟩, fun ⟨_, same⟩ => same⟩

theorem readSettings_eq_error_iff {raw : Key → String} {error : Error} :
    readSettings raw = .error error ↔
      ∃ key, FirstFault (fun key => (key.kind.read? (raw key)).isSome = true) Key.all key ∧
        error = .invalidValue key (raw key) := by
  simp only [← find?_eq_some_iff_firstFault (read?_isNone_iff raw)]
  unfold readSettings
  split <;> next found => simp [found, eq_comm]

/-! ### Confidences -/

theorem mapM_eq_some_iff {α β : Type} {f : α → Option β} {xs : List α} {ys : List β} :
    xs.mapM f = some ys ↔ xs.map f = ys.map some := by
  induction xs generalizing ys with
  | nil => cases ys <;> simp
  | cons x xs ih =>
    rw [List.mapM_cons]
    cases ys with
    | nil => simp [Option.bind_eq_some_iff]
    | cons y ys =>
      simp only [Option.bind_eq_bind, Option.bind_eq_some_iff, Option.pure_def, Option.some.injEq,
        List.cons.injEq, List.map_cons, ih]
      constructor
      · rintro ⟨_, first, _, rest, rfl, rfl⟩
        exact ⟨first, rest⟩
      · rintro ⟨first, rest⟩
        exact ⟨y, first, ys, rest, rfl, rfl⟩

theorem mapM_eq_none_iff {α β : Type} {f : α → Option β} {xs : List α} :
    xs.mapM f = none ↔ ∃ x ∈ xs, f x = none := by
  induction xs with
  | nil => simp
  | cons x xs ih =>
    rw [List.mapM_cons]
    simp only [List.mem_cons, exists_eq_or_imp, ← ih]
    cases h : f x with
    | none => simp
    | some y => cases xs.mapM f <;> simp

theorem confidences_eq_ok_iff {raw : String} {values : List Binary64} :
    confidences raw = .ok values ↔
      (words raw.toList).map Decimal.finite? = values.map some := by
  rw [← mapM_eq_some_iff, ← confidences?]
  unfold confidences
  split <;> next h => simp [h]

theorem confidences_eq_error_iff {raw : String} {error : Error} :
    confidences raw = .error error ↔
      (∃ word ∈ words raw.toList, Decimal.finite? word = none) ∧ error = .badConfidence raw := by
  rw [← mapM_eq_none_iff, ← confidences?]
  unfold confidences
  split <;> next h => simp [h, eq_comm]

end SystemCombination.Request
