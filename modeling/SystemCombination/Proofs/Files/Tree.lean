import SystemCombination.Files.Basic

/-! Where paths lead. A path leads the same way in two trees with the same directories, so
creating and writing files changes the way to none; a path at which a file was created is then
opened at the same location. -/

namespace SystemCombination.Files

/-- A tree of directories and regular files. -/
def Regular (files : Files) : Prop :=
  ∀ location, files.node? location ≠ some .sink ∧ files.node? location ≠ some .full

structure SameDirectories (files after : Files) : Prop where
  home : after.home = files.home
  directory : ∀ location,
    after.node? location = some .directory ↔ files.node? location = some .directory

/-- Trees with the same nodes but at the given locations. -/
structure AgreeOff (changed : List Location) (files after : Files) : Prop where
  home : after.home = files.home
  node : ∀ location, location ∉ changed → after.node? location = files.node? location

variable {files after : Files}

theorem SameDirectories.symm (h : SameDirectories files after) : SameDirectories after files :=
  ⟨h.home.symm, fun location => (h.directory location).symm⟩

theorem SameDirectories.refl (files : Files) : SameDirectories files files :=
  ⟨rfl, fun _ => Iff.rfl⟩

theorem SameDirectories.trans {between : Files} (h : SameDirectories files between)
    (h' : SameDirectories between after) : SameDirectories files after :=
  ⟨h'.home.trans h.home, fun location => (h'.directory location).trans (h.directory location)⟩

theorem AgreeOff.refl (changed : List Location) (files : Files) : AgreeOff changed files files :=
  ⟨rfl, fun _ _ => rfl⟩

theorem AgreeOff.trans {changed changed' : List Location} {between : Files}
    (h : AgreeOff changed files between) (h' : AgreeOff changed' between after) :
    AgreeOff (changed ++ changed') files after where
  home := h'.home.trans h.home
  node location away := by
    rw [List.mem_append, not_or] at away
    exact (h'.node location away.2).trans (h.node location away.1)

theorem AgreeOff.mono {changed changed' : List Location} (h : AgreeOff changed files after)
    (within : changed ⊆ changed') : AgreeOff changed' files after :=
  ⟨h.home, fun location away => h.node location fun member => away (within member)⟩

/-- Trees with the same directories and, but at the given locations, the same nodes. -/
structure KeptOff (changed : List Location) (files after : Files) : Prop where
  agree : AgreeOff changed files after
  directories : SameDirectories files after

theorem KeptOff.refl (changed : List Location) (files : Files) : KeptOff changed files files :=
  ⟨.refl changed files, .refl files⟩

theorem KeptOff.trans {changed : List Location} {between : Files}
    (h : KeptOff changed files between) (h' : KeptOff changed between after) :
    KeptOff changed files after :=
  ⟨(h.agree.trans h'.agree).mono (by simp), h.directories.trans h'.directories⟩

theorem KeptOff.mono {changed changed' : List Location} (h : KeptOff changed files after)
    (within : changed ⊆ changed') : KeptOff changed' files after :=
  ⟨h.agree.mono within, h.directories⟩

/-- Where only files are changed, the directories stay. -/
theorem AgreeOff.sameDirectories {changed : List Location} (h : AgreeOff changed files after)
    (before : ∀ location ∈ changed, files.node? location ≠ some .directory)
    (now : ∀ location ∈ changed, after.node? location ≠ some .directory) :
    SameDirectories files after where
  home := h.home
  directory location := by
    by_cases isChanged : location ∈ changed
    · exact iff_of_false (now location isChanged) (before location isChanged)
    · rw [h.node location isChanged]

theorem agreeOff_put (files : Files) (location : Location) (node : Node) :
    AgreeOff [location] files (files.put location node) where
  home := rfl
  node _ away := node?_put_other (fun same => away (List.mem_singleton.mpr same)) node

/-- Trees that are changed in the same way go on agreeing. -/
theorem AgreeOff.put {changed : List Location} (h : AgreeOff changed files after)
    (location : Location) (node : Node) :
    AgreeOff changed (files.put location node) (after.put location node) where
  home := h.home
  node other away := by
    by_cases same : other = location
    · subst same
      simp only [node?, Files.put, List.lookup_cons, beq_self_eq_true]
    · rw [node?_put_other same, node?_put_other same, h.node other away]

theorem regular_of_nodes (h : ∀ entry ∈ files.nodes, entry.2 ≠ .sink ∧ entry.2 ≠ .full) :
    files.Regular := by
  intro location
  unfold node?
  split
  · simp
  · cases found : files.nodes.lookup location with
    | none => simp
    | some node =>
      obtain ⟨before, after, whole, _⟩ := List.lookup_eq_some_iff.mp found
      have listed := h (location, node) (by rw [whole]; simp)
      simpa using listed

/-! ### Ways -/

theorem enter_eq_ok_iff {directory location : Location} {name : String} :
    files.enter directory name = .ok location ↔
      name = "." ∧ location = directory ∨
      name ≠ "." ∧ name = ".." ∧ location = directory.dropLast ∨
      name ≠ "." ∧ name ≠ ".." ∧ name.utf8ByteSize ≤ longestName ∧
        files.node? (directory ++ [name]) = some .directory ∧ location = directory ++ [name] := by
  unfold enter child
  by_cases here : name = "."
  · simp [here, eq_comm]
  · by_cases up : name = ".."
    · simp [up, eq_comm]
    · by_cases long : longestName < name.utf8ByteSize
      · simp [here, up, long, Nat.not_le.mpr long]
      · have short := Nat.not_lt.mp long
        cases stands : files.node? (directory ++ [name]) with
        | none => simp [here, up, long]
        | some node => cases node <;> simp [here, up, long, short, eq_comm]

theorem SameDirectories.enter (same : SameDirectories files after) {directory location : Location}
    {name : String} (h : files.enter directory name = .ok location) :
    after.enter directory name = .ok location := by
  rw [enter_eq_ok_iff] at h ⊢
  rwa [same.directory]

theorem SameDirectories.walk (same : SameDirectories files after) {directory location : Location}
    {names : List String} (h : files.walk directory names = .ok location) :
    after.walk directory names = .ok location := by
  induction names generalizing directory with
  | nil => exact h
  | cons name names ih =>
    rw [Files.walk, List.foldlM_cons] at h ⊢
    cases step : files.enter directory name with
    | error error =>
      rw [step] at h
      cases h
    | ok next =>
      rw [step] at h
      rw [same.enter step]
      exact ih h

theorem SameDirectories.start (same : SameDirectories files after) (path : String) :
    after.start path = files.start path := by
  rw [Files.start, Files.start, same.home]

theorem bind_eq_ok_iff {α β : Type} {action : Except IoError α} {next : α → Except IoError β}
    {result : β} :
    action >>= next = .ok result ↔ ∃ value, action = .ok value ∧ next value = .ok result := by
  cases action with
  | error error => exact iff_of_false (fun h => nomatch h) (by simp)
  | ok value => exact ⟨fun h => ⟨value, rfl, h⟩, fun ⟨_, same, h⟩ => Except.ok.inj same ▸ h⟩

/-- What has to be so for a path to name a file, there or not, in a directory that is there. -/
structure Leads (files : Files) (path : String) (directory : Location) (last : String) : Prop where
  way : ∃ all, names path = .ok all ∧ all.getLast? = some last ∧
    files.walk (files.start path) all.dropLast = .ok directory
  name : last ≠ "." ∧ last ≠ ".." ∧ last.utf8ByteSize ≤ longestName
  plain : wantsDirectory path = false
  free : files.node? (directory ++ [last]) ≠ some .directory

theorem child_eq_ok_iff {directory : Location} {name : String} {node : Option Node} :
    files.child directory name = .ok node ↔
      name.utf8ByteSize ≤ longestName ∧ node = files.node? (directory ++ [name]) := by
  unfold child
  split
  · next long => exact iff_of_false (fun h => nomatch h) fun h => Nat.not_lt.mpr h.1 long
  · next short =>
    rw [Except.ok.injEq, eq_comm]
    exact (and_iff_right (Nat.not_lt.mp short)).symm

theorem createLocation_eq_ok_iff {path : String} {location : Location} :
    files.createLocation path = .ok location ↔
      ∃ directory last, files.Leads path directory last ∧ location = directory ++ [last] := by
  unfold createLocation
  rw [bind_eq_ok_iff]
  constructor
  · rintro ⟨all, isPath, h⟩
    cases isLast : all.getLast? with
    | none =>
      rw [isLast] at h
      cases h
    | some last =>
      rw [isLast] at h
      obtain ⟨directory, walks, h⟩ := bind_eq_ok_iff.mp h
      by_cases special : last = "." ∨ last = ".." ∨ wantsDirectory path = true
      · rw [if_pos special] at h
        cases h
      · rw [if_neg special] at h
        obtain ⟨node, isChild, h⟩ := bind_eq_ok_iff.mp h
        obtain ⟨short, rfl⟩ := child_eq_ok_iff.mp isChild
        rw [not_or, not_or, Bool.not_eq_true] at special
        split at h
        · cases h
        · next free =>
          obtain rfl := Except.ok.inj h
          exact ⟨directory, last, ⟨⟨all, isPath, isLast, walks⟩,
            ⟨special.1, special.2.1, short⟩, special.2.2, free⟩, rfl⟩
  · rintro ⟨directory, last, leads, rfl⟩
    obtain ⟨all, isPath, isLast, walks⟩ := leads.way
    refine ⟨all, isPath, ?_⟩
    have special : ¬(last = "." ∨ last = ".." ∨ wantsDirectory path = true) := by
      simp [leads.name.1, leads.name.2.1, leads.plain]
    have isChild : files.child directory last = .ok (files.node? (directory ++ [last])) :=
      child_eq_ok_iff.mpr ⟨leads.name.2.2, rfl⟩
    rw [isLast]
    refine bind_eq_ok_iff.mpr ⟨directory, walks, ?_⟩
    rw [if_neg special]
    refine bind_eq_ok_iff.mpr ⟨_, isChild, ?_⟩
    split
    · next taken => exact absurd taken leads.free
    · rfl

theorem SameDirectories.leads (same : SameDirectories files after) {path : String}
    {directory : Location} {last : String} (h : files.Leads path directory last) :
    after.Leads path directory last where
  way := by
    obtain ⟨all, isPath, isLast, walks⟩ := h.way
    exact ⟨all, isPath, isLast, by rw [same.start]; exact same.walk walks⟩
  name := h.name
  plain := h.plain
  free := by
    rw [ne_eq, same.directory]
    exact h.free

theorem SameDirectories.createLocation_iff (same : SameDirectories files after) {path : String}
    {location : Location} :
    after.createLocation path = .ok location ↔ files.createLocation path = .ok location := by
  rw [createLocation_eq_ok_iff, createLocation_eq_ok_iff]
  constructor
  · rintro ⟨directory, last, leads, rfl⟩
    exact ⟨directory, last, same.symm.leads leads, rfl⟩
  · rintro ⟨directory, last, leads, rfl⟩
    exact ⟨directory, last, same.leads leads, rfl⟩

/-- What is created is not the root and was no directory. -/
theorem createLocation_free {path : String} {location : Location}
    (h : files.createLocation path = .ok location) :
    location ≠ [] ∧ files.node? location ≠ some .directory := by
  obtain ⟨directory, last, leads, rfl⟩ := createLocation_eq_ok_iff.mp h
  exact ⟨by simp, leads.free⟩

/-- The path at which a file is created is where it is read. -/
theorem readPath_of_createLocation {path : String} {location : Location}
    (created : files.createLocation path = .ok location) :
    files.readPath path = files.read location := by
  obtain ⟨directory, last, leads, rfl⟩ := createLocation_eq_ok_iff.mp created
  obtain ⟨all, isPath, isLast, walks⟩ := leads.way
  have isChild : files.child directory last = .ok (files.node? (directory ++ [last])) :=
    child_eq_ok_iff.mpr ⟨leads.name.2.2, rfl⟩
  have special : ¬(last = "." ∨ last = "..") := by simp [leads.name.1, leads.name.2.1]
  have plain : ¬wantsDirectory path = true := by simp [leads.plain]
  rw [readPath, locate, isPath]
  simp only [bind, Except.bind, isLast, walks, if_neg special, isChild]
  rw [read]
  match stands : files.node? (directory ++ [last]) with
  | none => rfl
  | some .directory => exact absurd stands leads.free
  | some (.file _) | some .sink | some .full => simp [plain, pure, Except.pure, read, stands]

/-- A file is read at the path at which it was created. -/
theorem readPath_created {path : String} {location : Location} {content : List UInt8}
    (created : files.createLocation path = .ok location) (same : SameDirectories files after)
    (stands : after.node? location = some (.file content)) :
    after.readPath path = .ok content := by
  rw [readPath_of_createLocation (same.createLocation_iff.mpr created), read, stands]

/-! ### Creating -/

theorem agreeOff_truncate (files : Files) (location : Location) :
    AgreeOff [location] files (files.truncate location) := by
  unfold truncate
  split
  · exact agreeOff_put files location _
  · exact agreeOff_put files location _
  · exact .refl _ files

/-- What stands where a file has been created: devices stay as they are. -/
def emptied : Option Node → Option Node
  | none | some (.file _) => some (.file [])
  | some node => some node

@[simp] theorem emptied_emptied (node : Option Node) : emptied (emptied node) = emptied node := by
  rcases node with _ | _ | _ | _ | _ <;> rfl

theorem node?_truncate_eq (files : Files) {location : Location} (root : location ≠ [])
    (other : Location) : (files.truncate location).node? other =
      if other = location then emptied (files.node? other) else files.node? other := by
  split
  · next same =>
    subst same
    unfold truncate
    match stands : files.node? other with
    | none | some (.file _) => exact node?_put_same root _
    | some .directory | some .sink | some .full => exact stands
  · next differs =>
    exact (agreeOff_truncate files location).node other (by simpa using differs)

theorem node?_truncate {location : Location} (ne : location ≠ [])
    (free : files.node? location ≠ some .directory)
    (device : files.node? location ≠ some .sink ∧ files.node? location ≠ some .full) :
    (files.truncate location).node? location = some (.file []) := by
  rw [node?_truncate_eq files ne, if_pos rfl]
  match stands : files.node? location with
  | none | some (.file _) => rfl
  | some .directory => exact absurd stands free
  | some .sink => exact absurd stands device.1
  | some .full => exact absurd stands device.2

theorem room_truncate {location : Location} (ne : location ≠ [])
    (room : files.node? location ≠ some .full) :
    (files.truncate location).node? location ≠ some .full := by
  rw [node?_truncate_eq files ne, if_pos rfl]
  match stands : files.node? location with
  | none | some (.file _) | some .directory | some .sink => simp [emptied]
  | some .full => exact absurd stands room

theorem create_eq_ok_iff {path : String} {location : Location} :
    files.create path = .ok (location, after) ↔
      files.createLocation path = .ok location ∧ after = files.truncate location := by
  rw [create, bind_eq_ok_iff]
  constructor
  · rintro ⟨value, created, h⟩
    obtain ⟨rfl, rfl⟩ := Prod.mk.inj (Except.ok.inj h)
    exact ⟨created, rfl⟩
  · rintro ⟨created, rfl⟩
    exact ⟨location, created, rfl⟩

end SystemCombination.Files
