import SystemCombination.IoError

/-! A tree of files: directories, regular files and two devices. Paths are resolved from the root
or from a working directory; opening for reading and creating for writing are refused for the
reasons, and in the order, of a Unix system. -/

namespace SystemCombination

/-- The names on the way from the root. -/
abbrev Location := List String

inductive Node
  | directory
  | file (content : List UInt8)
  /-- The device that is empty and takes everything. -/
  | sink
  /-- The device that has no room for anything. What is read from it is a line without end. -/
  | full
deriving DecidableEq, Repr

structure Files where
  /-- What is where; the root is a directory and is not listed. -/
  nodes : List (Location × Node)
  /-- The working directory. -/
  home : Location

namespace Files

def node? (files : Files) (location : Location) : Option Node :=
  if location = [] then some .directory else files.nodes.lookup location

/-- The tree with a node put at a location. -/
def put (files : Files) (location : Location) (node : Node) : Files :=
  { files with nodes := (location, node) :: files.nodes.filter fun entry => entry.1 ≠ location }

@[simp] theorem home_put (files : Files) (location : Location) (node : Node) :
    (files.put location node).home = files.home := rfl

theorem node?_put_same {files : Files} {location : Location} (h : location ≠ []) (node : Node) :
    (files.put location node).node? location = some node := by
  simp [node?, put, h]

/-- Dropping what stands at one location changes no other. -/
theorem lookup_dropped {location other : Location} (h : other ≠ location)
    (nodes : List (Location × Node)) :
    (nodes.filter fun entry => entry.1 ≠ location).lookup other = nodes.lookup other := by
  induction nodes with
  | nil => rfl
  | cons entry nodes ih =>
    obtain ⟨place, node⟩ := entry
    by_cases dropped : place = location
    · have differs : (other == place) = false := beq_eq_false_iff_ne.mpr (dropped ▸ h)
      rw [List.filter_cons_of_neg (by simp [dropped]), List.lookup_cons, differs]
      exact ih
    · rw [List.filter_cons_of_pos (by simp [dropped]), List.lookup_cons, List.lookup_cons, ih]

theorem node?_put_other {files : Files} {location other : Location} (h : other ≠ location)
    (node : Node) : (files.put location node).node? other = files.node? other := by
  have differs : (other == location) = false := beq_eq_false_iff_ne.mpr h
  simp only [node?, put, List.lookup_cons, differs]
  rw [lookup_dropped h]

/-- The longest name, in bytes. -/
def longestName : Nat := 255

/-- The longest path, in bytes. -/
def longestPath : Nat := 4095

/-- The names in a path that has the form of one. -/
def names (path : String) : Except IoError (List String) :=
  if '\x00' ∈ path.toList then .error .nulInName
  else if path = "" then .error .notFound
  else if longestPath < path.utf8ByteSize then .error .nameTooLong
  else .ok (((path.toList.splitOn '/').filter fun name => !name.isEmpty).map String.ofList)

/-- Where a path starts: a path that begins with a slash starts from the root. -/
def start (files : Files) (path : String) : Location :=
  if path.toList.head? = some '/' then [] else files.home

/-- A path that ends with a slash can only name a directory. -/
def wantsDirectory (path : String) : Bool := path.toList.getLast? = some '/'

/-- What stands under a name in a directory. -/
def child (files : Files) (directory : Location) (name : String) : Except IoError (Option Node) :=
  if longestName < name.utf8ByteSize then .error .nameTooLong
  else .ok (files.node? (directory ++ [name]))

/-- The directory that a name leads to from a directory. -/
def enter (files : Files) (directory : Location) (name : String) : Except IoError Location :=
  if name = "." then .ok directory
  else if name = ".." then .ok directory.dropLast
  else
    match files.child directory name with
    | .error error => .error error
    | .ok (some .directory) => .ok (directory ++ [name])
    | .ok (some _) => .error .notADirectory
    | .ok none => .error .notFound

/-- The directory that names lead to, one after the other. -/
def walk (files : Files) (directory : Location) (names : List String) : Except IoError Location :=
  names.foldlM files.enter directory

/-- The location that is opened for reading. A directory can be opened, though not read. -/
def locate (files : Files) (path : String) : Except IoError Location := do
  let names ← names path
  match names.getLast? with
  | none => return files.start path
  | some last =>
    let directory ← files.walk (files.start path) names.dropLast
    if last = "." ∨ last = ".." then files.enter directory last
    else
      match ← files.child directory last with
      | none => throw .notFound
      | some .directory => return directory ++ [last]
      | some _ =>
        if wantsDirectory path then throw .notADirectory else return directory ++ [last]

/-- What reading at an opened location yields. -/
def read (files : Files) (location : Location) : Except IoError (List UInt8) :=
  match files.node? location with
  | some .directory => .error .isADirectory
  | some (.file content) => .ok content
  | some .sink => .ok []
  | some .full => .error .noMemory
  | none => .error .notFound

/-- Open a path and read it. -/
def readPath (files : Files) (path : String) : Except IoError (List UInt8) := do
  files.read (← files.locate path)

/-- The location that is created for writing. -/
def createLocation (files : Files) (path : String) : Except IoError Location := do
  let names ← names path
  match names.getLast? with
  | none => throw .isADirectory
  | some last =>
    let directory ← files.walk (files.start path) names.dropLast
    if last = "." ∨ last = ".." ∨ wantsDirectory path then throw .isADirectory
    match ← files.child directory last with
    | some .directory => throw .isADirectory
    | _ => return directory ++ [last]

/-- The tree in which the file at a location is there and empty; devices stay as they are. -/
def truncate (files : Files) (location : Location) : Files :=
  match files.node? location with
  | none | some (.file _) => files.put location (.file [])
  | some _ => files

/-- Create the file at a path, or empty it. -/
def create (files : Files) (path : String) : Except IoError (Location × Files) := do
  let location ← files.createLocation path
  return (location, files.truncate location)

/-- Bytes written over a content from an offset on. -/
def overwrite (content : List UInt8) (offset : Nat) (bytes : List UInt8) : List UInt8 :=
  content.take offset ++ (bytes ++ content.drop (offset + bytes.length))

/-- Write bytes at an offset of an opened location. -/
def writeAt (files : Files) (location : Location) (offset : Nat) (bytes : List UInt8) :
    Except IoError Files :=
  match files.node? location with
  | some (.file content) => .ok (files.put location (.file (overwrite content offset bytes)))
  | some .full => .error .noSpace
  | some .directory | some .sink | none => .ok files

/-- The path of a location below the working directory. -/
def relative? (files : Files) (location : Location) : Option String :=
  if files.home.isPrefixOf location then
    some ("/".intercalate (location.drop files.home.length))
  else none

/-- The regular files that are not the same in an earlier tree, with their contents. -/
def altered (before after : Files) : List (Location × List UInt8) :=
  after.nodes.filterMap fun (location, node) =>
    match node with
    | .file content =>
      if before.node? location = some node then none else some (location, content)
    | _ => none

/-- The regular files below the working directory that are not the same in an earlier tree. -/
def changes (before after : Files) : List (String × List UInt8) :=
  (altered before after).filterMap fun (location, content) =>
    (after.relative? location).map fun path => (path, content)

/-- The directories on the way to a location, and the location itself. -/
def ancestors (location : Location) : List Location :=
  (List.range location.length).map fun count => location.take (count + 1)

/-- The tree with a node put at a path below the working directory, and the directories on the way
to it. -/
def plant (files : Files) (path : String) (node : Node) : Files :=
  let names := ((path.toList.splitOn '/').filter fun name => !name.isEmpty).map String.ofList
  let location := files.home ++ names
  let parents := (ancestors location).dropLast
  (parents.foldl (fun files parent => files.put parent .directory) files).put location node

/-- A tree with the two devices and an empty working directory. -/
def bare (home : Location) : Files where
  nodes :=
    [(["dev"], .directory), (["dev", "null"], .sink), (["dev", "full"], .full)] ++
      (ancestors home).map fun location => (location, .directory)
  home

/-- A tree with regular files below its working directory, and with directories where no content
is given. -/
def ofEntries (entries : List (String × Option (List UInt8))) : Files :=
  entries.foldl (fun files (path, content) =>
    files.plant path (content.elim .directory .file)) (bare ["tmp", "work"])

end Files

end SystemCombination
