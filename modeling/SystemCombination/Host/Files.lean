import SystemCombination.Files.Basic
import SystemCombination.Request.Basic

/-! The files of the machine. What stands on the way along the paths of a request is read into a
tree of files before the request is served, and the files that are not the same afterwards are
written back. -/

namespace SystemCombination.Host

/-- The path of a location. -/
def pathOf (location : Location) : String := "/" ++ "/".intercalate location

/-- The number of a system error; some libraries report it negated. -/
def errorNumber (code : UInt32) : Nat := if code < 0x80000000 then code.toNat else (0 - code).toNat

/-- What the machine has at a location, if it has anything there that can be read. -/
def node? (location : Location) : IO (Option Node) := do
  match ← (IO.FS.readBinFile (pathOf location)).toBaseIO with
  | .ok content => return some (.file content.toList)
  | .error (.inappropriateType _ code _) =>
    return if errorNumber code = 21 then some .directory else none
  | .error _ => return none

/-- The tree with what stands on the way along names from a location. -/
def observe (files : Files) (location : Location) : List String → IO Files
  | [] => return files
  | "." :: names => observe files location names
  | ".." :: names => observe files location.dropLast names
  | name :: names => do
    let next := location ++ [name]
    if (files.node? next).isSome then observe files next names
    else
      match ← node? next with
      | some node => observe (files.put next node) next names
      | none => return files

/-- The tree with what stands on the way along paths. -/
def observePaths (files : Files) : List String → IO Files
  | [] => return files
  | path :: paths => do
    let names := (Files.names path).toOption.getD []
    observePaths (← observe files (files.start path) names) paths

/-- The tree of what the given paths lead to. -/
def files (paths : List String) : IO Files := do
  let home := Files.names (toString (← IO.currentDir))
  observePaths (.bare (home.toOption.getD [])) paths

/-- Write back what is not the same any more. -/
def store (before after : Files) : IO Unit :=
  (Files.altered before after).forM fun (location, content) =>
    IO.FS.writeBinFile (pathOf location) ⟨content.toArray⟩

end SystemCombination.Host
