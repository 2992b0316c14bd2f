import RetainedUi.Command.Arguments
import RetainedUi.Command.Paths
import RetainedUi.Command.Run

/-!
# The command line

What the system has at the paths of a command is taken into a file tree, the command is run on the
tree, and what it changed is put back.
-/

namespace RetainedUi

/-- The code of the system for a directory that is read as a file. -/
def directoryCode : UInt32 := 21

/-- What the system has at a path. -/
def systemEntry? (path : String) : IO (Option FileEntry) := do
  match ← (IO.FS.readBinFile path).toBaseIO with
  | .ok bytes => return some (.file (.data bytes.toList))
  | .error (.inappropriateType _ code _) =>
    return if code = directoryCode then some .directory else none
  | .error (.permissionDenied file code detail) => throw (.permissionDenied file code detail)
  | .error _ => return none

/-- Adds what the system has along a path. -/
def FileTree.load (tree : FileTree) (path : String) : IO FileTree := do
  let step := fun (tree, (l : Location)) name => do
    let next := l.enter name
    let .within _ path := next | return (tree, next)
    match ← systemEntry? path with
    | some entry => return (FileTree.mk (tree.entries.insert path entry), next)
    | none => return (tree, next)
  return (← (Path.names path).foldlM step (tree, start path)).1

/-- Gives the system what differs from the tree before. -/
def FileTree.save (tree before : FileTree) : IO Unit := do
  for (path, entry) in tree.entries.toList do
    if before.entries[path]? ≠ some entry then
      match entry with
      | .directory => IO.FS.createDir path
      | .file content => IO.FS.writeBinFile path ⟨content.toBytes.toArray⟩

/-- The text for a command line that asks for nothing that can be done. -/
def usage : String :=
  "usage: canopy render --patch FILE [--frames N] [--config FILE] [--width N] [--height N]\n" ++
  "                     [--device N] [--out-dir DIR] [--format ppm|png|null]\n" ++
  "       canopy dump --patch FILE\n" ++
  "       canopy demo --out FILE\n" ++
  "       canopy --version\n"

/-- Runs a command on the files of the system. -/
def Command.runOnSystem (command : Command) : IO UInt32 := do
  let known ← (command.paths .empty).foldlM FileTree.load .empty
  let tree ← (command.paths known).foldlM FileTree.load known
  let outcome := command.run tree
  outcome.tree.save tree
  IO.print outcome.output
  IO.eprint outcome.errorText
  return .ofNat outcome.code

end RetainedUi

/-- Does what the command line asks for. -/
def main (args : List String) : IO UInt32 := do
  match RetainedUi.Command.ofArgs? args with
  | some command => command.runOnSystem
  | none => do
    IO.eprint RetainedUi.usage
    return 2
