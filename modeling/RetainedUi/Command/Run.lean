import RetainedUi.Command.Listing
import RetainedUi.Command.Render
import RetainedUi.Command.Sample

/-!
# Running a command
-/

namespace RetainedUi

def versionLine : String := "canopy 0.1.0\n"

/-- Lists the records of a patch file. -/
def dump (patch : String) (tree : FileTree) : Outcome :=
  match tree.read patch with
  | .error e => .ofFailure tree (.file .readPatch patch e)
  | .ok content =>
    let bytes := content.toBytes
    { tree, output := ((decodePatch bytes).listed bytes.length).text ++ "\n" }

/-- Writes the sample patch, making the directory of the file first. -/
def demo (out : String) (tree : FileTree) : Outcome :=
  let parent := (Path.parent? out).getD ""
  match tree.makeDirectories parent with
  | (.error e, tree) => .ofFailure tree (.file .makePatchDir parent e)
  | (.ok (), tree) =>
    match tree.write out (.data samplePatch) with
    | .error e => .ofFailure tree (.file .writePatch out e)
    | .ok tree => { tree, notes := [s!"wrote {out} ({samplePatch.length} bytes)"] }

/-- Does what a command asks for. -/
def Command.run (tree : FileTree) : Command → Outcome
  | render args => RetainedUi.render args tree
  | dump patch => RetainedUi.dump patch tree
  | demo out => RetainedUi.demo out tree
  | version => { tree, output := versionLine }

end RetainedUi
