import RetainedUi.Config.Json
import RetainedUi.Failure
import RetainedUi.Image.Content
import RetainedUi.Text.Utf8

/-!
# Configuration files
-/

namespace RetainedUi

def FileTree.readText (t : FileTree) (path : String) : Except FileError String := do
  match Utf8.decode? (← t.read path).toBytes with
  | some text => return text
  | none => throw .notUtf8

/-- The configuration that a file says, if a session can work with it. -/
def Config.ofFile (t : FileTree) (path : String) : Except Failure Config := do
  let text ← (t.readText path).mapError (.file .readConfig path)
  let c ← (Config.ofJson text).mapError fun e => .validation (.badFile path e.message)
  let _ ← c.validate.mapError .validation
  return c

end RetainedUi
