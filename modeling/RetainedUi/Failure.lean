import RetainedUi.Config.Basic
import RetainedUi.Files.FileError
import RetainedUi.Scene.EditError
import RetainedUi.Wire.DecodeError

/-!
# Failures

What a session, a sink or a command reports when it cannot do what was asked.
-/

namespace RetainedUi

/-- Why a sink refuses a frame. -/
inductive OutputError where
  | notStarted
  /-- The frame and the surface differ in size. -/
  | sizeMismatch (frame surface : Surface)
  /-- What a host's sink says is wrong. -/
  | other (text : String)
deriving DecidableEq, Repr

def OutputError.message : OutputError → String
  | notStarted => "sink not started"
  | sizeMismatch f s =>
    s!"frame size mismatch: got {f.width}x{f.height}, expected {s.width}x{s.height}"
  | other text => text

/-- What was to be done with a file. -/
inductive FileTask where
  | readConfig
  | makeOutputDir
  | createFrame
  | writeFrame
  | readPatch
  | makePatchDir
  | writePatch
deriving DecidableEq, Repr

/-- The wording of a task that failed. -/
def FileTask.message (path : String) : FileTask → String
  | readConfig => s!"failed to read config '{path}'"
  | makeOutputDir => s!"failed to create output directory '{path}'"
  | createFrame => s!"failed to create '{path}'"
  | writeFrame => s!"failed to write '{path}'"
  | readPatch => s!"read patch '{path}'"
  | makePatchDir => s!"create output dir '{path}'"
  | writePatch => s!"write patch '{path}'"

/-- Why something asked for was not done. -/
inductive Failure where
  | validation (cause : ConfigError)
  | decode (cause : DecodeError)
  | edit (cause : EditError)
  | output (cause : OutputError)
  | file (task : FileTask) (path : String) (cause : FileError)
  /-- What a host says went wrong. -/
  | other (text : String)
deriving DecidableEq, Repr

namespace Failure

/-- The wording of a failure; a file failure tells what was to be done. -/
def message : Failure → String
  | validation cause => "validation error: " ++ cause.message
  | decode cause => "decode error: " ++ cause.message
  | edit cause => "edit error: " ++ cause.message
  | output cause => "output error: " ++ cause.message
  | file task path _ => task.message path
  | other text => text

/-- What a file failure came from. -/
def cause? : Failure → Option FileError
  | file _ _ cause => some cause
  | _ => none

end Failure

end RetainedUi
