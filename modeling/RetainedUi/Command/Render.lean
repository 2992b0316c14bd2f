import RetainedUi.Command.Arguments
import RetainedUi.Command.Outcome
import RetainedUi.Config.File
import RetainedUi.Session.Basic
import RetainedUi.Sink.Selected

/-!
# Rendering a patch

`render` applies a patch to an empty tree and asks for a number of frames. Options override what the
configuration file says.
-/

namespace RetainedUi

namespace RenderArgs

/-- The configuration with what the options say in place. -/
def override (args : RenderArgs) (c : Config) : Config where
  width := args.width.getD c.width
  height := args.height.getD c.height
  deviceType := args.device.getD c.deviceType
  nativeSurface := c.nativeSurface
  output.kind := args.format.getD c.output.kind
  output.dir := args.outDir.getD c.output.dir

def configIn (args : RenderArgs) (tree : FileTree) : Except Failure Config :=
  match args.config with
  | some path => (Config.ofFile tree path).map args.override
  | none => .ok (args.override {})

end RenderArgs

/-! ## Frames -/

/-- The nanoseconds from one frame to the next. -/
def frameInterval : Nat := 16666667

/-- The time of a frame, as far as 64 bits can say. -/
def frameTime (i : Nat) : Nat := min (i * frameInterval) 18446744073709551615

/-- The line about a frame that the sink refused. -/
def FrameReport.note? (r : FrameReport) : Option String :=
  match r.outcome with
  | .sinkFailed e =>
    let index := match r.index with
      | some i => s!"Some({i})"
      | none => "None"
    some s!"frame {index}: {e.message}"
  | _ => none

namespace Session

variable {σ : Type} [FrameSink σ]

/-- Asks for `count` frames from the time of frame `i` on; gives the lines about those refused. -/
def renderFrames (s : Session σ) (i : Nat) : (count : Nat) → List String × Session σ
  | 0 => ([], s)
  | count + 1 =>
    let (report, s) := s.beginFrame (frameTime i)
    let (notes, s) := s.renderFrames (i + 1) count
    (report.note?.toList ++ notes, s)

end Session

/-! ## The command -/

/-- The line about a patch that was not applied as a whole. -/
def PatchReport.note? (r : PatchReport) : Option String :=
  if r.isClean then none
  else some s!"patch: {r.applied} applied, {r.rejected} rejected, status {r.status.detail}"

/-- What a whole rendering with a sink did. -/
structure Rendering (σ : Type) where
  sink : σ
  notes : List String
  /-- How many frames the sink took. -/
  presented : Nat
  /-- How many frames the sink refused. -/
  refused : Nat
  finish : Except Failure Unit

section Rendering

variable {σ : Type} [FrameSink σ]

/-- Ends a session in which frames were rendered, with the line about its patch and those about its
frames. -/
def Session.endRendering (s : Session σ) (patchNote : Option String) (frameNotes : List String) :
    Rendering σ :=
  let (finish, s') := s.destroy
  { sink := s'.sink
    notes := patchNote.toList ++ frameNotes
    presented := s.stats.framesPresented
    refused := frameNotes.length
    finish }

/-- Renders `frames` frames of a patch in a new session, and ends it. -/
def Session.render (s : Session σ) (patch : Bytes) (frames : Nat) : Rendering σ :=
  let (report, s) := s.applyPatch patch
  let (notes, s) := s.renderFrames 0 frames
  s.endRendering report.note? notes

/-- Renders `frames` frames of a patch in a session of its own. -/
def renderPatch (config : Config) (sink : σ) (patch : Bytes) (frames : Nat) :
    Except (Failure × σ) (Rendering σ) :=
  (Session.create config sink).map (·.render patch frames)

end Rendering

namespace Rendering

variable {σ : Type}

/-- Why a rendering of `requested` frames ended badly, if it did. -/
def failure? (r : Rendering σ) (requested : Nat) : Option CommandFailure :=
  match r.finish with
  | .error e => some (.failure e)
  | .ok () => if 0 < r.refused then some (.framesFailed r.refused requested) else none

/-- The lines of a rendering. The last is about the frames taken, and only said at a good end. -/
def allNotes (r : Rendering σ) (requested : Nat) (dir : String) : List String :=
  if (r.failure? requested).isSome then r.notes
  else r.notes ++ [s!"rendered {r.presented} frame(s) to {dir}"]

end Rendering

/-- Renders frames of a patch with a configuration. -/
def renderWith (config : Config) (patch : Bytes) (frames : Nat) (tree : FileTree) : Outcome :=
  match renderPatch config (SelectedSink.ofConfig config.output tree) patch frames with
  | .error (e, sink) => .ofFailure sink.tree e
  | .ok r =>
    { tree := r.sink.tree
      notes := r.allNotes frames config.output.dir
      failure := r.failure? frames }

/-- Renders the frames that the options ask for. -/
def render (args : RenderArgs) (tree : FileTree) : Outcome :=
  match args.configIn tree with
  | .error e => .ofFailure tree e
  | .ok config =>
    match tree.read args.patch with
    | .error e => .ofFailure tree (.file .readPatch args.patch e)
    | .ok content => renderWith config content.toBytes args.frames tree

end RetainedUi
