import RetainedUi.Command.Render
import RetainedUi.Proofs.Session.Protocol

/-!
# Options over a configuration file

A configuration file is refused for what it says itself. Past that, options that stand over a file do
what a file with their values would do.
-/

namespace RetainedUi

/-! ## Selected sinks -/

namespace SelectedSink

theorem tree_ofConfig (c : OutputConfig) (tree : FileTree) : (ofConfig c tree).tree = tree := by
  rw [ofConfig]
  cases c.kind <;> rfl

/-- A sink that does not start could not make its directory. -/
theorem eq_of_start_error {c : SinkConfig} {sink refusing : SelectedSink} {e : Failure}
    (h : FrameSink.start c sink = (.error e, refusing)) :
    ∃ dir cause, e = .file .makeOutputDir dir cause := by
  cases sink with
  | memory s tree => cases h
  | null s tree => cases h
  | files s =>
      simp only [FrameSink.start] at h
      split at h
      · cases h
      · cases h
        exact ⟨_, _, rfl⟩

theorem finish_eq (sink : SelectedSink) : FrameSink.finish sink = (.ok (), sink) := by
  cases sink <;> rfl

end SelectedSink

/-- A session with a selected sink ends well. -/
theorem Session.fst_destroy_selected (s : Session SelectedSink) : s.destroy.1 = .ok () := by
  change s.shutdown.1 = .ok ()
  rw [shutdown]
  split
  · rfl
  · exact congrArg Prod.fst s.sink.finish_eq

/-! ## Rendering with a configuration -/

section RenderWith

variable {c : Config} {tree : FileTree} {e : ConfigError}

theorem renderWith_of_invalid (h : c.validate = .error e) (patch : Bytes) (frames : Nat) :
    renderWith c patch frames tree = .ofFailure tree (.validation e) := by
  rw [renderWith, renderPatch, Session.create, h]
  exact congrArg (Outcome.ofFailure · _) (SelectedSink.tree_ofConfig c.output tree)

theorem renderWith_of_created {s : Session SelectedSink}
    (h : Session.create c (SelectedSink.ofConfig c.output tree) = .ok s) (patch : Bytes)
    (frames : Nat) :
    let r := s.render patch frames
    renderWith c patch frames tree =
      { tree := r.sink.tree, notes := r.allNotes frames c.output.dir, failure := r.failure? frames } := by
  rw [renderWith, renderPatch, h]
  rfl

/-- With a configuration that is valid, nothing that fails is a validation. -/
theorem failure_renderWith_ne {usable : Surface × Device} (h : c.validate = .ok usable) (patch : Bytes)
    (frames : Nat) : (renderWith c patch frames tree).failure ≠ some (.failure (.validation e)) := by
  cases hcreate : Session.create c (SelectedSink.ofConfig c.output tree) with
  | error refusal =>
      obtain ⟨cause, sink⟩ := refusal
      have hcause : ∃ dir reason, cause = .file .makeOutputDir dir reason := by
        rw [Session.create, h] at hcreate
        dsimp only at hcreate
        split at hcreate
        · rename_i hstart
          cases hcreate
          exact SelectedSink.eq_of_start_error hstart
        · cases hcreate
      obtain ⟨dir, reason, rfl⟩ := hcause
      rw [renderWith, renderPatch, hcreate]
      simp [Except.map, Outcome.ofFailure]
  | ok s =>
      rw [renderWith_of_created hcreate]
      have hfinish : (s.render patch frames).finish = .ok () := Session.fst_destroy_selected _
      simp only [Rendering.failure?, hfinish]
      split <;> simp

end RenderWith

/-! ## Rendering with a file -/

section Overrides

variable {args : RenderArgs} {tree : FileTree} {path text : String} {file : Config}
  {content : FileContent}

theorem render_eq (hconfig : args.config = some path) (htext : tree.readText path = .ok text)
    (hfile : Config.ofJson text = .ok file) (hpatch : tree.read args.patch = .ok content) :
    render args tree =
      match file.validate with
      | .error e => .ofFailure tree (.validation e)
      | .ok _ => renderWith (args.override file) content.toBytes args.frames tree := by
  rw [render, RenderArgs.configIn, hconfig]
  simp only [Config.ofFile, htext, hfile, hpatch, Except.mapError, bind, Except.bind]
  cases file.validate <;> rfl

/-- A configuration file that no session can work with is refused with its own error, whatever the
options say. With any other, rendering is what it is with the values of the options in the file: it
fails as a validation exactly if this configuration is invalid, and with its error, and otherwise a
session is created from it. -/
theorem render_overrides (hconfig : args.config = some path) (htext : tree.readText path = .ok text)
    (hfile : Config.ofJson text = .ok file) (hpatch : tree.read args.patch = .ok content) :
    let merged : Config :=
      { width := args.width.getD file.width
        height := args.height.getD file.height
        deviceType := args.device.getD file.deviceType
        nativeSurface := file.nativeSurface
        output := ⟨args.format.getD file.output.kind, args.outDir.getD file.output.dir⟩ }
    let sink := SelectedSink.ofConfig merged.output tree
    (∀ e, file.validate = .error e → render args tree = .ofFailure tree (.validation e)) ∧
    ∀ usable, file.validate = .ok usable →
      (∀ path' text', tree.readText path' = .ok text' → Config.ofJson text' = .ok merged →
        render args tree =
          render { patch := args.patch, frames := args.frames, config := some path' } tree) ∧
      (∀ e, (render args tree).failure = some (.failure (.validation e)) ↔
        merged.validate = .error e) ∧
      ∀ surface device started, merged.validate = .ok (surface, device) →
        FrameSink.start (Session.sinkConfig surface device) sink = (.ok (), started) →
        ∃ s, Session.create merged sink = .ok s ∧ s.config = merged ∧
          let r := s.render content.toBytes args.frames
          render args tree =
            { tree := r.sink.tree
              notes := r.allNotes args.frames merged.output.dir
              failure := r.failure? args.frames } := by
  intro merged sink
  have hmerged : args.override file = merged := rfl
  have hrender := render_eq hconfig htext hfile hpatch
  rw [hmerged] at hrender
  clear_value merged
  refine ⟨fun e he => by rw [hrender, he], fun usable husable => ?_⟩
  rw [husable] at hrender
  dsimp only at hrender
  rw [hrender]
  refine ⟨?_, fun e => ?_, ?_⟩
  · intro path' text' htext' hmerged'
    have hother : render { patch := args.patch, frames := args.frames, config := some path' } tree = _ :=
      render_eq rfl htext' hmerged' hpatch
    rw [hother]
    cases hvalid : merged.validate with
    | error e => exact renderWith_of_invalid hvalid _ _
    | ok usable => rfl
  · cases hvalid : merged.validate with
    | error e' =>
        rw [renderWith_of_invalid hvalid]
        simp only [Outcome.ofFailure, Option.some.injEq, CommandFailure.failure.injEq,
          Failure.validation.injEq, Except.error.injEq]
    | ok usable => exact iff_of_false (failure_renderWith_ne hvalid _ _) nofun
  · intro surface device started hvalid hstart
    have hcreate := Session.create_of_started hvalid hstart
    exact ⟨_, hcreate, rfl, renderWith_of_created hcreate _ _⟩

/-! ### Three files -/

/-- A configuration whose surface has no pixels. -/
def flatText : String := "\x7b\"width\":0\x7d"

/-- A configuration that keeps no frames. -/
def nullText : String := "\x7b\"output\":\x7b\"kind\":\"null\"\x7d\x7d"

/-- The same with a narrow surface. -/
def narrowText : String := "\x7b\"width\":5,\"output\":\x7b\"kind\":\"null\"\x7d\x7d"

/-- The three configurations as the files `f`, `g` and `h`, and a patch without records as `p`. -/
def sampleTree : FileTree where
  entries := .ofList [
    ("f", FileEntry.file (.data (Utf8.encode flatText))),
    ("g", FileEntry.file (.data (Utf8.encode nullText))),
    ("h", FileEntry.file (.data (Utf8.encode narrowText))),
    ("p", FileEntry.file (.data [1, 0, 0, 0, 0, 0]))]

theorem eq_ok_of_toOption {ε α : Type} {x : Except ε α} {a : α} (h : x.toOption = some a) : x = .ok a := by
  cases x with
  | error e => cases h
  | ok b => exact congrArg Except.ok (Option.some.inj h)

theorem render_overrides_narrow :
    render { patch := "p", config := some "g", width := some 5 } sampleTree =
      render { patch := "p", config := some "h" } sampleTree := by
  have htext : sampleTree.readText "g" = .ok nullText := by decide +kernel
  have hfile : Config.ofJson nullText = .ok { output.kind := .null } :=
    eq_ok_of_toOption (by decide +kernel)
  have hpatch : sampleTree.read "p" = .ok (.data [1, 0, 0, 0, 0, 0]) := by decide +kernel
  have hvalid : Config.validate { output.kind := .null } = .ok (⟨640, 480⟩, .gl) := by rfl
  have htext' : sampleTree.readText "h" = .ok narrowText := by decide +kernel
  have hfile' : Config.ofJson narrowText = .ok { width := 5, output.kind := .null } :=
    eq_ok_of_toOption (by decide +kernel)
  have hconfig : RenderArgs.config { patch := "p", config := some "g", width := some 5 } = some "g" := rfl
  exact ((render_overrides hconfig htext hfile hpatch).2 _ hvalid).1 "h" narrowText htext' hfile'

/-- A width over a file without one comes too late, though it would do as the width of the file. -/
theorem render_refuses_flat :
    sampleTree.readText "f" = .ok flatText ∧ Config.ofJson flatText = .ok { width := 0 } ∧
      sampleTree.read "p" = .ok (.data [1, 0, 0, 0, 0, 0]) ∧
      Config.validate { width := 5, output.kind := .null } = .ok (⟨5, 480⟩, .gl) ∧
      (render { patch := "p", config := some "f", width := some 5, format := some .null }
        sampleTree).failure = some (.failure (.validation (.badSurface .noPixels))) := by
  exact ⟨by decide +kernel, eq_ok_of_toOption (by decide +kernel), by decide +kernel, rfl,
    by decide +kernel⟩

end Overrides

end RetainedUi
