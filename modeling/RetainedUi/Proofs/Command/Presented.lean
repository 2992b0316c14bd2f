import RetainedUi.Command.Render
import RetainedUi.Proofs.Session.Protocol

/-!
# Renderings that end well

A rendering ends well if its sink accepts everything it is told, and then the sink has all frames but
those that there was no room for.
-/

namespace RetainedUi

/-! ## Accepted frames -/

/-- A sink accepts frames one after the other, the first with the index `i`, and is `last` after them. -/
inductive Accepts {σ : Type} [FrameSink σ] : σ → Nat → List Frame → σ → Prop
  | nil {sink : σ} {i : Nat} : Accepts sink i [] sink
  | cons {sink next last : σ} {i : Nat} {f : Frame} {fs : List Frame} :
      FrameSink.push i f sink = (.ok (), next) → Accepts next (i + 1) fs last →
      Accepts sink i (f :: fs) last

theorem Accepts.append {σ : Type} [FrameSink σ] {sink next last : σ} {i : Nat} {fs gs : List Frame}
    (h : Accepts sink i fs next) (h' : Accepts next (i + fs.length) gs last) :
    Accepts sink i (fs ++ gs) last := by
  induction h with
  | nil => exact h'
  | cons hpush _ ih =>
      refine .cons hpush (ih ?_)
      rwa [List.length_cons, Nat.add_comm _ 1, ← Nat.add_assoc] at h'

/-! ## Renderings with and without room -/

/-- The requests for frames from frame `i` on, each of which may find no room. -/
def frameCalls (i : Nat) : List Bool → List HostCall
  | [] => []
  | room :: rooms => .frame (frameTime i) room :: frameCalls (i + 1) rooms

namespace Session

variable {σ : Type} [FrameSink σ]

/-- Renders frames of a patch, of which some may find no room, and ends the session. -/
def renderIn (s : Session σ) (patch : Bytes) (rooms : List Bool) : Rendering σ :=
  let (report, s) := s.applyPatch patch
  let (reports, s) := s.run (frameCalls 0 rooms)
  s.endRendering report.note? (reports.filterMap FrameReport.note?)

theorem renderFrames_eq (s : Session σ) (i count : Nat) :
    s.renderFrames i count =
      ((s.run (frameCalls i (.replicate count true))).1.filterMap FrameReport.note?,
        (s.run (frameCalls i (.replicate count true))).2) := by
  induction count generalizing s i with
  | zero => rfl
  | succ count ih =>
      have hnote : ∀ report : FrameReport, [report].filterMap FrameReport.note? = report.note?.toList :=
        fun report => by cases h : report.note? <;> simp [h]
      simp only [renderFrames, ih, List.replicate_succ, frameCalls, run, step, request, ↓reduceIte,
        List.filterMap_append, hnote]

theorem render_eq_renderIn (s : Session σ) (patch : Bytes) (frames : Nat) :
    s.render patch frames = s.renderIn patch (.replicate frames true) := by
  simp only [render, renderIn, renderFrames_eq]

end Session

/-- Renders frames of a patch in a session of its own, where some may find no room. -/
def renderPatchIn {σ : Type} [FrameSink σ] (config : Config) (sink : σ) (patch : Bytes)
    (rooms : List Bool) : Except (Failure × σ) (Rendering σ) :=
  (Session.create config sink).map (·.renderIn patch rooms)

namespace Session

variable {σ : Type}

/-- From `s` to `t` frames are requested with and without room, and the sink accepts those that it is
handed: one for each request with room, unless the surface is too large for any. -/
structure Presents [FrameSink σ] (s : Session σ) (rooms : List Bool) (frames : List Frame)
    (t : Session σ) : Prop where
  surface : t.surface = s.surface
  closed : t.closed = s.closed
  nextFrame : t.nextFrame = s.nextFrame + frames.length
  accepts : Accepts s.sink s.nextFrame frames t.sink
  fits : ∀ f ∈ frames, f.Fits s.surface
  length : frames.length = if s.surface.byteLength ≤ Frame.maxBytes then rooms.count true else 0
  presented : t.stats.framesPresented = s.stats.framesPresented + frames.length

variable [FrameSink σ] {s t u : Session σ} {rooms rooms' : List Bool} {frames frames' : List Frame}

theorem Presents.nothing (hsurface : t.surface = s.surface) (hclosed : t.closed = s.closed)
    (hnext : t.nextFrame = s.nextFrame) (hsink : t.sink = s.sink)
    (hpresented : t.stats.framesPresented = s.stats.framesPresented)
    (hrooms : s.surface.byteLength ≤ Frame.maxBytes → rooms.count true = 0) :
    s.Presents rooms [] t where
  surface := hsurface
  closed := hclosed
  nextFrame := hnext
  accepts := hsink ▸ .nil
  fits _ hf := absurd hf List.not_mem_nil
  length := by
    split
    · exact (hrooms ‹_›).symm
    · rfl
  presented := hpresented

theorem Presents.trans (h : s.Presents rooms frames t) (h' : t.Presents rooms' frames' u) :
    s.Presents (rooms ++ rooms') (frames ++ frames') u where
  surface := h'.surface.trans h.surface
  closed := h'.closed.trans h.closed
  nextFrame := by rw [h'.nextFrame, h.nextFrame, List.length_append, Nat.add_assoc]
  accepts := h.accepts.append (h.nextFrame ▸ h'.accepts)
  fits f hf := by
    rcases List.mem_append.mp hf with hf | hf
    · exact h.fits f hf
    · exact h.surface ▸ h'.fits f hf
  length := by
    rw [List.length_append, h.length, h'.length, h.surface, List.count_append]
    split <;> rfl
  presented := by rw [h'.presented, h.presented, List.length_append, Nat.add_assoc]

theorem presents_applyPatch (s : Session σ) (bytes : Bytes) :
    s.Presents [] [] (s.applyPatch bytes).2 := by
  refine .nothing rfl rfl rfl rfl ?_ fun _ => rfl
  change (s.stats.countPatch (s.applyPatch bytes).1).framesPresented = _
  rw [Stats.countPatch]
  cases (s.applyPatch bytes).1.status <;> rfl

theorem presents_drawFrame {blank : Frame}
    (hblank : Frame.filled? s.surface .background = some blank) (timestamp : Nat)
    (hnote : (s.drawFrame blank timestamp).1.note? = none) :
    s.Presents [true] [blank.paint (Layout.solve s.store s.surface.bounds)]
      (s.drawFrame blank timestamp).2 := by
  have hroom : s.surface.byteLength ≤ Frame.maxBytes := (Option.ite_none_right_eq_some.mp hblank).1
  have hfits := (Frame.fits_of_filled? hblank).paint (Layout.solve s.store s.surface.bounds)
  rcases hpush : FrameSink.push s.nextFrame (blank.paint (Layout.solve s.store s.surface.bounds)) s.sink
    with ⟨e | _, next⟩
  · simp only [drawFrame, hpush, outcomeOf, FrameReport.note?, reduceCtorEq] at hnote
  · simp only [drawFrame, hpush, outcomeOf]
    exact {
      surface := rfl
      closed := rfl
      nextFrame := rfl
      accepts := .cons hpush .nil
      fits := List.forall_mem_singleton.mpr hfits
      length := (if_pos hroom).symm
      presented := rfl }

theorem exists_presents_request (s : Session σ) (timestamp : Nat) (room : Bool)
    (hnote : (s.request timestamp room).1.note? = none) :
    ∃ frames, s.Presents [room] frames (s.request timestamp room).2 := by
  cases room with
  | false => exact ⟨[], .nothing rfl rfl rfl rfl rfl fun _ => rfl⟩
  | true =>
      simp only [request, ↓reduceIte, beginFrame] at hnote ⊢
      cases hblank : Frame.filled? s.surface .background with
      | none =>
          have hlarge : ¬ s.surface.byteLength ≤ Frame.maxBytes := by
            simpa only [Frame.filled?, ite_eq_right_iff, reduceCtorEq, imp_false] using hblank
          exact ⟨[], .nothing rfl rfl rfl rfl rfl fun hroom => absurd hroom hlarge⟩
      | some blank =>
          rw [hblank] at hnote
          exact ⟨_, presents_drawFrame hblank timestamp hnote⟩

theorem exists_presents_run (s : Session σ) (i : Nat) (rooms : List Bool)
    (hnotes : (s.run (frameCalls i rooms)).1.filterMap FrameReport.note? = []) :
    ∃ frames, s.Presents rooms frames (s.run (frameCalls i rooms)).2 := by
  induction rooms generalizing s i with
  | nil => exact ⟨[], .nothing rfl rfl rfl rfl rfl fun _ => rfl⟩
  | cons room rooms ih =>
      rw [frameCalls, run, List.filterMap_append, List.append_eq_nil_iff] at hnotes
      have hnote := List.filterMap_eq_nil_iff.mp hnotes.1 _ List.mem_cons_self
      obtain ⟨frames, h⟩ := s.exists_presents_request (frameTime i) room hnote
      obtain ⟨frames', h'⟩ := ih _ (i + 1) hnotes.2
      exact ⟨frames ++ frames', h.trans h'⟩

theorem destroy_of_open (h : s.closed = false) :
    s.destroy.1 = (FrameSink.finish s.sink).1 ∧ s.destroy.2.sink = (FrameSink.finish s.sink).2 := by
  change s.shutdown.1 = _ ∧ s.shutdown.2.shutdown.2.sink = _
  -- The session is closed by the first shutdown, and the second does nothing.
  have hclosed : s.shutdown.2.closed = true := by
    simp only [shutdown, h, Bool.false_eq_true, ↓reduceIte]
  have hagain : s.shutdown.2.shutdown = (.ok (), s.shutdown.2) := if_pos hclosed
  rw [hagain]
  simp only [shutdown, h, Bool.false_eq_true, ↓reduceIte, and_self]

end Session

/-! ## Whole renderings -/

namespace Rendering

variable {σ : Type}

theorem failure?_eq_none_iff {r : Rendering σ} {requested : Nat} :
    r.failure? requested = none ↔ r.finish = .ok () ∧ r.refused = 0 := by
  rw [failure?]
  cases r.finish with
  | error e => simp only [reduceCtorEq, false_and]
  | ok => simp only [ite_eq_right_iff, reduceCtorEq, imp_false, Nat.not_lt, Nat.le_zero, true_and]

/-- The sink accepts all that it is told: the start, frames of the surface with the indices from nought
on, and the end. There is a frame for each request with room, unless the surface is too large for any. -/
structure Accepted [FrameSink σ] (r : Rendering σ) (config : Config) (sink : σ) (rooms : List Bool)
    (surface : Surface) (device : Device) (frames : List Frame) : Prop where
  valid : config.validate = .ok (surface, device)
  sink : ∃ started last, FrameSink.start (Session.sinkConfig surface device) sink = (.ok (), started) ∧
    Accepts started 0 frames last ∧ FrameSink.finish last = (.ok (), r.sink)
  fits : ∀ f ∈ frames, f.Fits surface
  length : frames.length = if surface.byteLength ≤ Frame.maxBytes then rooms.count true else 0
  presented : r.presented = frames.length
  refused : r.refused = 0

end Rendering

section Whole

variable {σ : Type} [FrameSink σ] {config : Config} {sink : σ} {patch : Bytes} {rooms : List Bool}
  {r : Rendering σ}

theorem renderPatchIn_replicate (config : Config) (sink : σ) (patch : Bytes) (frames : Nat) :
    renderPatchIn config sink patch (.replicate frames true) = renderPatch config sink patch frames := by
  simp only [renderPatchIn, renderPatch, Session.render_eq_renderIn]

theorem exists_accepted (h : renderPatchIn config sink patch rooms = .ok r) {requested : Nat}
    (hgood : r.failure? requested = none) :
    ∃ surface device frames, r.Accepted config sink rooms surface device frames := by
  obtain ⟨hfinish, hrefused⟩ := Rendering.failure?_eq_none_iff.mp hgood
  cases hcreate : Session.create config sink with
  | error e =>
      rw [renderPatchIn, hcreate] at h
      cases h
  | ok s =>
      rw [renderPatchIn, hcreate] at h
      cases h
      obtain ⟨surface, device, started, hvalid, hstart, rfl⟩ := Session.started_of_create hcreate
      obtain ⟨frames, hrun⟩ := Session.exists_presents_run _ 0 rooms (List.length_eq_zero_iff.mp hrefused)
      have hpresents := (Session.presents_applyPatch _ patch).trans hrun
      obtain ⟨hanswer, hsink⟩ := Session.destroy_of_open hpresents.closed
      exact ⟨surface, device, frames, {
        valid := hvalid
        sink := ⟨started, _, hstart, hpresents.accepts, Prod.ext (hanswer.symm.trans hfinish) hsink.symm⟩
        fits := hpresents.fits
        length := hpresents.length
        presented := hpresents.presented.trans (Nat.zero_add _)
        refused := hrefused }⟩

theorem Outcome.code_eq_zero_iff {o : Outcome} : o.code = 0 ↔ o.failure = none := by
  rw [code]
  cases o.failure <;> simp

/-- A command that renders ends well only by a rendering that does. -/
theorem exists_rendering_of_code {args : RenderArgs} {tree : FileTree} (h : (render args tree).code = 0) :
    ∃ config content r, args.configIn tree = .ok config ∧ tree.read args.patch = .ok content ∧
      renderPatch config (SelectedSink.ofConfig config.output tree) content.toBytes args.frames = .ok r ∧
      r.failure? args.frames = none ∧
      (render args tree).notes = r.allNotes args.frames config.output.dir := by
  rw [Outcome.code_eq_zero_iff] at h
  unfold render renderWith at h ⊢
  cases hconfig : args.configIn tree with
  | error e => simp only [hconfig, Outcome.ofFailure, reduceCtorEq] at h
  | ok config =>
      simp only [hconfig] at h ⊢
      cases hcontent : tree.read args.patch with
      | error e => simp only [hcontent, Outcome.ofFailure, reduceCtorEq] at h
      | ok content =>
          simp only [hcontent] at h ⊢
          cases hr : renderPatch config (SelectedSink.ofConfig config.output tree) content.toBytes
              args.frames with
          | error refusal => simp only [hr, Outcome.ofFailure, reduceCtorEq] at h
          | ok r =>
              simp only [hr] at h ⊢
              exact ⟨config, content, r, rfl, rfl, hr, h, rfl⟩

/-- Where no frame is refused and the end neither, the sink has accepted the start, a frame for each
request with room, and the end, and their number is the one in the last line. A frame without room is
left out, as are all of a surface that is too large. This holds of any sink, and so of the sink that the
command selects. -/
theorem rendering_accepted (config : Config) (sink : σ) (patch : Bytes) (rooms : List Bool) :
    (∀ r, renderPatchIn config sink patch rooms = .ok r → r.failure? rooms.length = none →
      ∃ surface device frames, r.Accepted config sink rooms surface device frames ∧
        ∀ dir, r.allNotes rooms.length dir =
          r.notes ++ [s!"rendered {frames.length} frame(s) to {dir}"]) ∧
    (∀ n, renderPatchIn config sink patch (.replicate n true) = renderPatch config sink patch n) ∧
    ∀ args tree, (render args tree).code = 0 →
      ∃ config content surface device, ∃ (r : Rendering SelectedSink) (frames : List Frame),
        args.configIn tree = .ok config ∧ tree.read args.patch = .ok content ∧
        r.Accepted config (SelectedSink.ofConfig config.output tree) (.replicate args.frames true)
          surface device frames ∧
        (render args tree).notes =
          r.notes ++ [s!"rendered {frames.length} frame(s) to {config.output.dir}"] := by
  refine ⟨fun r h hgood => ?_, renderPatchIn_replicate config sink patch, fun args tree hcode => ?_⟩
  · obtain ⟨surface, device, frames, haccepted⟩ := exists_accepted h hgood
    refine ⟨surface, device, frames, haccepted, fun dir => ?_⟩
    rw [Rendering.allNotes, hgood, haccepted.presented]
    rfl
  · obtain ⟨config, content, r, hconfig, hcontent, hr, hgood, hnotes⟩ := exists_rendering_of_code hcode
    rw [← renderPatchIn_replicate] at hr
    obtain ⟨surface, device, frames, haccepted⟩ := exists_accepted hr hgood
    refine ⟨config, content, surface, device, r, frames, hconfig, hcontent, haccepted, ?_⟩
    rw [hnotes, Rendering.allNotes, hgood, haccepted.presented]
    rfl

/-- Of three frames the second finds no room. -/
theorem rendering_accepted_crowded :
    ∃ (r : Rendering NullSink) (frames : List Frame),
      renderPatchIn { width := 2, height := 1 } ⟨0⟩ [1, 0, 0, 0, 0, 0] [true, false, true] = .ok r ∧
      frames.length = 2 ∧ Accepts (⟨0⟩ : NullSink) 0 frames ⟨2⟩ ∧ r.presented = 2 := by
  have hvalid : Config.validate { width := 2, height := 1 } = .ok (⟨2, 1⟩, .gl) := by rfl
  have hr : renderPatchIn { width := 2, height := 1 } (⟨0⟩ : NullSink) [1, 0, 0, 0, 0, 0]
      [true, false, true] = .ok _ := congrArg (Except.map _) (Session.create_of_started hvalid rfl)
  obtain ⟨surface, device, frames, haccepted, -⟩ := (rendering_accepted _ _ _ _).1 _ hr rfl
  obtain ⟨started, last, hstart, haccepts, hfinish⟩ := haccepted.sink
  cases hvalid.symm.trans haccepted.valid
  cases hstart
  cases hfinish
  exact ⟨_, frames, hr, haccepted.length, haccepts, haccepted.presented.trans haccepted.length⟩

/-- A surface may be too large for any frame, and nothing else be wrong. -/
theorem rendering_of_nothing :
    let tree : FileTree := ⟨.ofList [("p", FileEntry.file (.data [1, 0, 0, 0, 0, 0]))]⟩
    let args : RenderArgs :=
      { patch := "p", frames := 2, width := some 2147483647, height := some 2147483647,
        format := some .null }
    (render args tree).code = 0 ∧
      (render args tree).notes = ["rendered 0 frame(s) to build-native/out"] := by
  decide +kernel

end Whole

end RetainedUi
