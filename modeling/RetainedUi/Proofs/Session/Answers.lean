import RetainedUi.Proofs.Session.Life

/-!
# The answers of a sink

Whether a sink accepts a frame is reported and counted, and changes nothing else: sessions with
different sinks go on alike.
-/

namespace RetainedUi.Session

variable {σ τ : Type}

/-- The sessions are in the same state but for their sinks and counters, and the sinks got the same
calls. -/
structure Alike (s : Session (Recorded σ)) (t : Session (Recorded τ)) : Prop where
  config : t.config = s.config
  surface : t.surface = s.surface
  device : t.device = s.device
  store : t.store = s.store
  calls : t.sink.calls = s.sink.calls
  nextFrame : t.nextFrame = s.nextFrame
  lastPatch : t.lastPatch = s.lastPatch
  lastLayout : t.lastLayout = s.lastLayout
  input : t.input = s.input
  closed : t.closed = s.closed

variable {s : Session (Recorded σ)} {t : Session (Recorded τ)}

/-! ## Calls that reach no sink -/

theorem Alike.applyPatch (h : s.Alike t) (bytes : Bytes) :
    (s.applyPatch bytes).2.Alike (t.applyPatch bytes).2 :=
  { h with
    store := by simp only [Session.applyPatch, h.store]
    lastPatch := by simp only [Session.applyPatch, h.lastPatch] }

theorem Alike.pushInput (h : s.Alike t) (e : InputEvent) : (s.pushInput e).Alike (t.pushInput e) :=
  { h with input := by simp only [Session.pushInput, h.input] }

theorem Alike.drainInput (h : s.Alike t) : s.drainInput.2.Alike t.drainInput.2 :=
  { h with input := by simp only [Session.drainInput, h.input] }

theorem Alike.skipFrame (h : s.Alike t) (timestamp : Nat) :
    (s.skipFrame timestamp).2.Alike (t.skipFrame timestamp).2 :=
  { h with }

/-! ## Calls that reach the sink -/

variable [FrameSink σ] [FrameSink τ]

theorem Alike.drawFrame (h : s.Alike t) (blank : Frame) (timestamp : Nat) :
    (s.drawFrame blank timestamp).2.Alike (t.drawFrame blank timestamp).2 :=
  { h with
    calls := by rw [calls_drawFrame, calls_drawFrame, h.calls, h.nextFrame, h.store, h.surface]
    nextFrame := congrArg (· + 1) h.nextFrame
    lastLayout := by simp only [Session.drawFrame, h.store, h.surface] }

theorem Alike.shutdown (h : s.Alike t) : s.shutdown.2.Alike t.shutdown.2 := by
  simp only [Session.shutdown, h.closed]
  split
  · exact h
  · exact { h with
      store := congrArg (·.releaseAll.2) h.store
      calls := congrArg (· ++ [SinkCall.finish]) h.calls
      lastPatch := rfl
      lastLayout := rfl
      closed := rfl }

theorem Alike.close (h : s.Alike t) (ending : Ending) : (s.close ending).Alike (t.close ending) := by
  cases ending with
  | destroyed => exact h.shutdown.shutdown
  | dropped => exact h.shutdown

/-! ## Runs -/

theorem Alike.request (h : s.Alike t) (timestamp : Nat) (room : Bool) :
    (s.request timestamp room).2.Alike (t.request timestamp room).2 ∧
      (t.request timestamp room).1.index = (s.request timestamp room).1.index := by
  cases room with
  | false => exact ⟨h.skipFrame timestamp, rfl⟩
  | true =>
      simp only [Session.request, ↓reduceIte, Session.beginFrame, h.surface]
      cases Frame.filled? s.surface .background with
      | none => exact ⟨h.skipFrame timestamp, rfl⟩
      | some blank => exact ⟨h.drawFrame blank timestamp, congrArg some h.nextFrame⟩

theorem Alike.step (h : s.Alike t) (call : HostCall) :
    (s.step call).2.Alike (t.step call).2 ∧
      (t.step call).1.map FrameReport.index = (s.step call).1.map FrameReport.index := by
  cases call with
  | patch bytes => exact ⟨h.applyPatch bytes, rfl⟩
  | frame timestamp room =>
      obtain ⟨halike, hindex⟩ := h.request timestamp room
      exact ⟨halike, congrArg ([·]) hindex⟩
  | input e => exact ⟨h.pushInput e, rfl⟩
  | drain => exact ⟨h.drainInput, rfl⟩

/-- Sessions that are alike stay so through any calls, and report the same indices. -/
theorem Alike.run (h : s.Alike t) (calls : List HostCall) :
    (s.run calls).2.Alike (t.run calls).2 ∧
      (t.run calls).1.map FrameReport.index = (s.run calls).1.map FrameReport.index := by
  induction calls generalizing s t with
  | nil => exact ⟨h, rfl⟩
  | cons call calls ih =>
      obtain ⟨hstep, hindex⟩ := h.step call
      obtain ⟨hrun, hindices⟩ := ih hstep
      refine ⟨hrun, ?_⟩
      simp only [Session.run, List.map_append, hindex, hindices]

end RetainedUi.Session
