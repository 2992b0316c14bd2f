import RetainedUi.Session.Basic

/-!
# Lives of sessions

A host creates a session with a sink, calls it, and ends it. What the sink is told in the meantime is
seen by a sink that writes down every call, and passes it on.
-/

namespace RetainedUi

/-! ## Calls to a sink -/

/-- A call that a session makes to its sink. -/
inductive SinkCall where
  | start (c : SinkConfig)
  | push (index : Nat) (f : Frame)
  | finish
deriving DecidableEq, Repr

/-- A sink and the calls that it got. -/
structure Recorded (σ : Type) where
  sink : σ
  calls : List SinkCall := []

namespace Recorded

variable {σ : Type}

/-- The answer of the sink to a call, and the sink afterwards. -/
def note (r : Recorded σ) (call : SinkCall) (answer : Except Failure Unit × σ) :
    Except Failure Unit × Recorded σ :=
  (answer.1, { sink := answer.2, calls := r.calls ++ [call] })

instance [FrameSink σ] : FrameSink (Recorded σ) where
  start c r := r.note (.start c) (FrameSink.start c r.sink)
  push i f r := r.note (.push i f) (FrameSink.push i f r.sink)
  finish r := r.note .finish (FrameSink.finish r.sink)

end Recorded

/-! ## Calls to a session -/

/-- What a host asks of a session. -/
inductive HostCall where
  | patch (bytes : Bytes)
  /-- There may be no room for the frame, whatever its size. -/
  | frame (timestamp : Nat) (room : Bool)
  | input (e : InputEvent)
  | drain
deriving DecidableEq, Repr

inductive Ending where
  | destroyed
  | dropped
deriving DecidableEq, Repr

namespace Session

variable {σ : Type} [FrameSink σ]

def request (s : Session σ) (timestamp : Nat) (room : Bool) : FrameReport × Session σ :=
  if room then s.beginFrame timestamp else s.skipFrame timestamp

/-- The reports that a call brings, one if it asks for a frame, and the session after it. -/
def step (s : Session σ) : HostCall → List FrameReport × Session σ
  | .patch bytes => ([], (s.applyPatch bytes).2)
  | .frame timestamp room => ([(s.request timestamp room).1], (s.request timestamp room).2)
  | .input e => ([], s.pushInput e)
  | .drain => ([], s.drainInput.2)

def run (s : Session σ) : List HostCall → List FrameReport × Session σ
  | [] => ([], s)
  | call :: calls =>
    ((s.step call).1 ++ ((s.step call).2.run calls).1, ((s.step call).2.run calls).2)

def close (s : Session σ) : Ending → Session σ
  | .destroyed => s.destroy.2
  | .dropped => s.drop

/-- The sink after a whole life of a session, or after the session could not be created. -/
def life (config : Config) (sink : σ) (calls : List HostCall) (ending : Ending) : σ :=
  match create config sink with
  | .error (_, sink) => sink
  | .ok s => ((s.run calls).2.close ending).sink

theorem request_cases (s : Session σ) (timestamp : Nat) (room : Bool) :
    s.request timestamp room = s.skipFrame timestamp ∨
      ∃ blank, Frame.filled? s.surface .background = some blank ∧
        s.request timestamp room = s.drawFrame blank timestamp := by
  cases room with
  | false => exact Or.inl rfl
  | true =>
      simp only [request, ↓reduceIte, beginFrame]
      cases Frame.filled? s.surface .background with
      | none => exact Or.inl rfl
      | some blank => exact Or.inr ⟨blank, rfl, rfl⟩

/-- A frame that is drawn is handed to the sink with the next index. -/
theorem calls_drawFrame (s : Session (Recorded σ)) (blank : Frame) (timestamp : Nat) :
    (s.drawFrame blank timestamp).2.sink.calls =
      s.sink.calls ++ [.push s.nextFrame (blank.paint (Layout.solve s.store s.surface.bounds))] := rfl

/-! ## The recorder passes everything on -/

/-- The session that has the sink without the record. -/
def plain (s : Session (Recorded σ)) : Session σ := { s with sink := s.sink.sink }

theorem plain_request (s : Session (Recorded σ)) (timestamp : Nat) (room : Bool) :
    s.plain.request timestamp room =
      ((s.request timestamp room).1, (s.request timestamp room).2.plain) := by
  cases room with
  | false => rfl
  | true =>
      simp only [request, beginFrame, plain]
      cases Frame.filled? s.surface .background <;> rfl

theorem plain_step (s : Session (Recorded σ)) (call : HostCall) :
    s.plain.step call = ((s.step call).1, (s.step call).2.plain) := by
  cases call with
  | patch bytes => rfl
  | frame timestamp room => simp only [step, plain_request]
  | input e => rfl
  | drain => rfl

theorem plain_run (s : Session (Recorded σ)) (calls : List HostCall) :
    s.plain.run calls = ((s.run calls).1, (s.run calls).2.plain) := by
  induction calls generalizing s with
  | nil => rfl
  | cons call calls ih => simp only [run, plain_step, ih]

theorem plain_shutdown (s : Session (Recorded σ)) :
    s.plain.shutdown = (s.shutdown.1, s.shutdown.2.plain) := by
  cases hc : s.closed with
  | true => simp only [shutdown, plain, hc, ↓reduceIte]
  | false => simp only [shutdown, plain, hc, Bool.false_eq_true, ↓reduceIte]; rfl

theorem plain_close (s : Session (Recorded σ)) (ending : Ending) :
    s.plain.close ending = (s.close ending).plain := by
  cases ending <;> simp only [close, destroy, drop, plain_shutdown]

theorem sink_close_run (s : Session (Recorded σ)) (calls : List HostCall) (ending : Ending) :
    ((s.run calls).2.close ending).sink.sink = ((s.plain.run calls).2.close ending).sink := by
  rw [plain_run, plain_close]
  rfl

/-- Writing down the calls to a sink changes nothing for the sink. -/
theorem sink_life_recorded (config : Config) (sink : σ) (calls : List HostCall) (ending : Ending) :
    (life config ({ sink } : Recorded σ) calls ending).sink = life config sink calls ending := by
  rw [life, life, create, create]
  cases config.validate with
  | error e => rfl
  | ok usable =>
      simp only [FrameSink.start, Recorded.note]
      rcases FrameSink.start ⟨usable.1.width, usable.1.height, usable.2⟩ sink with ⟨_ | _, sink'⟩
      · rfl
      · exact sink_close_run _ calls ending

end Session

end RetainedUi
