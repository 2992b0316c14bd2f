import Mathlib.Data.List.Basic
import RetainedUi.Proofs.Raster.Painter
import RetainedUi.Proofs.Session.Answers

/-!
# The sink protocol

In its life a session starts its sink, hands it the frames in the order of their indices, and
finishes it, each exactly once. What the sink answers has no influence on this.
-/

namespace RetainedUi.Session

variable {σ : Type}

/-! ## Frames -/

/-- From `s` to `t` frames are handed to the sink, one for each report but those of skipped frames, and
take the indices from the next one of `s` on. -/
structure Draws (s : Session (Recorded σ)) (frames : List Frame) (reports : List FrameReport)
    (t : Session (Recorded σ)) : Prop where
  surface : t.surface = s.surface
  closed : t.closed = s.closed
  nextFrame : t.nextFrame = s.nextFrame + frames.length
  calls : t.sink.calls = s.sink.calls ++ (frames.zipIdx s.nextFrame).map fun (f, i) => .push i f
  fits : ∀ f ∈ frames, f.Fits s.surface
  drawn : (reports.filter (·.outcome ≠ .skipped)).map FrameReport.index =
    (List.range' s.nextFrame frames.length).map some

section Draws

variable {s t u : Session (Recorded σ)} {frames frames' : List Frame}
  {reports reports' : List FrameReport}

theorem Draws.nothing (hsurface : t.surface = s.surface) (hclosed : t.closed = s.closed)
    (hnext : t.nextFrame = s.nextFrame) (hcalls : t.sink.calls = s.sink.calls)
    (hskipped : reports.filter (·.outcome ≠ .skipped) = []) : s.Draws [] reports t where
  surface := hsurface
  closed := hclosed
  nextFrame := hnext
  calls := by rw [hcalls, List.zipIdx_nil, List.map_nil, List.append_nil]
  fits _ hf := absurd hf List.not_mem_nil
  drawn := by rw [hskipped]; rfl

theorem Draws.trans (h : s.Draws frames reports t) (h' : t.Draws frames' reports' u) :
    s.Draws (frames ++ frames') (reports ++ reports') u where
  surface := h'.surface.trans h.surface
  closed := h'.closed.trans h.closed
  nextFrame := by rw [h'.nextFrame, h.nextFrame, List.length_append, Nat.add_assoc]
  calls := by
    rw [h'.calls, h.calls, h.nextFrame, List.zipIdx_append, List.map_append, List.append_assoc]
  fits f hf := by
    rcases List.mem_append.mp hf with hf | hf
    · exact h.fits f hf
    · exact h.surface ▸ h'.fits f hf
  drawn := by
    rw [List.filter_append, List.map_append, h.drawn, h'.drawn, h.nextFrame, ← List.map_append,
      List.length_append, List.range'_append_1]

theorem draws_skipFrame (s : Session (Recorded σ)) (timestamp : Nat) :
    s.Draws [] [(s.skipFrame timestamp).1] (s.skipFrame timestamp).2 :=
  .nothing rfl rfl rfl rfl rfl

end Draws

variable [FrameSink σ]

theorem outcomeOf_ne_skipped (answer : Except Failure Unit) : outcomeOf answer ≠ .skipped := by
  cases answer <;> simp [outcomeOf]

theorem draws_drawFrame (s : Session (Recorded σ)) {blank : Frame}
    (hblank : Frame.filled? s.surface .background = some blank) (timestamp : Nat) :
    s.Draws [blank.paint (Layout.solve s.store s.surface.bounds)] [(s.drawFrame blank timestamp).1]
      (s.drawFrame blank timestamp).2 where
  surface := rfl
  closed := rfl
  nextFrame := rfl
  calls := rfl
  fits f hf := by
    rw [List.mem_singleton.mp hf]
    exact (Frame.fits_of_filled? hblank).paint _
  drawn := by
    have hdrawn : (s.drawFrame blank timestamp).1.outcome ≠ .skipped := outcomeOf_ne_skipped _
    rw [List.filter_cons_of_pos (by simpa using hdrawn)]
    rfl

theorem exists_draws_request (s : Session (Recorded σ)) (timestamp : Nat) (room : Bool) :
    ∃ frames, s.Draws frames [(s.request timestamp room).1] (s.request timestamp room).2 := by
  rcases s.request_cases timestamp room with h | ⟨blank, hblank, h⟩
  · rw [h]
    exact ⟨[], s.draws_skipFrame timestamp⟩
  · rw [h]
    exact ⟨_, s.draws_drawFrame hblank timestamp⟩

theorem exists_draws_step (s : Session (Recorded σ)) (call : HostCall) :
    ∃ frames, s.Draws frames (s.step call).1 (s.step call).2 := by
  cases call with
  | patch bytes => exact ⟨[], .nothing rfl rfl rfl rfl rfl⟩
  | frame timestamp room => exact s.exists_draws_request timestamp room
  | input e => exact ⟨[], .nothing rfl rfl rfl rfl rfl⟩
  | drain => exact ⟨[], .nothing rfl rfl rfl rfl rfl⟩

theorem exists_draws_run (s : Session (Recorded σ)) (calls : List HostCall) :
    ∃ frames, s.Draws frames (s.run calls).1 (s.run calls).2 := by
  induction calls generalizing s with
  | nil => exact ⟨[], .nothing rfl rfl rfl rfl rfl⟩
  | cons call calls ih =>
      obtain ⟨frames, h⟩ := s.exists_draws_step call
      obtain ⟨frames', h'⟩ := ih (s.step call).2
      exact ⟨frames ++ frames', h.trans h'⟩

/-- A frame that is skipped is counted, and nothing else comes of it. Any other takes its index, whatever
the sink answers. -/
theorem request_changes (s : Session σ) (timestamp : Nat) (room : Bool) :
    ((s.request timestamp room).1.outcome = .skipped →
      (s.request timestamp room).2 = { s with stats := s.stats.countFrame .skipped }) ∧
    ((s.request timestamp room).1.outcome ≠ .skipped →
      (s.request timestamp room).1.index = some s.nextFrame ∧
      (s.request timestamp room).2.nextFrame = s.nextFrame + 1 ∧
      (s.request timestamp room).2.store = s.store) := by
  rcases s.request_cases timestamp room with h | ⟨blank, _, h⟩
  · rw [h]
    exact ⟨fun _ => rfl, fun hskipped => absurd rfl hskipped⟩
  · rw [h]
    exact ⟨fun hskipped => absurd hskipped (outcomeOf_ne_skipped _), fun _ => ⟨rfl, rfl, rfl⟩⟩

/-! ## Beginning and end -/

/-- What a session tells its sink at the start. -/
def sinkConfig (surface : Surface) (device : Device) : SinkConfig :=
  ⟨surface.width, surface.height, device⟩

/-- A new session with a sink that was started. -/
def opened (config : Config) (surface : Surface) (device : Device) (sink : σ) : Session σ :=
  { sink, config, surface, device }

/-- A new session with a recorded sink that was started. -/
def openedRecorded (config : Config) (surface : Surface) (device : Device) (sink : σ) :
    Session (Recorded σ) :=
  opened config surface device { sink, calls := [.start (sinkConfig surface device)] }

section Creation

variable {config : Config} {surface : Surface} {device : Device} {sink sink' : σ}

theorem life_of_invalid {e : ConfigError} (he : config.validate = .error e) (sink : σ)
    (calls : List HostCall) (ending : Ending) : life config sink calls ending = sink := by
  rw [life, create, he]

theorem create_of_started (hvalid : config.validate = .ok (surface, device))
    (hstart : FrameSink.start (sinkConfig surface device) sink = (.ok (), sink')) :
    create config sink = .ok (opened config surface device sink') := by
  rw [sinkConfig] at hstart
  rw [create, hvalid]
  simp only [hstart, opened]

theorem started_of_create {s : Session σ} (h : create config sink = .ok s) :
    ∃ surface device started, config.validate = .ok (surface, device) ∧
      FrameSink.start (sinkConfig surface device) sink = (.ok (), started) ∧
      s = opened config surface device started := by
  rw [create] at h
  split at h
  · cases h
  · rename_i hvalid
    split at h
    · cases h
    · rename_i hstart
      cases h
      exact ⟨_, _, _, hvalid, hstart, rfl⟩

theorem life_of_refused {e : Failure} (hvalid : config.validate = .ok (surface, device))
    (hstart : FrameSink.start (sinkConfig surface device) sink = (.error e, sink'))
    (calls : List HostCall) (ending : Ending) : life config sink calls ending = sink' := by
  rw [sinkConfig] at hstart
  rw [life, create, hvalid]
  simp only [hstart]

theorem life_of_started (hvalid : config.validate = .ok (surface, device))
    (hstart : FrameSink.start (sinkConfig surface device) sink = (.ok (), sink'))
    (calls : List HostCall) (ending : Ending) : life config sink calls ending =
      (((opened config surface device sink').run calls).2.close ending).sink := by
  rw [life, create_of_started hvalid hstart]

theorem start_recorded {c : SinkConfig} {answer : Except Failure Unit}
    (h : FrameSink.start c sink = (answer, sink')) :
    FrameSink.start c ({ sink } : Recorded σ) = (answer, { sink := sink', calls := [.start c] }) := by
  simp only [FrameSink.start, Recorded.note, h, List.nil_append]

end Creation

theorem calls_close {s : Session (Recorded σ)} (hopen : s.closed = false) (ending : Ending) :
    (s.close ending).sink.calls = s.sink.calls ++ [.finish] := by
  have hshutdown : s.shutdown.2.sink.calls = s.sink.calls ++ [.finish] := by
    simp only [shutdown, hopen, Bool.false_eq_true, ↓reduceIte]
    rfl
  cases ending with
  | dropped => exact hshutdown
  | destroyed =>
      -- The session is closed by then, so that dropping it does nothing.
      have hclosed : s.shutdown.2.closed = true := by
        simp only [shutdown, hopen, Bool.false_eq_true, ↓reduceIte]
      have hagain : s.shutdown.2.shutdown = (.ok (), s.shutdown.2) := if_pos hclosed
      exact (congrArg (·.2.sink.calls) hagain).trans hshutdown

/-! ## Sessions that keep their frames -/

/-- The sink is ready for frames of the surface, and has kept a frame of each index so far. -/
structure Collects (s : Session MemorySink) : Prop where
  config : s.sink.config.map SinkConfig.surface = some s.surface
  indices : s.sink.frames.toList.map Prod.fst = List.range s.nextFrame

theorem push_of_fits {memory : MemorySink} {surface : Surface} {f : Frame}
    (hc : memory.config.map SinkConfig.surface = some surface) (hf : f.Fits surface) (index : Nat) :
    FrameSink.push index f memory =
      (.ok (), { memory with frames := memory.frames.push ⟨index, f⟩ }) := by
  obtain ⟨c, hmemory, rfl⟩ := Option.map_eq_some_iff.mp hc
  have hcheck : SinkConfig.check memory.config f = .ok () := by
    rw [hmemory, SinkConfig.check, hf.width, hf.height]
    exact if_pos ⟨rfl, rfl⟩
  simp only [FrameSink.push, hcheck]

theorem Collects.drawFrame {s : Session MemorySink} (h : s.Collects) {blank : Frame}
    (hblank : Frame.filled? s.surface .background = some blank) (timestamp : Nat) :
    (s.drawFrame blank timestamp).1.outcome = .presented ∧ (s.drawFrame blank timestamp).2.Collects := by
  have hfits := (Frame.fits_of_filled? hblank).paint (Layout.solve s.store s.surface.bounds)
  simp only [Session.drawFrame, push_of_fits h.config hfits, outcomeOf, true_and]
  refine ⟨h.config, ?_⟩
  simp only [Array.toList_push, List.map_append, h.indices, List.map_cons, List.map_nil, List.range_succ]

theorem Collects.request {s : Session MemorySink} (h : s.Collects) (timestamp : Nat) (room : Bool) :
    ((s.request timestamp room).1.outcome = .skipped ∨
      (s.request timestamp room).1.outcome = .presented) ∧ (s.request timestamp room).2.Collects := by
  rcases s.request_cases timestamp room with hreq | ⟨blank, hblank, hreq⟩
  · rw [hreq]
    exact ⟨Or.inl rfl, h.config, h.indices⟩
  · rw [hreq]
    exact (h.drawFrame hblank timestamp).imp_left Or.inr

theorem Collects.run {s : Session MemorySink} (h : s.Collects) (calls : List HostCall) :
    (∀ r ∈ (s.run calls).1, r.outcome = .skipped ∨ r.outcome = .presented) ∧
      (s.run calls).2.Collects := by
  induction calls generalizing s with
  | nil => exact ⟨by simp [Session.run], h⟩
  | cons call calls ih =>
      have hstep : (∀ r ∈ (s.step call).1, r.outcome = .skipped ∨ r.outcome = .presented) ∧
          (s.step call).2.Collects := by
        cases call with
        | patch bytes => exact ⟨by simp [step], h.config, h.indices⟩
        | frame timestamp room =>
            simpa only [step, List.mem_singleton, forall_eq] using h.request timestamp room
        | input e => exact ⟨by simp [step], h.config, h.indices⟩
        | drain => exact ⟨by simp [step], h.config, h.indices⟩
      obtain ⟨hreports, hcollects⟩ := ih hstep.2
      refine ⟨fun r hr => ?_, hcollects⟩
      rcases List.mem_append.mp hr with hr | hr
      · exact hstep.1 r hr
      · exact hreports r hr

theorem sink_close_memory (s : Session MemorySink) (ending : Ending) : (s.close ending).sink = s.sink := by
  have hshutdown : ∀ s : Session MemorySink, s.shutdown.2.sink = s.sink := fun s => by
    rw [shutdown]
    split <;> rfl
  cases ending with
  | destroyed => exact (hshutdown _).trans (hshutdown s)
  | dropped => exact hshutdown s

/-! ## Whole lives -/

section Lives

variable {config : Config} {surface : Surface} {device : Device}
  (hvalid : config.validate = .ok (surface, device))

include hvalid

theorem exists_calls_life {sink started : σ}
    (hstart : FrameSink.start (sinkConfig surface device) sink = (.ok (), started))
    (calls : List HostCall) (ending : Ending) :
    ∃ frames, (openedRecorded config surface device started).Draws frames
        ((openedRecorded config surface device started).run calls).1
        ((openedRecorded config surface device started).run calls).2 ∧
      (life config ({ sink } : Recorded σ) calls ending).calls =
        .start (sinkConfig surface device) :: frames.mapIdx .push ++ [.finish] := by
  obtain ⟨frames, h⟩ := (openedRecorded config surface device started).exists_draws_run calls
  refine ⟨frames, h, ?_⟩
  -- The run leaves the session open for its end.
  rw [life_of_started hvalid (start_recorded hstart), ← openedRecorded, calls_close h.closed, h.calls,
    List.mapIdx_eq_zipIdx_map]
  rfl

theorem calls_life_eq {τ : Type} [FrameSink τ] {sink started : σ} {other accepting : τ}
    (hstart : FrameSink.start (sinkConfig surface device) sink = (.ok (), started))
    (hother : FrameSink.start (sinkConfig surface device) other = (.ok (), accepting))
    (calls : List HostCall) (ending : Ending)
    (h : ((openedRecorded config surface device started).run calls).2.Alike
      ((openedRecorded config surface device accepting).run calls).2) :
    (life config ({ sink := other } : Recorded τ) calls ending).calls =
      (life config ({ sink } : Recorded σ) calls ending).calls := by
  rw [life_of_started hvalid (start_recorded hstart), life_of_started hvalid (start_recorded hother)]
  exact (h.close ending).calls

theorem presented_life (memory : MemorySink) (calls : List HostCall) (ending : Ending) :
    ∃ s, create config memory = .ok s ∧
      (∀ r ∈ (s.run calls).1, r.outcome = .skipped ∨ r.outcome = .presented) ∧
      (life config memory calls ending).frames.toList.map Prod.fst =
        List.range (s.run calls).2.nextFrame := by
  have hstart : FrameSink.start (sinkConfig surface device) memory =
      (.ok (), { config := some (sinkConfig surface device) }) := rfl
  have hnew : (opened config surface device
      ({ config := some (sinkConfig surface device) } : MemorySink)).Collects := ⟨rfl, rfl⟩
  obtain ⟨hreports, hcollects⟩ := hnew.run calls
  refine ⟨_, create_of_started hvalid hstart, hreports, ?_⟩
  rw [life_of_started hvalid hstart, sink_close_memory, hcollects.indices]

end Lives

/-- A sink is told nothing for a configuration that is refused, and nothing more once it has refused to
start. Any other sink is told the size and the device, then the frames, of that size and numbered from
nought, and then the end, once each and whatever it answers. There are as many frames as requests that
were not skipped; a request that is skipped changes only a counter. All sinks that start are told the
same, and the sessions go on alike; one that keeps frames in memory accepts them all. -/
theorem life_protocol (config : Config) (sink : σ) (calls : List HostCall) (ending : Ending) :
    let log := (life config ({ sink } : Recorded σ) calls ending).calls
    (life config ({ sink } : Recorded σ) calls ending).sink = life config sink calls ending ∧
    (∀ (s : Session σ) timestamp room,
      ((s.request timestamp room).1.outcome = .skipped →
        (s.request timestamp room).2 = { s with stats := s.stats.countFrame .skipped }) ∧
      ((s.request timestamp room).1.outcome ≠ .skipped →
        (s.request timestamp room).1.index = some s.nextFrame ∧
        (s.request timestamp room).2.nextFrame = s.nextFrame + 1 ∧
        (s.request timestamp room).2.store = s.store)) ∧
    (∀ e, config.validate = .error e → log = []) ∧
    ∀ surface device, config.validate = .ok (surface, device) →
      let c := sinkConfig surface device
      (∀ e refusing, FrameSink.start c sink = (.error e, refusing) → log = [.start c]) ∧
      (∀ started, FrameSink.start c sink = (.ok (), started) →
        ∃ (s : Session (Recorded σ)) (frames : List Frame),
          create config ({ sink } : Recorded σ) = .ok s ∧
          log = .start c :: frames.mapIdx .push ++ [.finish] ∧
          (∀ f ∈ frames, f.Fits surface) ∧
          (s.run calls).2.nextFrame = frames.length ∧
          ((s.run calls).1.filter (·.outcome ≠ .skipped)).map FrameReport.index =
            (List.range frames.length).map some ∧
          ∀ (τ : Type) [FrameSink τ] (other accepting : τ), FrameSink.start c other = (.ok (), accepting) →
            ∃ t, create config ({ sink := other } : Recorded τ) = .ok t ∧
              (life config ({ sink := other } : Recorded τ) calls ending).calls = log ∧
              (s.run calls).2.Alike (t.run calls).2 ∧
              (t.run calls).1.map FrameReport.index = (s.run calls).1.map FrameReport.index) ∧
      ∀ memory : MemorySink, ∃ s, create config memory = .ok s ∧
        (∀ r ∈ (s.run calls).1, r.outcome = .skipped ∨ r.outcome = .presented) ∧
        (life config memory calls ending).frames.toList.map Prod.fst =
          List.range (s.run calls).2.nextFrame := by
  refine ⟨sink_life_recorded config sink calls ending, request_changes, fun e he => ?_,
    fun surface device hvalid => ⟨fun e refusing hstart => ?_, fun started hstart => ?_, fun memory =>
      presented_life hvalid memory calls ending⟩⟩
  · rw [life_of_invalid he]
  · rw [life_of_refused hvalid (start_recorded hstart)]
  · obtain ⟨frames, h, hlog⟩ := exists_calls_life hvalid hstart calls ending
    refine ⟨_, frames, create_of_started hvalid (start_recorded hstart), hlog, h.fits, ?_, ?_, ?_⟩
    · exact h.nextFrame.trans (Nat.zero_add _)
    · rw [List.range_eq_range']
      exact h.drawn
    · intro τ _ other accepting hother
      have hnew : (openedRecorded config surface device started).Alike
          (openedRecorded config surface device accepting) :=
        ⟨rfl, rfl, rfl, rfl, rfl, rfl, rfl, rfl, rfl, rfl⟩
      obtain ⟨halike, hindices⟩ := hnew.run calls
      exact ⟨_, create_of_started hvalid (start_recorded hother),
        calls_life_eq hvalid hstart hother calls ending halike, halike, hindices⟩

/-- A sink that starts and refuses everything else. -/
structure RefusingSink where

instance : FrameSink RefusingSink where
  start _ sink := (.ok (), sink)
  push _ _ sink := (.error (.other "no frames"), sink)
  finish sink := (.error (.other "no end"), sink)

theorem life_protocol_refusing :
    ∃ f g : Frame, f.Fits ⟨2, 1⟩ ∧ g.Fits ⟨2, 1⟩ ∧
      (life { width := 2, height := 1 } ({ sink := ⟨⟩ } : Recorded RefusingSink)
        [.frame 5 true, .frame 6 false, .patch [], .frame 7 true] .destroyed).calls =
        [.start ⟨2, 1, .gl⟩, .push 0 f, .push 1 g, .finish] := by
  have hvalid : Config.validate { width := 2, height := 1 } = .ok (⟨2, 1⟩, .gl) := by rfl
  obtain ⟨_, _, _, h⟩ := life_protocol { width := 2, height := 1 } (⟨⟩ : RefusingSink)
    [.frame 5 true, .frame 6 false, .patch [], .frame 7 true] .destroyed
  obtain ⟨s, frames, hcreate, hlog, hfits, hnext, _, _⟩ := (h _ _ hvalid).2.1 ⟨⟩ rfl
  rw [create_of_started hvalid rfl, Except.ok.injEq] at hcreate
  subst hcreate
  obtain ⟨f, g, rfl⟩ := List.length_eq_two.mp (hnext.symm.trans (by rfl))
  exact ⟨f, g, hfits f (by simp), hfits g (by simp), hlog⟩

end RetainedUi.Session
