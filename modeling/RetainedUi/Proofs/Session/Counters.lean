import RetainedUi.Proofs.Session.Batches
import RetainedUi.Proofs.Session.Protocol
import RetainedUi.Proofs.Session.Queue

/-!
# What a session counts

The counters of a session, and the patch and the layout that it keeps, say what it has been asked and what
came of it.
-/

namespace RetainedUi

/-! ## Patches -/

/-- Reading the patch ends with an error. -/
def StopsEarly (bytes : Bytes) : Prop := (decodePatch bytes).error ≠ none

instance : DecidablePred StopsEarly := fun bytes =>
  inferInstanceAs (Decidable ((decodePatch bytes).error ≠ none))

def recordsIn (bytes : Bytes) : List Record := (decodePatch bytes).records

namespace Stats

variable {stats : Stats} {patches : List Bytes} {bytes : Bytes} {report : PatchReport}
  {next requests : Nat}

/-- The counters say what became of the patches. -/
structure CountsPatches (stats : Stats) (patches : List Bytes) : Prop where
  accepted : stats.patchesAccepted = patches.countP (Accepted ·)
  ignored : stats.patchesIgnored = patches.countP (¬ Accepted ·)
  truncated : stats.patchesTruncated = (patches.filter (Accepted ·)).countP (StopsEarly ·)
  records : stats.recordsApplied + stats.recordsRejected =
    ((patches.filter (Accepted ·)).flatMap recordsIn).length

theorem CountsPatches.nil : ({} : Stats).CountsPatches [] := ⟨rfl, rfl, rfl, rfl⟩

theorem CountsPatches.ignore (h : stats.CountsPatches patches) (hbytes : ¬ Accepted bytes)
    (e : DecodeError) : (stats.countPatch (.ofIgnored e)).CountsPatches (patches ++ [bytes]) := by
  obtain ⟨accepted, ignored, truncated, records⟩ := h
  constructor <;> simp [countPatch, countStatus, PatchReport.ofIgnored, List.countP_append, *]

theorem CountsPatches.accept (h : stats.CountsPatches patches) (hbytes : Accepted bytes)
    (hstatus : report.status = (decodePatch bytes).error.elim .complete .truncated)
    (hrecords : report.applied + report.rejected = (recordsIn bytes).length) :
    (stats.countPatch report).CountsPatches (patches ++ [bytes]) := by
  obtain ⟨accepted, ignored, truncated, records⟩ := h
  have hsum : stats.recordsApplied + report.applied + (stats.recordsRejected + report.rejected) =
      (((patches ++ [bytes]).filter (Accepted ·)).flatMap recordsIn).length := by
    have hnew : [bytes].filter (Accepted ·) = [bytes] := by simp [hbytes]
    rw [List.filter_append, List.flatMap_append, List.length_append, ← records, hnew,
      List.flatMap_singleton, ← hrecords]
    omega
  cases herror : (decodePatch bytes).error with
  | none =>
      have hstops : ¬ StopsEarly bytes := fun h => h herror
      constructor <;> simp [countPatch, countStatus, List.countP_append, *]
  | some e =>
      have hstops : StopsEarly bytes := by simp [StopsEarly, herror]
      constructor <;> simp [countPatch, countStatus, List.countP_append, *]

theorem CountsPatches.countFrame (h : stats.CountsPatches patches) (outcome : FrameOutcome) :
    (stats.countFrame outcome).CountsPatches patches := by
  cases outcome <;> exact ⟨h.accepted, h.ignored, h.truncated, h.records⟩

/-! ## Frames -/

/-- The counters say what became of so many requests for frames. Those that were not skipped took the
indices before the next. -/
structure CountsFrames (stats : Stats) (next requests : Nat) : Prop where
  drawn : stats.framesPresented + stats.sinkFailures = next
  requested : stats.framesPresented + stats.sinkFailures + stats.framesSkipped = requests

theorem CountsFrames.nil : ({} : Stats).CountsFrames 0 0 := ⟨rfl, rfl⟩

theorem CountsFrames.skip (h : stats.CountsFrames next requests) :
    (stats.countFrame .skipped).CountsFrames next (requests + 1) :=
  ⟨h.drawn, congrArg (· + 1) h.requested⟩

theorem CountsFrames.draw (h : stats.CountsFrames next requests) (answer : Except Failure Unit) :
    (stats.countFrame (Session.outcomeOf answer)).CountsFrames (next + 1) (requests + 1) := by
  obtain ⟨drawn, requested⟩ := h
  cases answer <;> constructor <;> simp only [Session.outcomeOf, countFrame] <;> omega

theorem CountsFrames.countPatch (h : stats.CountsFrames next requests) (report : PatchReport) :
    (stats.countPatch report).CountsFrames next requests := by
  rw [Stats.countPatch]
  cases report.status <;> exact ⟨h.drawn, h.requested⟩

theorem inputDropped_countFrame (stats : Stats) (outcome : FrameOutcome) :
    (stats.countFrame outcome).inputDropped = stats.inputDropped := by
  cases outcome <;> rfl

theorem inputDropped_countPatch (stats : Stats) (report : PatchReport) :
    (stats.countPatch report).inputDropped = stats.inputDropped := by
  rw [Stats.countPatch]
  cases report.status <;> rfl

end Stats

/-! ## Histories -/

namespace HostCall

def patch? : HostCall → Option Bytes
  | patch bytes => some bytes
  | frame .. | input _ | drain => none

def event? : HostCall → Option InputEvent
  | input e => some e
  | patch _ | frame .. | drain => none

def isRequest : HostCall → Bool
  | frame .. => true
  | patch _ | input _ | drain => false

end HostCall

namespace Session

variable {σ : Type}

/-- The event that is lost in a call. -/
def lost (s : Session σ) : HostCall → List InputEvent
  | .input _ => s.input.losing
  | .patch _ | .frame .. | .drain => []

/-- The events that leave the queue in a call, lost or handed to the host. -/
def removed (s : Session σ) : HostCall → List InputEvent
  | .input _ => s.input.losing
  | .drain => s.drainInput.1
  | .patch _ | .frame .. => []

theorem inputDropped_pushInput (s : Session σ) (e : InputEvent) (hcapacity : 0 < s.input.capacity) :
    (s.pushInput e).stats.inputDropped = s.stats.inputDropped + s.input.losing.length := by
  rcases s.input.push_cases e with ⟨hfull, h⟩ | ⟨hroom, h⟩
  · rw [pushInput, h, InputQueue.length_losing hcapacity hfull]
    rfl
  · rw [pushInput, h, InputQueue.losing, if_neg hroom]
    rfl

theorem countsPatches_applyPatch {s : Session σ} {patches : List Bytes}
    (h : s.stats.CountsPatches patches) (bytes : Bytes) :
    (s.applyPatch bytes).2.stats.CountsPatches (patches ++ [bytes]) := by
  by_cases hbytes : Accepted bytes
  · have hrecords : (s.applyPatch bytes).1.applied + (s.applyPatch bytes).1.rejected =
        (recordsIn bytes).length := by
      rw [applyPatch_eq, recordsIn, ← s.store.length_applyAll,
        List.length_eq_countP_add_countP Except.isOk]
      simp only [Bool.not_eq_true, Bool.decide_eq_false]
    exact h.accept hbytes (s.status_applyPatch hbytes) hrecords
  · obtain ⟨e, he⟩ := Decoder.ofBytes_of_no_header
      ((not_and_or.mp hbytes).imp_left Nat.lt_of_not_le)
    rw [applyPatch, he]
    exact h.ignore hbytes e

/-! ## One call -/

/-- The session has counted the patches, and keeps the last one that has room for a header. -/
structure PatchesKept (s : Session σ) (patches : List Bytes) : Prop where
  counts : s.stats.CountsPatches patches
  last : s.lastPatch = (patches.filter (6 ≤ ·.length)).getLast?

/-- The session has counted so many requests for frames, and keeps the layout of the last of the sessions
that a frame was drawn of. -/
structure FramesKept (s : Session σ) (requests : Nat) (drawn : List (Session σ)) : Prop where
  counts : s.stats.CountsFrames s.nextFrame requests
  last : s.lastLayout = drawn.getLast?.elim {} fun t => Layout.solve t.store t.surface.bounds

/-- Of the events that arrived some were removed, the lost ones among them, and the others wait. -/
structure EventsKept (s : Session σ) (arrived removed lost : List InputEvent) : Prop where
  capacity : 0 < s.input.capacity
  waiting : arrived = removed ++ s.input.events
  dropped : s.input.dropped = lost.length
  counts : s.stats.inputDropped = lost.length

variable [FrameSink σ]

/-- The call brings a frame that is not skipped. -/
def isDrawn (s : Session σ) (call : HostCall) : Bool := (s.step call).1.any (·.outcome ≠ .skipped)

section Steps

variable {s : Session σ} {patches : List Bytes} {requests : Nat} {drawn : List (Session σ)}
  {arrived removed lost : List InputEvent}

theorem getLast?_retained (patches : List Bytes) (bytes : Bytes) :
    retained (patches.filter (6 ≤ ·.length)).getLast? bytes =
      ((patches ++ [bytes]).filter (6 ≤ ·.length)).getLast? := by
  rw [retained, List.filter_append, headerLength]
  by_cases h : 6 ≤ bytes.length <;> simp [h]

theorem request_induction {P : Session σ → Prop} (s : Session σ) (timestamp : Nat) (room : Bool)
    (hskip : P (s.skipFrame timestamp).2) (hdraw : ∀ blank, P (s.drawFrame blank timestamp).2) :
    P (s.request timestamp room).2 := by
  rcases s.request_cases timestamp room with h | ⟨blank, _, h⟩ <;> rw [h]
  · exact hskip
  · exact hdraw blank

theorem PatchesKept.step (h : s.PatchesKept patches) (call : HostCall) :
    (s.step call).2.PatchesKept (patches ++ call.patch?.toList) := by
  cases call with
  | patch bytes =>
      refine ⟨countsPatches_applyPatch h.counts bytes, ?_⟩
      rw [HostCall.patch?, Option.toList_some, ← getLast?_retained, ← h.last]
      rfl
  | frame timestamp room =>
      rw [HostCall.patch?, Option.toList_none, List.append_nil]
      refine s.request_induction (P := (·.PatchesKept patches)) timestamp room ?_ fun blank => ?_
      · exact ⟨h.counts.countFrame .skipped, h.last⟩
      · exact ⟨h.counts.countFrame (s.drawFrame blank timestamp).1.outcome, h.last⟩
  | input e =>
      rw [HostCall.patch?, Option.toList_none, List.append_nil]
      exact ⟨⟨h.counts.accepted, h.counts.ignored, h.counts.truncated, h.counts.records⟩, h.last⟩
  | drain =>
      rw [HostCall.patch?, Option.toList_none, List.append_nil]
      exact ⟨h.counts, h.last⟩

theorem FramesKept.step (h : s.FramesKept requests drawn) (call : HostCall) :
    (s.step call).2.FramesKept (requests + call.isRequest.toNat)
      (drawn ++ if s.isDrawn call then [s] else []) := by
  cases call with
  | patch bytes =>
      rw [isDrawn, Session.step, List.any_nil, if_neg Bool.false_ne_true, List.append_nil]
      exact ⟨h.counts.countPatch _, h.last⟩
  | frame timestamp room =>
      have hdrawn : s.isDrawn (.frame timestamp room) =
          decide ((s.request timestamp room).1.outcome ≠ .skipped) := by
        rw [isDrawn, Session.step, List.any_cons, List.any_nil, Bool.or_false]
      rw [hdrawn, HostCall.isRequest]
      change (s.request timestamp room).2.FramesKept _ _
      rcases s.request_cases timestamp room with hreq | ⟨blank, _, hreq⟩ <;> rw [hreq]
      · rw [if_neg (by simp [skipFrame]), List.append_nil]
        exact ⟨h.counts.skip, h.last⟩
      · have hshown : (s.drawFrame blank timestamp).1.outcome ≠ .skipped := outcomeOf_ne_skipped _
        rw [if_pos (decide_eq_true hshown)]
        refine ⟨h.counts.draw _, ?_⟩
        rw [List.getLast?_concat]
        rfl
  | input e =>
      rw [isDrawn, Session.step, List.any_nil, if_neg Bool.false_ne_true, List.append_nil]
      exact ⟨⟨h.counts.drawn, h.counts.requested⟩, h.last⟩
  | drain =>
      rw [isDrawn, Session.step, List.any_nil, if_neg Bool.false_ne_true, List.append_nil]
      exact ⟨h.counts, h.last⟩

theorem EventsKept.step (h : s.EventsKept arrived removed lost) (call : HostCall) :
    (s.step call).2.EventsKept (arrived ++ call.event?.toList) (removed ++ s.removed call)
      (lost ++ s.lost call) := by
  cases call with
  | patch bytes =>
      simp only [HostCall.event?, Option.toList_none, Session.removed, Session.lost, List.append_nil]
      exact ⟨h.capacity, h.waiting, h.dropped, (s.stats.inputDropped_countPatch _).trans h.counts⟩
  | frame timestamp room =>
      simp only [HostCall.event?, Option.toList_none, Session.removed, Session.lost, List.append_nil]
      refine s.request_induction (P := (·.EventsKept arrived removed lost)) timestamp room ?_ fun _ => ?_
      · exact ⟨h.capacity, h.waiting, h.dropped, (s.stats.inputDropped_countFrame _).trans h.counts⟩
      · exact ⟨h.capacity, h.waiting, h.dropped, (s.stats.inputDropped_countFrame _).trans h.counts⟩
  | input e =>
      constructor
      · exact (s.input.capacity_push e).symm ▸ h.capacity
      · -- What the queue loses goes to its removed events, so that all stay in order.
        rw [HostCall.event?, Option.toList_some, h.waiting, List.append_assoc, List.append_assoc,
          ← s.input.losing_append_events_push]
        rfl
      · rw [List.length_append, ← h.dropped]
        exact s.input.dropped_push e h.capacity
      · rw [List.length_append, ← h.counts]
        exact s.inputDropped_pushInput e h.capacity
  | drain =>
      constructor
      · exact h.capacity
      · rw [HostCall.event?, Option.toList_none, List.append_nil, h.waiting]
        exact (List.append_nil _).symm
      · rw [Session.lost, List.append_nil]
        exact h.dropped
      · rw [Session.lost, List.append_nil]
        exact h.counts

end Steps

/-- The calls of a run, each with the session that it finds. -/
def history (s : Session σ) : List HostCall → List (Session σ × HostCall)
  | [] => []
  | call :: calls => (s, call) :: (s.step call).2.history calls

theorem map_snd_history (s : Session σ) (calls : List HostCall) :
    (s.history calls).map Prod.snd = calls := by
  induction calls generalizing s with
  | nil => rfl
  | cons call calls ih => rw [history, List.map_cons, ih]

/-- What holds of a session without a history, and goes on to hold with every further call, holds after a
run with the history of the run. -/
theorem run_induction {P : List (Session σ × HostCall) → Session σ → Prop} {s : Session σ} (h : P [] s)
    (hstep : ∀ history t call, P history t → P (history ++ [(t, call)]) (t.step call).2)
    (calls : List HostCall) : P (s.history calls) (s.run calls).2 := by
  suffices hrun : ∀ past t, P past t → P (past ++ t.history calls) (t.run calls).2 from hrun [] s h
  intro past t ht
  induction calls generalizing past t with
  | nil => rwa [history, List.append_nil]
  | cons call calls ih =>
      rw [history, List.append_cons]
      exact ih _ _ (hstep past t call ht)

/-- What a session has counted and keeps is what its history comes to. -/
structure Accounts (history : List (Session σ × HostCall)) (s : Session σ) : Prop where
  patches : s.PatchesKept ((history.map Prod.snd).filterMap HostCall.patch?)
  frames : s.FramesKept ((history.map Prod.snd).countP HostCall.isRequest)
    ((history.filter fun (t, call) => t.isDrawn call).map Prod.fst)
  events : s.EventsKept ((history.map Prod.snd).filterMap HostCall.event?)
    (history.flatMap fun (t, call) => t.removed call) (history.flatMap fun (t, call) => t.lost call)

theorem Accounts.step {history : List (Session σ × HostCall)} {s : Session σ} (h : Accounts history s)
    (call : HostCall) : Accounts (history ++ [(s, call)]) (s.step call).2 where
  patches := by
    convert h.patches.step call using 1
    cases call <;> simp [HostCall.patch?]
  frames := by
    convert h.frames.step call using 1
    · cases call <;> simp [HostCall.isRequest]
    · rw [List.filter_append, List.map_append, List.filter_singleton]
      cases hdrawn : s.isDrawn call <;> simp [hdrawn]
  events := by
    convert h.events.step call using 1
    · cases call <;> simp [HostCall.event?]
    · simp
    · simp

theorem accounts_opened (config : Config) (surface : Surface) (device : Device) (sink : σ) :
    Accounts [] (opened config surface device sink) where
  patches := ⟨.nil, rfl⟩
  frames := ⟨.nil, rfl⟩
  events := ⟨Nat.succ_pos _, rfl, rfl, rfl⟩

theorem eq_opened_of_create {config : Config} {sink : σ} {s : Session σ}
    (h : create config sink = .ok s) :
    ∃ surface device started, s = opened config surface device started := by
  obtain ⟨surface, device, started, -, -, rfl⟩ := started_of_create h
  exact ⟨surface, device, started, rfl⟩

/-- After any run of a session that was created, its counters and what it keeps are what the calls of the
run come to. The patches with a header of the version that is read are counted apart from the others, and
those whose reading ends with an error once more; all records that are read are counted. Every request for
a frame is counted, and those that are not skipped take the indices in turn. The events that arrive are
the removed ones and then those that wait, and of the removed ones the lost are counted. The patch that is
kept is the last one as long as a header; the layout is that of the last frame that was drawn. -/
theorem accounts_of_create {config : Config} {sink : σ} {s : Session σ}
    (hs : create config sink = .ok s) (calls : List HostCall) :
    let t := (s.run calls).2
    let history := s.history calls
    let patches := calls.filterMap HostCall.patch?
    let accepted := patches.filter (Accepted ·)
    let lost := history.flatMap fun (u, call) => u.lost call
    let removed := history.flatMap fun (u, call) => u.removed call
    t.stats.patchesAccepted = accepted.length ∧
      t.stats.patchesIgnored = patches.countP (¬ Accepted ·) ∧
      t.stats.patchesTruncated = accepted.countP (StopsEarly ·) ∧
      t.stats.recordsApplied + t.stats.recordsRejected = (accepted.flatMap recordsIn).length ∧
      t.stats.framesPresented + t.stats.sinkFailures = t.nextFrame ∧
      t.stats.framesPresented + t.stats.sinkFailures + t.stats.framesSkipped =
        calls.countP HostCall.isRequest ∧
      t.stats.inputDropped = t.input.dropped ∧
      t.input.dropped = lost.length ∧
      calls.filterMap HostCall.event? = removed ++ t.input.events ∧
      t.lastPatch = (patches.filter (6 ≤ ·.length)).getLast? ∧
      t.lastLayout = (history.filter fun (u, call) => u.isDrawn call).getLast?.elim {} fun (u, _) =>
        Layout.solve u.store u.surface.bounds := by
  intro t history patches accepted lost removed
  have h : Accounts history t := by
    obtain ⟨surface, device, started, rfl⟩ := eq_opened_of_create hs
    exact run_induction (accounts_opened ..) (fun _ _ call h => h.step call) calls
  have hcalls : history.map Prod.snd = calls := s.map_snd_history calls
  obtain ⟨hpatches, hframes, hevents⟩ := h
  rw [hcalls] at hpatches hframes hevents
  refine ⟨?_, hpatches.counts.ignored, hpatches.counts.truncated, hpatches.counts.records,
    hframes.counts.drawn, hframes.counts.requested, ?_, hevents.dropped, hevents.waiting, hpatches.last, ?_⟩
  · rw [hpatches.counts.accepted, List.countP_eq_length_filter]
  · rw [hevents.counts, hevents.dropped]
  · rw [hframes.last, List.getLast?_map, Option.elim_map]
    rfl

/-- A patch that ends in a byte that starts no record. -/
def stoppedPatch : Bytes := Draft.header 0 ++ stoppedBody

def sampleCalls : List HostCall :=
  [.patch stoppedPatch, .frame 5 true, .input (.key 1 true 0), .patch [1, 2, 3, 4, 5], .drain]

theorem accounts_of_create_sample :
    ∃ s : Session NullSink, create { width := 2, height := 1 } ({} : NullSink) = .ok s ∧
      let t := (s.run sampleCalls).2
      t.stats.patchesAccepted = 1 ∧ t.stats.patchesIgnored = 1 ∧ t.stats.patchesTruncated = 1 ∧
        t.stats.recordsApplied + t.stats.recordsRejected = 1 ∧
        t.stats.framesPresented + t.stats.sinkFailures + t.stats.framesSkipped = 1 ∧
        t.lastPatch = some stoppedPatch := by
  have hcreate : create { width := 2, height := 1 } ({} : NullSink) =
      .ok (opened { width := 2, height := 1 } ⟨2, 1⟩ .gl {}) :=
    create_of_started rfl rfl
  have hread : decodePatch stoppedPatch = ⟨[.createNode 2 5], some (.unknownOpcode 15 9), 15⟩ := by cbv
  have hpatches : (sampleCalls.filterMap HostCall.patch?).filter (Accepted ·) = [stoppedPatch] := by
    decide
  obtain ⟨haccepted, hignored, htruncated, hrecords, _, hrequests, _, _, _, hlast, _⟩ :=
    accounts_of_create hcreate sampleCalls
  rw [hpatches] at haccepted htruncated hrecords
  refine ⟨_, hcreate, haccepted, hignored.trans (by decide), htruncated.trans ?_, hrecords.trans ?_,
    hrequests, hlast.trans (by decide)⟩
  · simp [StopsEarly, hread]
  · rw [List.flatMap_singleton, recordsIn, hread]
    rfl

end Session

end RetainedUi
