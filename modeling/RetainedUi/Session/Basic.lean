import RetainedUi.Raster.Paint
import RetainedUi.Scene.Edit
import RetainedUi.Session.Input
import RetainedUi.Session.Report
import RetainedUi.Sink.Basic
import RetainedUi.Wire.Decoder

/-!
# Sessions

A session holds the tree that patches edit and hands the frames drawn from it to a sink: it starts
the sink once, numbers the frames from nought, and finishes the sink once.
-/

namespace RetainedUi

/-- A rendering session that hands its frames to a sink in a state of type `σ`. -/
structure Session (σ : Type) where
  config : Config
  surface : Surface
  device : Device
  store : Store := .empty
  sink : σ
  /-- The index that the next frame gets. -/
  nextFrame : Nat := 0
  /-- The newest patch that was long enough for a header. -/
  lastPatch : Option Bytes := none
  /-- The layout that the newest frame was drawn from. -/
  lastLayout : Layout := {}
  input : InputQueue := .empty
  stats : Stats := {}
  closed : Bool := false

namespace Session

variable {σ : Type}

/-! ## Patches -/

/-- Applies the records that a decoder still has to a store, counting them into a report. -/
def applyRecords (d : Decoder) (store : Store) (report : PatchReport) : PatchReport × Store :=
  match h : d.next with
  | (some (.ok record), d') =>
    have := Decoder.length_rest_lt h
    let (answer, store) := store.apply record
    applyRecords d' store (report.count answer)
  | (some (.error e), d') =>
    ({ report with status := .truncated e, consumed := d'.position }, store)
  | (none, d') => ({ report with consumed := d'.position }, store)
termination_by d.rest.length

/-- The patch to remember after `bytes` came in. -/
def retained (last : Option Bytes) (bytes : Bytes) : Option Bytes :=
  if headerLength ≤ bytes.length then some bytes else last

/-- Applies every complete record of a patch, in order. A refused record is counted and passed
over. -/
def applyPatch (s : Session σ) (bytes : Bytes) : PatchReport × Session σ :=
  let (report, store) :=
    match Decoder.ofBytes bytes with
    | .error e => (PatchReport.ofIgnored e, s.store)
    | .ok d => applyRecords d s.store {}
  (report, { s with
    store, lastPatch := retained s.lastPatch bytes, stats := s.stats.countPatch report })

/-! ## Input -/

def pushInput (s : Session σ) (e : InputEvent) : Session σ :=
  let (evicted, input) := s.input.push e
  let inputDropped := if evicted then s.stats.inputDropped + 1 else s.stats.inputDropped
  { s with input, stats := { s.stats with inputDropped } }

def drainInput (s : Session σ) : List InputEvent × Session σ :=
  let (events, input) := s.input.drain
  (events, { s with input })

/-! ## Diagnostics -/

/-- The session as it is shown in diagnostics. -/
def label (s : Session σ) : String :=
  s!"Engine \x7b surface: Surface \x7b width: {s.surface.width}, " ++
  s!"height: {s.surface.height} \x7d, " ++
  s!"device: {s.device.name}, nodes: {s.store.size}, next_frame: {s.nextFrame}, .. \x7d"

variable [FrameSink σ]

/-! ## Beginning and end -/

/-- Starts a sink and a session for it; a failure leaves the sink as it then is. A sink is not
called for a configuration that is refused. -/
def create (config : Config) (sink : σ) : Except (Failure × σ) (Session σ) :=
  match config.validate with
  | .error e => .error (.validation e, sink)
  | .ok (surface, device) =>
    match FrameSink.start ⟨surface.width, surface.height, device⟩ sink with
    | (.error e, sink) => .error (e, sink)
    | (.ok (), sink) => .ok { config, surface, device, sink }

/-- Forgets the tree and finishes the sink, unless that has been done. -/
def shutdown (s : Session σ) : Except Failure Unit × Session σ :=
  if s.closed then (.ok (), s)
  else
    let (answer, sink) := FrameSink.finish s.sink
    (answer, { s with
      store := s.store.releaseAll.2, lastPatch := none, lastLayout := {}, sink, closed := true })

/-- Shuts a session down that is given up; nobody hears what the sink answers. -/
def drop (s : Session σ) : Session σ := s.shutdown.2

/-- Shuts a session down, and gives it up. -/
def destroy (s : Session σ) : Except Failure Unit × Session σ :=
  let (answer, s) := s.shutdown
  (answer, s.drop)

/-! ## Frames -/

/-- What became of a frame that the sink answered to. -/
def outcomeOf : Except Failure Unit → FrameOutcome
  | .ok () => .presented
  | .error e => .sinkFailed e

/-- A request for a frame that there is no room to draw. It reaches no sink and takes no index. -/
def skipFrame (s : Session σ) (timestamp : Nat) : FrameReport × Session σ :=
  ({ index := none, outcome := .skipped, nodesPainted := 0, timestamp },
    { s with stats := s.stats.countFrame .skipped })

/-- Lays out the tree, paints it on a blank frame and hands the frame to the sink. The frame takes an
index whether or not the sink accepts it. -/
def drawFrame (s : Session σ) (blank : Frame) (timestamp : Nat) : FrameReport × Session σ :=
  let layout := Layout.solve s.store s.surface.bounds
  let (answer, sink) := FrameSink.push s.nextFrame (blank.paint layout) s.sink
  let outcome := outcomeOf answer
  ({ index := some s.nextFrame, outcome, nodesPainted := layout.entries.length, timestamp },
    { s with
      sink, nextFrame := s.nextFrame + 1, lastLayout := layout
      stats := s.stats.countFrame outcome })

/-- Draws a frame of the tree, if a frame of the surface can be had. -/
def beginFrame (s : Session σ) (timestamp : Nat) : FrameReport × Session σ :=
  match Frame.filled? s.surface .background with
  | none => s.skipFrame timestamp
  | some blank => s.drawFrame blank timestamp

end Session

end RetainedUi
