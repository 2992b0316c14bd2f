import RetainedUi.Failure
import RetainedUi.Raster.Frame

/-!
# Sinks

A sink takes the finished frames of a session: it is started once, given frames, and finished. Each
call may fail, and leaves the sink in some state either way.
-/

namespace RetainedUi

/-- What a sink is told when a session starts. -/
structure SinkConfig where
  width : Nat
  height : Nat
  device : Device
deriving DecidableEq, Repr

/-- The size of the frames to come. -/
def SinkConfig.surface (c : SinkConfig) : Surface := ⟨c.width, c.height⟩

/-- A sink whose states are the values of `σ`. -/
class FrameSink (σ : Type) where
  start : SinkConfig → σ → Except Failure Unit × σ
  /-- Takes the frame with an index. -/
  push : Nat → Frame → σ → Except Failure Unit × σ
  finish : σ → Except Failure Unit × σ

/-- Refuses a frame before the start, and one of another size. -/
def SinkConfig.check (config : Option SinkConfig) (f : Frame) : Except Failure Unit :=
  match config with
  | none => .error (.output .notStarted)
  | some c =>
    if f.width = c.width ∧ f.height = c.height then .ok ()
    else .error (.output (.sizeMismatch ⟨f.width, f.height⟩ c.surface))

/-! ## Keeping frames -/

/-- Keeps every frame. -/
structure MemorySink where
  config : Option SinkConfig := none
  /-- The frames with their indices, as they came. -/
  frames : Array (Nat × Frame) := #[]
deriving DecidableEq, Repr

namespace MemorySink

def last? (s : MemorySink) : Option Frame := s.frames.back?.map Prod.snd

instance : FrameSink MemorySink where
  start c _ := (.ok (), { config := some c })
  push i f s :=
    match SinkConfig.check s.config f with
    | .ok () => (.ok (), { s with frames := s.frames.push (i, f) })
    | .error e => (.error e, s)
  finish s := (.ok (), s)

end MemorySink

/-! ## Counting frames -/

structure NullSink where
  pushed : Nat := 0
deriving DecidableEq, Repr

instance : FrameSink NullSink where
  start _ s := (.ok (), s)
  push _ _ s := (.ok (), ⟨s.pushed + 1⟩)
  finish s := (.ok (), s)

end RetainedUi
