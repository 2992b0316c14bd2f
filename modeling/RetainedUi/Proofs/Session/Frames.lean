import RetainedUi.Proofs.Layout.Saturation
import RetainedUi.Proofs.Session.Settings

/-!
# The frames of a session

A session lays out its tree on a usable surface. A frame that it hands to its sink shows this layout, entry
over entry.
-/

namespace RetainedUi.Session

variable {σ : Type} [FrameSink σ]

/-! ## What a session lays out -/

theorem surface_step (s : Session σ) (call : HostCall) : (s.step call).2.surface = s.surface := by
  cases call with
  | frame timestamp room =>
      rcases s.request_cases timestamp room with h | ⟨blank, _, h⟩ <;> rw [step, h] <;> rfl
  | patch | input | drain => rfl

theorem surface_run (s : Session σ) (calls : List HostCall) : (s.run calls).2.surface = s.surface := by
  induction calls generalizing s with
  | nil => rfl
  | cons call calls ih => exact (ih (s.step call).2).trans (s.surface_step call)

section Created

variable {config : Config} {sink : σ} {s : Session σ}

theorem usable_of_create (hs : create config sink = .ok s) : s.surface.Usable := by
  obtain ⟨surface, device, started, hvalid, -, rfl⟩ := started_of_create hs
  exact Config.usable_of_validate hvalid

/-- Whatever is asked of a session that was created from a configuration, its surface stays usable, and
all boxes of its layouts are in the coordinate space. -/
theorem inSpace_of_create (hs : create config sink = .ok s) (calls : List HostCall) :
    let t := (s.run calls).2
    t.surface.Usable ∧ ∀ e ∈ (Layout.solve t.store t.surface.bounds).entries, e.rect.InSpace := by
  intro t
  have hw := (reachable_of_create hs calls).wellFormed
  have hu : t.surface.Usable := (s.surface_run calls).symm ▸ usable_of_create hs
  exact ⟨hu, Layout.inSpace_of_mem_solve hw hu.inSpace_bounds⟩

end Created

/-! ## What a session shows -/

/-- Unless a frame is skipped, the sink gets a frame of three bytes for each pixel of the surface, and
each pixel has the colour of the last entry of the layout that covers it, or else that of the background.
An entry that covers no pixel of the surface changes nothing. -/
theorem beginFrame_paints (s : Session (Recorded σ)) (timestamp : Nat)
    (h : (s.beginFrame timestamp).1.outcome ≠ .skipped) :
    let layout := Layout.solve s.store s.surface.bounds
    ∃ f : Frame, (s.beginFrame timestamp).2.sink.calls = s.sink.calls ++ [.push s.nextFrame f] ∧
      f.width = s.surface.width ∧ f.height = s.surface.height ∧
      f.bytes.size = 3 * s.surface.width * s.surface.height ∧
      (∀ x y : Nat, x < s.surface.width → y < s.surface.height →
        f.pixel? x y = some (layout.colorAt x y) ∧
        (f.bytes.data.toList.drop (3 * (y * s.surface.width + x))).take 3 =
          (layout.colorAt x y).channels) ∧
      ∀ e ∈ layout.entries, (∀ x y : Nat, x < s.surface.width → y < s.surface.height → ¬ e.Covers x y) →
        ∀ g : Frame, g.Fits s.surface → g.paintEntry e = g := by
  intro layout
  obtain hskip | ⟨blank, hblank, hdraw⟩ := s.request_cases timestamp true
  · exact absurd (congrArg (·.1.outcome) hskip) h
  have hfits := (Frame.fits_of_filled? hblank).paint layout
  refine ⟨blank.paint layout, ?_, hfits.width, hfits.height, hfits.size_bytes, fun x y hx hy => ?_,
    fun e _ he g hg => hg.paintEntry_eq_self he⟩
  · exact congrArg (·.2.sink.calls) hdraw
  · have hpixel := Frame.pixel?_paint hblank layout hx hy
    exact ⟨hpixel, hfits.width ▸ Frame.bytes_of_pixel? hpixel⟩

/-- A column with a text in it, on a small surface. -/
def sampleSession : Session (Recorded NullSink) where
  config := {}
  surface := ⟨20, 40⟩
  device := .gl
  store := (Store.empty.applyAll Store.sample).2
  sink := { sink := {} }

theorem solve_sampleSession : Layout.solve sampleSession.store sampleSession.surface.bounds =
    { entries := [⟨⟨1⟩, .column, ⟨0, 0, 20, 40⟩, false, 0⟩, ⟨⟨2⟩, .text, ⟨0, 0, 20, 32⟩, true, 1⟩] } := by
  have hw := (Store.Reachable.empty.applyAll Store.sample).wellFormed
  have hn : (Store.empty.applyAll Store.sample).2.get? ⟨0, 0⟩ =
      some { id := ⟨1⟩, kind := .column, children := #[⟨1, 0⟩] } := by decide
  have hroot : sampleSession.store.root? = some ⟨0, 0⟩ := hw.root?_of_first hn rfl rfl
  rw [Layout.solve, Layout.solveIn, hroot]
  decide +kernel

theorem beginFrame_paints_sample :
    ∃ f : Frame, (sampleSession.beginFrame 0).2.sink.calls = [.push 0 f] ∧ f.bytes.size = 2400 ∧
      f.pixel? 1 1 = some .containerOutline ∧ f.pixel? 4 4 = some .leafFill ∧
      f.pixel? 10 30 = some .background := by
  obtain ⟨f, hcalls, _, _, hbytes, hpixel, _⟩ :=
    beginFrame_paints sampleSession 0 FrameOutcome.noConfusion
  rw [solve_sampleSession] at hpixel
  refine ⟨f, hcalls, hbytes, (hpixel 1 1 ?_ ?_).1, (hpixel 4 4 ?_ ?_).1, (hpixel 10 30 ?_ ?_).1⟩ <;>
    decide

end RetainedUi.Session
