import Mathlib.Data.List.Induction
import RetainedUi.Proofs.Raster.Fill
import RetainedUi.Proofs.Raster.Frame
import RetainedUi.Raster.Paint

/-!
# The painter's algorithm

Entries are painted one over the other, so that each pixel shows the last entry that covers it.
-/

namespace RetainedUi

/-! ## What an entry covers -/

/-- The bars along the top, bottom, left and right side of a box. The far bars start two before the far
end of the box, where that is still a coordinate. -/
def Rect.bars (r : Rect) : List Rect :=
  let farX := Coord.clamp (min (r.x + r.w) Coord.greatest - 2)
  let farY := Coord.clamp (min (r.y + r.h) Coord.greatest - 2)
  [⟨r.x, r.y, r.w, 2⟩, ⟨r.x, farY, r.w, 2⟩, ⟨r.x, r.y, 2, r.h⟩, ⟨farX, r.y, 2, r.h⟩]

/-- The bars of an outline of any thickness. The far ones start so far before the far end of the rectangle,
or of the coordinate space, as they are thick. -/
def Rect.sides (r : Rect) (t : Int) : List Rect :=
  let a := Arithmetic.clamped
  let farX := a.sub (a.add r.x r.w) t
  let farY := a.sub (a.add r.y r.h) t
  [⟨r.x, r.y, r.w, t⟩, ⟨r.x, farY, r.w, t⟩, ⟨r.x, r.y, t, r.h⟩, ⟨farX, r.y, t, r.h⟩]

theorem Rect.bars_eq_sides (r : Rect) : r.bars = r.sides outlineWidth := by
  have hfar : ∀ n : Int, Coord.clamp (min n Coord.greatest - 2) =
      Coord.clamp (Coord.clamp n - outlineWidth) := by
    intro n
    simp only [Coord.clamp, Coord.least, Coord.greatest, outlineWidth]
    omega
  simp only [bars, hfar]
  rfl

namespace LayoutEntry

def areas (e : LayoutEntry) : List Rect := if e.leaf then [e.rect.inset 4] else e.rect.bars

def color (e : LayoutEntry) : Color := if e.leaf then .leafFill else .containerOutline

/-- The pixel `(x, y)` is painted for the entry, if the frame has it. -/
def Covers (e : LayoutEntry) (x y : Int) : Prop := ∃ r ∈ e.areas, r.Contains x y

instance (e : LayoutEntry) (x y : Int) : Decidable (e.Covers x y) :=
  inferInstanceAs (Decidable (∃ r ∈ e.areas, r.Contains x y))

end LayoutEntry

/-- The colour of a pixel under entries: that of the last one that covers it, or else the colour there
was. -/
def shownColor (entries : List LayoutEntry) (under : Color) (x y : Int) : Color :=
  ((entries.reverse.find? (·.Covers x y)).map LayoutEntry.color).getD under

/-- The colour of a pixel in a frame of a layout. -/
def Layout.colorAt (l : Layout) (x y : Int) : Color := shownColor l.entries .background x y

theorem shownColor_concat (entries : List LayoutEntry) (e : LayoutEntry) (under : Color) (x y : Int) :
    shownColor (entries ++ [e]) under x y =
      if e.Covers x y then e.color else shownColor entries under x y := by
  rw [shownColor, List.reverse_concat, List.find?_cons]
  by_cases hc : e.Covers x y <;> simp [hc, shownColor]

/-! ## Painting -/

namespace Frame

variable {f : Frame} {s : Surface}

theorem outline_eq (f : Frame) (r : Rect) (t : Int) (c : Color) :
    f.outline r t c = (r.sides t).foldl (fun f r => f.fill r c) f := rfl

theorem paintEntry_eq (f : Frame) (e : LayoutEntry) :
    f.paintEntry e = e.areas.foldl (fun f r => f.fill r e.color) f := by
  rw [paintEntry, LayoutEntry.areas, LayoutEntry.color]
  split
  · rfl
  · rw [Rect.bars_eq_sides, outline_eq]

theorem paints_entry (f : Frame) (e : LayoutEntry) : f.Paints e.Covers e.color (f.paintEntry e) := by
  rw [paintEntry_eq]
  exact paints_fillAll f e.areas e.color

theorem Fits.paintEntry (hf : f.Fits s) (e : LayoutEntry) : (f.paintEntry e).Fits s where
  width := (paints_entry f e).width.trans hf.width
  height := (paints_entry f e).height.trans hf.height

/-- An entry that covers no pixel of the surface changes nothing. -/
theorem Fits.paintEntry_eq_self (hf : f.Fits s) {e : LayoutEntry}
    (he : ∀ x y : Nat, x < s.width → y < s.height → ¬ e.Covers x y) : f.paintEntry e = f :=
  (hf.paintEntry e).ext hf fun x y hx hy => (paints_entry f e).outside x y (he x y hx hy)

theorem Fits.paint (hf : f.Fits s) (l : Layout) : (f.paint l).Fits s := by
  rw [Frame.paint]
  induction l.entries generalizing f with
  | nil => exact hf
  | cons e es ih => exact ih (hf.paintEntry e)

theorem pixel?_foldl_paintEntry {under : Color} {x y : Nat} (h : f.pixel? x y = some under)
    (entries : List LayoutEntry) :
    (entries.foldl paintEntry f).pixel? x y = some (shownColor entries under x y) := by
  -- The entry painted last shows where it covers the pixel; elsewhere the entries before it do.
  induction entries using List.reverseRecOn with
  | nil => exact h
  | append_singleton entries e ih =>
      have he := paints_entry (entries.foldl paintEntry f) e
      rw [List.foldl_append, List.foldl_cons, List.foldl_nil, shownColor_concat, he.pixel?_of_eq_some ih]

theorem pixel?_paint {blank : Frame} (hblank : filled? s .background = some blank) (l : Layout)
    {x y : Nat} (hx : x < s.width) (hy : y < s.height) :
    (blank.paint l).pixel? x y = some (l.colorAt x y) :=
  pixel?_foldl_paintEntry (pixel?_of_filled? hblank hx hy) l.entries

end Frame

end RetainedUi
