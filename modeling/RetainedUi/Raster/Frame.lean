import RetainedUi.Geometry.Surface

/-!
# Frames

A frame is a grid of colours, row after row. What is drawn beyond its edges is left out.
-/

namespace RetainedUi

structure Color where
  r : UInt8
  g : UInt8
  b : UInt8
deriving DecidableEq, Repr, Inhabited

/-- The channels of a colour, in the order of a frame's bytes. -/
def Color.channels (c : Color) : List UInt8 := [c.r, c.g, c.b]

structure Frame where
  width : Nat
  height : Nat
  /-- The pixels of each row from the left, the rows from the top. -/
  pixels : Vector Color (width * height)
deriving DecidableEq, Repr, Inhabited

namespace Frame

/-! ## New frames -/

/-- The longest buffer that can be asked for, in bytes. -/
def maxBytes : Nat := 9223372036854775807

/-- A frame of one colour, unless its bytes are more than a buffer can hold. -/
def filled? (s : Surface) (c : Color) : Option Frame :=
  if s.byteLength ≤ maxBytes then some ⟨s.width, s.height, .replicate _ c⟩
  else none

/-! ## Pixels -/

/-- The colour at a place, if it is in the frame. -/
def pixel? (f : Frame) (x y : Nat) : Option Color :=
  if x < f.width ∧ y < f.height then f.pixels[y * f.width + x]? else none

/-- The number of bytes at three bytes a pixel. -/
def byteLength (f : Frame) : Nat := 3 * (f.width * f.height)

/-- The bytes of the frame, three for each pixel. -/
def bytes (f : Frame) : ByteArray :=
  f.pixels.foldl (fun bytes c => ((bytes.push c.r).push c.g).push c.b)
    (ByteArray.emptyWithCapacity f.byteLength)

/-! ## Filling -/

/-- The position nearest to `n` among those from nought to `limit`. -/
def nearest (limit : Nat) (n : Int) : Nat := (max 0 (min n limit)).toNat

/-- The part of a rectangle that is in the frame: its first column and row, and those past its end. -/
def clip (f : Frame) (r : Rect) : Option (Nat × Nat × Nat × Nat) :=
  let x₀ := nearest f.width r.x
  let y₀ := nearest f.height r.y
  let x₁ := nearest f.width (r.x + r.w)
  let y₁ := nearest f.height (r.y + r.h)
  if r.isEmpty ∨ x₁ ≤ x₀ ∨ y₁ ≤ y₀ then none else some (x₀, y₀, x₁, y₁)

theorem le_of_clip {f : Frame} {r : Rect} {x₀ y₀ x₁ y₁ : Nat} (h : f.clip r = some (x₀, y₀, x₁, y₁)) :
    x₀ ≤ x₁ ∧ x₁ ≤ f.width ∧ y₁ ≤ f.height := by
  simp only [clip] at h
  split at h
  · cases h
  · rename_i hmeets
    cases h
    simp only [nearest] at hmeets ⊢
    omega

/-- Where the bytes begin and end that a fill writes, one slice in each row. -/
def slices (f : Frame) (r : Rect) : List (Nat × Nat) :=
  match f.clip r with
  | none => []
  | some (x₀, y₀, x₁, y₁) =>
    let stride := 3 * f.width
    (List.range' y₀ (y₁ - y₀)).map fun y => (y * stride + 3 * x₀, y * stride + 3 * x₁)

/-- A slice of a row ends where the row ends at the latest. -/
theorem slices_le (f : Frame) (r : Rect) :
    ∀ slice ∈ f.slices r, slice.1 ≤ slice.2 ∧ slice.2 ≤ 3 * (f.width * f.height) := by
  intro slice h
  rw [slices] at h
  split at h
  · cases h
  · rename_i hclip
    obtain ⟨y, hy, rfl⟩ := List.mem_map.mp h
    rw [List.mem_range'_1] at hy
    obtain ⟨hx, hwidth, hheight⟩ := le_of_clip hclip
    have hrow : (y + 1) * (3 * f.width) ≤ f.height * (3 * f.width) :=
      Nat.mul_le_mul_right _ (by omega)
    rw [Nat.add_mul, Nat.one_mul, Nat.mul_left_comm f.height, Nat.mul_comm f.height] at hrow
    omega

/-- Colours `n` pixels from position `i` on. -/
def fillRun {size : Nat} (c : Color) (i n : Nat) (h : i + n ≤ size) (pixels : Vector Color size) :
    Vector Color size :=
  match n, h with
  | 0, _ => pixels
  | n + 1, h => fillRun c (i + 1) n (by omega) (pixels.set i c (by omega))

/-- Colours the pixels in slices of bytes, three bytes to a pixel. -/
def fillSlices {size : Nat} (c : Color) (slices : List (Nat × Nat))
    (h : ∀ slice ∈ slices, slice.1 ≤ slice.2 ∧ slice.2 ≤ 3 * size) (pixels : Vector Color size) :
    Vector Color size :=
  match slices, h with
  | [], _ => pixels
  | slice :: slices, h =>
    have hslice := h slice List.mem_cons_self
    fillSlices c slices (fun slice hs => h slice (List.mem_cons_of_mem _ hs))
      (fillRun c (slice.1 / 3) ((slice.2 - slice.1) / 3) (by omega) pixels)

/-- Colours the part of a rectangle that is in the frame. -/
def fill (f : Frame) (r : Rect) (c : Color) : Frame :=
  { f with pixels := fillSlices c (f.slices r) (f.slices_le r) f.pixels }

/-- Colours four bars along the sides of a rectangle, each inside it and `thickness` thick. -/
def outline (f : Frame) (r : Rect) (thickness : Int) (c : Color) : Frame :=
  let a := Arithmetic.clamped
  let farX := a.sub (a.add r.x r.w) thickness
  let farY := a.sub (a.add r.y r.h) thickness
  let f := f.fill ⟨r.x, r.y, r.w, thickness⟩ c
  let f := f.fill ⟨r.x, farY, r.w, thickness⟩ c
  let f := f.fill ⟨r.x, r.y, thickness, r.h⟩ c
  f.fill ⟨farX, r.y, thickness, r.h⟩ c

end Frame

end RetainedUi
