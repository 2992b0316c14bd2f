import RetainedUi.Raster.Frame

/-!
# Frames as grids of pixels

A frame of a surface has a colour for each pixel, is told by these colours, and gives three bytes for
each of them.
-/

namespace RetainedUi.Frame

variable {f g : Frame} {s : Surface} {c : Color}

/-! ## Pixels -/

/-- The frame has the size of a surface. -/
structure Fits (f : Frame) (s : Surface) : Prop where
  width : f.width = s.width
  height : f.height = s.height

theorem fits_of_filled? (hf : filled? s c = some f) : f.Fits s := by
  simp only [filled?, Option.ite_none_right_eq_some, Option.some.injEq] at hf
  obtain ⟨_, rfl⟩ := hf
  exact ⟨rfl, rfl⟩

theorem index_lt {width height x y : Nat} (hx : x < width) (hy : y < height) :
    y * width + x < width * height := by
  have hrow : (y + 1) * width ≤ height * width := Nat.mul_le_mul_right width hy
  rw [Nat.add_mul, Nat.one_mul, Nat.mul_comm height] at hrow
  omega

theorem exists_pixel? (f : Frame) {x y : Nat} (hx : x < f.width) (hy : y < f.height) :
    ∃ c, f.pixel? x y = some c := by
  rw [pixel?, if_pos ⟨hx, hy⟩]
  exact ⟨_, Vector.getElem?_eq_getElem (index_lt hx hy)⟩

theorem pixel?_of_filled? (hf : filled? s c = some f) {x y : Nat} (hx : x < s.width)
    (hy : y < s.height) : f.pixel? x y = some c := by
  have hindex := index_lt hx hy
  simp only [filled?, Option.ite_none_right_eq_some, Option.some.injEq] at hf
  obtain ⟨_, rfl⟩ := hf
  rw [pixel?, if_pos ⟨hx, hy⟩]
  simp [hindex]

/-- Frames of a surface are told apart by their pixels. -/
theorem Fits.ext (hf : f.Fits s) (hg : g.Fits s)
    (h : ∀ x y, x < s.width → y < s.height → f.pixel? x y = g.pixel? x y) : f = g := by
  obtain ⟨fw, fh, fp⟩ := f
  obtain ⟨gw, gh, gp⟩ := g
  obtain ⟨rfl, rfl⟩ := hf
  obtain ⟨hw, hh⟩ := hg
  cases hw
  cases hh
  congr 1
  refine Vector.ext fun i hi => ?_
  have hpos : 0 < s.width := Nat.pos_of_mul_pos_right (Nat.zero_lt_of_lt hi)
  have hx := Nat.mod_lt i hpos
  have hy : i / s.width < s.height := Nat.div_lt_of_lt_mul hi
  have hxy := h _ _ hx hy
  simp only [pixel?, hx, hy, and_self, ↓reduceIte, Nat.div_add_mod'] at hxy
  rwa [Vector.getElem?_eq_getElem hi, Vector.getElem?_eq_getElem hi, Option.some.injEq] at hxy

/-! ## Bytes -/

theorem bytes_eq (f : Frame) : f.bytes.data.toList = f.pixels.toList.flatMap Color.channels := by
  have hfold : ∀ (l : List Color) (b : ByteArray),
      (l.foldl (fun bytes c => ((bytes.push c.r).push c.g).push c.b) b).data.toList =
        b.data.toList ++ l.flatMap Color.channels := by
    intro l
    induction l with
    | nil => intro b; simp
    | cons c l ih =>
        intro b
        have hpush : (((b.push c.r).push c.g).push c.b).data = ((b.data.push c.r).push c.g).push c.b :=
          rfl
        rw [List.foldl_cons, ih, hpush]
        simp [Color.channels]
  rw [bytes, ← Vector.foldl_toList, hfold]
  rfl

theorem size_bytes (f : Frame) : f.bytes.size = f.byteLength := by
  rw [ByteArray.size, ← Array.length_toList, bytes_eq, List.length_flatMap]
  simp only [Color.channels, List.length_cons, List.length_nil, List.map_const', List.sum_replicate_nat,
    Vector.length_toList]
  rw [byteLength, Nat.mul_comm]

theorem Fits.size_bytes (hf : f.Fits s) : f.bytes.size = 3 * s.width * s.height := by
  rw [Frame.size_bytes, byteLength, hf.width, hf.height, Nat.mul_assoc]

/-- The three bytes of a pixel are the channels of its colour. -/
theorem bytes_of_pixel? {x y : Nat} (h : f.pixel? x y = some c) :
    (f.bytes.data.toList.drop (3 * (y * f.width + x))).take 3 = c.channels := by
  have hchannels : ∀ (l : List Color) (i : Nat), l[i]? = some c →
      ((l.flatMap Color.channels).drop (3 * i)).take 3 = c.channels := by
    intro l
    induction l with
    | nil => intro i hi; cases hi
    | cons d l ih =>
        intro i hi
        cases i with
        | zero => cases hi; rfl
        | succ i => exact ih i hi
  rw [pixel?, Option.ite_none_right_eq_some] at h
  rw [bytes_eq, hchannels _ _ (by rw [Vector.getElem?_toList]; exact h.2)]

end RetainedUi.Frame
