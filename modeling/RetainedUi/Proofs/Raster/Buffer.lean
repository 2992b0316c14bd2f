import RetainedUi.Proofs.Raster.Fill
import RetainedUi.Proofs.Raster.Frame
import RetainedUi.Raster.Paint
import RetainedUi.Wire.Word

/-!
# Fills in a buffer

The bytes of a frame lie row after row in one buffer. A fill writes its colour over one slice of each row
that the rectangle meets, and every such slice lies inside the buffer.
-/

namespace RetainedUi.Frame

variable {f : Frame} {s : Surface} {c : Color}

/-! ## Frames that were filled -/

/-- A frame that was made for a surface, and has been filled since. -/
inductive Drawn (s : Surface) : Frame → Prop
  | blank {c : Color} {f : Frame} : filled? s c = some f → Drawn s f
  | fill {f : Frame} (r : Rect) (c : Color) : Drawn s f → Drawn s (f.fill r c)

theorem Fits.fill (hf : f.Fits s) (r : Rect) (c : Color) : (f.fill r c).Fits s where
  width := hf.width
  height := hf.height

theorem Drawn.fits (hf : Drawn s f) : f.Fits s := by
  induction hf with
  | blank hf => exact fits_of_filled? hf
  | fill r c _ ih => exact ih.fill r c

theorem Fits.exists_pixel? (hf : f.Fits s) {x y : Nat} (hx : x < s.width) (hy : y < s.height) :
    ∃ c, f.pixel? x y = some c :=
  f.exists_pixel? (hf.width ▸ hx) (hf.height ▸ hy)

/-! ## Slices in bytes -/

/-- Bytes with a colour in place of every three bytes of a slice. -/
def overwrite (c : Color) (bytes : Bytes) (slice : Nat × Nat) : Bytes :=
  bytes.take slice.1 ++ ((List.replicate ((slice.2 - slice.1) / 3) c).flatMap Color.channels ++
    bytes.drop slice.2)

theorem flatMap_channels_take (l : List Color) (n : Nat) :
    (l.flatMap Color.channels).take (3 * n) = (l.take n).flatMap Color.channels := by
  induction l generalizing n with
  | nil => simp
  | cons d l ih =>
      cases n with
      | zero => rfl
      | succ n => exact congrArg (d.channels ++ ·) (ih n)

theorem flatMap_channels_drop (l : List Color) (n : Nat) :
    (l.flatMap Color.channels).drop (3 * n) = (l.drop n).flatMap Color.channels := by
  induction l generalizing n with
  | nil => simp
  | cons d l ih =>
      cases n with
      | zero => rfl
      | succ n => exact ih n

theorem overwrite_flatMap (c : Color) (l : List Color) {slice : Nat × Nat} (hle : slice.1 ≤ slice.2)
    (hwhole : 3 ∣ slice.1 ∧ 3 ∣ slice.2) :
    overwrite c (l.flatMap Color.channels) slice =
      (l.take (slice.1 / 3) ++ (List.replicate ((slice.2 - slice.1) / 3) c ++
        l.drop (slice.1 / 3 + (slice.2 - slice.1) / 3))).flatMap Color.channels := by
  have hstart : 3 * (slice.1 / 3) = slice.1 := by omega
  have hend : 3 * (slice.1 / 3 + (slice.2 - slice.1) / 3) = slice.2 := by omega
  rw [overwrite, List.flatMap_append, List.flatMap_append, ← flatMap_channels_take,
    ← flatMap_channels_drop, hstart, hend]

theorem toList_fillRun {size i n : Nat} (h : i + n ≤ size) (c : Color) (pixels : Vector Color size) :
    (fillRun c i n h pixels).toList =
      pixels.toList.take i ++ (List.replicate n c ++ pixels.toList.drop (i + n)) := by
  have hlength : (pixels.toList.take i).length = i := by
    rw [List.length_take, Vector.length_toList]
    omega
  refine List.ext_getElem? fun j => ?_
  rw [Vector.getElem?_toList, getElem?_fillRun, List.getElem?_append, hlength, List.getElem?_append,
    List.length_replicate]
  by_cases hbefore : j < i
  · rw [if_neg (by omega), if_pos hbefore, List.getElem?_take_of_lt hbefore, Vector.getElem?_toList]
  by_cases hin : j - i < n
  · rw [if_pos (by omega), if_neg hbefore, if_pos hin, List.getElem?_replicate_of_lt hin]
  · rw [if_neg (by omega), if_neg hbefore, if_neg hin, List.getElem?_drop, Vector.getElem?_toList]
    congr 1
    omega

/-- Slices of whole pixels are written one after the other, and nothing else is. -/
theorem flatMap_fillSlices {size : Nat} {slices : List (Nat × Nat)}
    (h : ∀ slice ∈ slices, slice.1 ≤ slice.2 ∧ slice.2 ≤ 3 * size)
    (hwhole : ∀ slice ∈ slices, 3 ∣ slice.1 ∧ 3 ∣ slice.2) (c : Color) (pixels : Vector Color size) :
    (fillSlices c slices h pixels).toList.flatMap Color.channels =
      slices.foldl (overwrite c) (pixels.toList.flatMap Color.channels) := by
  induction slices generalizing pixels with
  | nil => rfl
  | cons slice slices ih =>
      rw [List.forall_mem_cons] at hwhole
      rw [fillSlices, ih _ hwhole.2, toList_fillRun, List.foldl_cons,
        overwrite_flatMap c _ (h slice List.mem_cons_self).1 hwhole.1]

theorem whole_of_mem_slices {r : Rect} : ∀ slice ∈ f.slices r, 3 ∣ slice.1 ∧ 3 ∣ slice.2 := by
  intro slice h
  rw [slices] at h
  split at h
  · cases h
  · obtain ⟨y, -, rfl⟩ := List.mem_map.mp h
    have hrow : 3 ∣ y * (3 * f.width) := Nat.dvd_mul_left_of_dvd (Nat.dvd_mul_right 3 f.width) y
    exact ⟨Nat.dvd_add hrow (Nat.dvd_mul_right ..), Nat.dvd_add hrow (Nat.dvd_mul_right ..)⟩

/-- A fill writes its slices into the buffer, and nothing else. -/
theorem bytes_fill (f : Frame) (r : Rect) (c : Color) :
    (f.fill r c).bytes.data.toList = (f.slices r).foldl (overwrite c) f.bytes.data.toList := by
  rw [bytes_eq, bytes_eq]
  exact flatMap_fillSlices (f.slices_le r) whole_of_mem_slices c f.pixels

/-! ## What a fill paints -/

/-- On a frame that was made for a surface, and may have been filled since, a fill gives its colour to the
pixels of the frame that lie in the rectangle, by exact coordinates, and to no others. The size of the frame
and of its buffer stays, and each slice that is written lies inside the buffer. -/
theorem Drawn.fill_clipped (hf : Drawn s f) (r : Rect) (c : Color) :
    let g := f.fill r c
    (∀ x y : Nat, x < s.width → y < s.height →
      ∃ old, f.pixel? x y = some old ∧ g.pixel? x y = some (if r.Contains x y then c else old) ∧
        (g.bytes.data.toList.drop (3 * (y * g.width + x))).take 3 =
          (if r.Contains x y then c else old).channels) ∧
      f.width = s.width ∧ f.height = s.height ∧ g.width = s.width ∧ g.height = s.height ∧
      f.bytes.size = 3 * s.width * s.height ∧ g.bytes.size = 3 * s.width * s.height ∧
      g.bytes.data.toList = (f.slices r).foldl (overwrite c) f.bytes.data.toList ∧
      ∀ slice ∈ f.slices r, slice.1 ≤ slice.2 ∧ slice.2 ≤ f.bytes.size := by
  intro g
  have hfits := hf.fits
  have hg := hfits.fill r c
  refine ⟨fun x y hx hy => ?_, hfits.width, hfits.height, hg.width, hg.height, hfits.size_bytes,
    hg.size_bytes, f.bytes_fill r c, f.size_bytes ▸ f.slices_le r⟩
  obtain ⟨old, hold⟩ := hfits.exists_pixel? hx hy
  have hpixel : g.pixel? x y = some (if r.Contains x y then c else old) :=
    (paints_fill f r c).pixel?_of_eq_some hold
  exact ⟨old, hold, hpixel, bytes_of_pixel? hpixel⟩

/-- A rectangle that sticks out of a small frame on the left and at the bottom. -/
theorem fill_clipped_corner :
    ∃ f : Frame, filled? ⟨4, 3⟩ .background = some f ∧ f.slices ⟨-5, 1, 7, 100⟩ = [(12, 18), (24, 30)] ∧
      (f.fill ⟨-5, 1, 7, 100⟩ .leafFill).pixel? 1 2 = some .leafFill ∧
      (f.fill ⟨-5, 1, 7, 100⟩ .leafFill).pixel? 2 2 = some .background := by
  have hdrawn : Drawn ⟨4, 3⟩ ⟨4, 3, .replicate _ .background⟩ := .blank rfl
  obtain ⟨hpixel, -⟩ := hdrawn.fill_clipped ⟨-5, 1, 7, 100⟩ .leafFill
  obtain ⟨old, -, hin, -⟩ := hpixel 1 2 (by decide) (by decide)
  obtain ⟨old', hold', hout, -⟩ := hpixel 2 2 (by decide) (by decide)
  cases hold'
  exact ⟨_, rfl, by decide, hin, hout⟩

end RetainedUi.Frame
