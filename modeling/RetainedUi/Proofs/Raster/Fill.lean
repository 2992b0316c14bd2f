import RetainedUi.Proofs.Raster.Frame

/-!
# Filled areas

Filling a rectangle gives its colour to the pixels of the frame that lie in it, by the exact
coordinates, and leaves all others as they are.
-/

namespace RetainedUi.Frame

variable {f g k : Frame} {c : Color} {area area' : Int → Int → Prop}

/-! ## Areas of one colour -/

/-- The pixels of `f` in an area have the colour `c` in `g`; the others are as in `f`. -/
structure Paints (f : Frame) (area : Int → Int → Prop) (c : Color) (g : Frame) : Prop where
  width : g.width = f.width
  height : g.height = f.height
  inside : ∀ x y : Nat, area x y → g.pixel? x y = (f.pixel? x y).map fun _ => c
  outside : ∀ x y : Nat, ¬ area x y → g.pixel? x y = f.pixel? x y

theorem Paints.nothing (harea : ∀ x y : Nat, ¬ area x y) : f.Paints area c f where
  width := rfl
  height := rfl
  inside x y h := absurd h (harea x y)
  outside _ _ _ := rfl

theorem Paints.trans (hf : f.Paints area c g) (hg : g.Paints area' c k) :
    f.Paints (fun x y => area x y ∨ area' x y) c k where
  width := hg.width.trans hf.width
  height := hg.height.trans hf.height
  inside x y h := by
    by_cases h' : area' x y
    · rw [hg.inside x y h']
      by_cases ha : area x y
      · rw [hf.inside x y ha, Option.map_map]
        rfl
      · rw [hf.outside x y ha]
    · rw [hg.outside x y h', hf.inside x y (h.resolve_right h')]
  outside x y h := by
    rw [not_or] at h
    rw [hg.outside x y h.2, hf.outside x y h.1]

theorem Paints.congr (h : f.Paints area c g) (harea : ∀ x y : Int, area x y ↔ area' x y) :
    f.Paints area' c g :=
  (funext fun x => funext fun y => propext (harea x y) : area = area') ▸ h

theorem Paints.pixel?_of_eq_some (h : f.Paints area c g) {x y : Nat} [Decidable (area x y)] {old : Color}
    (hold : f.pixel? x y = some old) : g.pixel? x y = some (if area x y then c else old) := by
  by_cases hxy : area x y
  · rw [if_pos hxy, h.inside x y hxy, hold, Option.map_some]
  · rw [if_neg hxy, h.outside x y hxy, hold]

/-! ## Slices -/

theorem getElem?_fillRun {size i n : Nat} (h : i + n ≤ size) (c : Color) (pixels : Vector Color size)
    (j : Nat) :
    (fillRun c i n h pixels)[j]? = if i ≤ j ∧ j < i + n then some c else pixels[j]? := by
  induction n generalizing i pixels with
  | zero => rw [fillRun, if_neg (by omega)]
  | succ n ih =>
      rw [fillRun, ih, Vector.getElem?_set]
      by_cases hij : i = j
      · rw [if_neg (by omega), if_pos hij, if_pos (by omega)]
      by_cases hj : i + 1 ≤ j ∧ j < i + 1 + n
      · rw [if_pos hj, if_pos (by omega)]
      · rw [if_neg hj, if_neg hij, if_neg (by omega)]

/-- A slice takes the bytes of the pixel at a position. -/
def Takes (slice : Nat × Nat) (i : Nat) : Prop :=
  slice.1 / 3 ≤ i ∧ i < slice.1 / 3 + (slice.2 - slice.1) / 3

instance (slice : Nat × Nat) (i : Nat) : Decidable (Takes slice i) := inferInstanceAs (Decidable (_ ∧ _))

theorem getElem?_fillSlices {size : Nat} {slices : List (Nat × Nat)}
    (h : ∀ slice ∈ slices, slice.1 ≤ slice.2 ∧ slice.2 ≤ 3 * size) (c : Color)
    (pixels : Vector Color size) (i : Nat) :
    (fillSlices c slices h pixels)[i]? =
      if ∃ slice ∈ slices, Takes slice i then some c else pixels[i]? := by
  induction slices generalizing pixels with
  | nil => rw [fillSlices, if_neg fun ⟨_, hslice, _⟩ => List.not_mem_nil hslice]
  | cons slice slices ih =>
      simp only [fillSlices, ih, getElem?_fillRun, List.mem_cons, or_and_right, exists_or, exists_eq_left]
      -- A later slice may take the pixel again, and then for the same colour.
      by_cases hlater : ∃ slice ∈ slices, Takes slice i
      · rw [if_pos hlater, if_pos (Or.inr hlater)]
      · simp only [hlater, ↓reduceIte, or_false]
        rfl

/-- A slice that stays in its row takes no pixel of another row. -/
theorem takes_row_iff {width x₀ x₁ row x y : Nat} (hx : x < width) (hle : x₀ ≤ x₁) (hwidth : x₁ ≤ width) :
    Takes (row * (3 * width) + 3 * x₀, row * (3 * width) + 3 * x₁) (y * width + x) ↔
      row = y ∧ x₀ ≤ x ∧ x < x₁ := by
  rw [Takes, Nat.mul_left_comm]
  -- Of two rows the upper one ends before the lower one begins.
  rcases Nat.lt_trichotomy row y with hlt | rfl | hlt
  · have hrow : (row + 1) * width ≤ y * width := Nat.mul_le_mul_right width hlt
    rw [Nat.add_mul, Nat.one_mul] at hrow
    omega
  · omega
  · have hrow : (y + 1) * width ≤ row * width := Nat.mul_le_mul_right width hlt
    rw [Nat.add_mul, Nat.one_mul] at hrow
    omega

/-! ## Rectangles -/

theorem contains_iff_of_clip {r : Rect} {x₀ y₀ x₁ y₁ x y : Nat} (h : f.clip r = some (x₀, y₀, x₁, y₁))
    (hx : x < f.width) (hy : y < f.height) :
    r.Contains x y ↔ (x₀ ≤ x ∧ x < x₁) ∧ y₀ ≤ y ∧ y < y₁ := by
  simp only [clip] at h
  split at h
  · cases h
  · cases h
    simp only [Rect.Contains, nearest]
    omega

theorem not_contains_of_clip {r : Rect} {x y : Nat} (h : f.clip r = none) (hx : x < f.width)
    (hy : y < f.height) : ¬ r.Contains x y := by
  simp only [clip] at h
  split at h
  · rename_i hmissed
    simp only [Rect.isEmpty, Bool.or_eq_true, decide_eq_true_eq, nearest] at hmissed
    simp only [Rect.Contains]
    omega
  · cases h

/-- The slices of a rectangle take its pixels, and no others. -/
theorem exists_takes_iff {r : Rect} {x y : Nat} (hx : x < f.width) (hy : y < f.height) :
    (∃ slice ∈ f.slices r, Takes slice (y * f.width + x)) ↔ r.Contains x y := by
  rw [slices]
  split
  · rename_i hclip
    simp only [List.not_mem_nil, false_and, exists_false, not_contains_of_clip hclip hx hy]
  · rename_i x₀ y₀ x₁ y₁ hclip
    obtain ⟨hle, hwidth, -⟩ := le_of_clip hclip
    rw [contains_iff_of_clip hclip hx hy]
    constructor
    · rintro ⟨slice, hslice, htakes⟩
      obtain ⟨row, hrow, rfl⟩ := List.mem_map.mp hslice
      obtain ⟨rfl, hcol⟩ := (takes_row_iff hx hle hwidth).mp htakes
      rw [List.mem_range'_1] at hrow
      exact ⟨hcol, by omega⟩
    · rintro ⟨hcol, hrow⟩
      exact ⟨_, List.mem_map_of_mem (List.mem_range'_1.mpr (by omega)),
        (takes_row_iff hx hle hwidth).mpr ⟨rfl, hcol⟩⟩

theorem pixel?_fill (f : Frame) (r : Rect) (c : Color) (x y : Nat) :
    (f.fill r c).pixel? x y =
      if r.Contains x y then (f.pixel? x y).map fun _ => c else f.pixel? x y := by
  by_cases hxy : x < f.width ∧ y < f.height
  · have hnew : (f.fill r c).pixel? x y =
        (fillSlices c (f.slices r) (f.slices_le r) f.pixels)[y * f.width + x]? := if_pos hxy
    have hold : f.pixel? x y = f.pixels[y * f.width + x]? := if_pos hxy
    rw [hnew, hold, getElem?_fillSlices, Vector.getElem?_eq_getElem (index_lt hxy.1 hxy.2),
      Option.map_some]
    simp only [exists_takes_iff hxy.1 hxy.2]
  · have hnew : (f.fill r c).pixel? x y = none := if_neg hxy
    have hold : f.pixel? x y = none := if_neg hxy
    rw [hnew, hold, Option.map_none, ite_self]

theorem paints_fill (f : Frame) (r : Rect) (c : Color) : f.Paints r.Contains c (f.fill r c) where
  width := rfl
  height := rfl
  inside x y h := by rw [pixel?_fill, if_pos h]
  outside x y h := by rw [pixel?_fill, if_neg h]

/-- Filling rectangles with one colour fills all that they cover together. -/
theorem paints_fillAll (f : Frame) (rects : List Rect) (c : Color) :
    f.Paints (fun x y => ∃ r ∈ rects, r.Contains x y) c (rects.foldl (fun f r => f.fill r c) f) := by
  induction rects generalizing f with
  | nil => exact .nothing fun x y ⟨r, hr, _⟩ => absurd hr List.not_mem_nil
  | cons r rects ih =>
      have h := (paints_fill f r c).trans (ih (f.fill r c))
      simpa only [List.foldl_cons, List.mem_cons, or_and_right, exists_or, exists_eq_left] using h

end RetainedUi.Frame
