import RetainedUi.Proofs.Layout.Saturation
import RetainedUi.Proofs.Raster.Buffer
import RetainedUi.Proofs.Raster.Painter

/-!
# Outlines

An outline is four bars along the sides of a rectangle, each as thick as the outline. Where the rectangle is
at least that thick both ways and ends in the coordinate space, they make up the ring along its inside. Where
it is thinner one way, bars stick out of it.
-/

namespace RetainedUi

open Coord

namespace Rect

variable {r : Rect} {t x y : Int}

/-! ## Bars and rings -/

/-- The pixel `(x, y)` is in a bar of the outline. -/
def Outlined (r : Rect) (t x y : Int) : Prop := ∃ side ∈ r.sides t, side.Contains x y

instance (r : Rect) (t x y : Int) : Decidable (r.Outlined t x y) :=
  inferInstanceAs (Decidable (∃ side ∈ r.sides t, side.Contains x y))

/-- The pixel `(x, y)` is in the rectangle, and less than `t` away from a side of it. -/
def OnRing (r : Rect) (t x y : Int) : Prop :=
  r.Contains x y ∧ (x < r.x + t ∨ r.x + r.w - t ≤ x ∨ y < r.y + t ∨ r.y + r.h - t ≤ y)

instance (r : Rect) (t x y : Int) : Decidable (r.OnRing t x y) := inferInstanceAs (Decidable (_ ∧ _))

/-- Bars as thick as `t` stay inside the rectangle: there is none, or none is thicker than the rectangle or
has to start before it. -/
def Holds (r : Rect) (t : Int) : Prop :=
  (r.w ≤ 0 ∧ r.h ≤ 0) ∨
    (t ≤ r.w ∧ r.x + t ≤ greatest) ∧ (t ≤ r.h ∧ r.y + t ≤ greatest)

instance (r : Rect) (t : Int) : Decidable (r.Holds t) := inferInstanceAs (Decidable (_ ∨ _))

theorem outlined_iff : r.Outlined t x y ↔
    (⟨r.x, r.y, r.w, t⟩ : Rect).Contains x y ∨
      (⟨r.x, clamp (clamp (r.y + r.h) - t), r.w, t⟩ : Rect).Contains x y ∨
      (⟨r.x, r.y, t, r.h⟩ : Rect).Contains x y ∨
      (⟨clamp (clamp (r.x + r.w) - t), r.y, t, r.h⟩ : Rect).Contains x y := by
  simp only [Outlined, sides, Arithmetic.clamped, List.mem_cons, List.not_mem_nil, or_false,
    exists_eq_or_imp, exists_eq_left]

theorem clamp_far {n d t : Int} (hn : InRange n) (ht : 1 ≤ t) (hd : t ≤ d) (hend : n + d ≤ greatest) :
    clamp (clamp (n + d) - t) = n + d - t := by
  simp only [InRange, clamp, least, greatest] at *
  omega

/-- A far bar that starts no earlier than the rectangle has room before the end of the space. -/
theorem room_of_clamp_far {n d t : Int} (hn : InRange n) (ht : 1 ≤ t) (hmax : t ≤ greatest)
    (hfar : n ≤ clamp (clamp (n + d) - t)) : n + t ≤ greatest := by
  simp only [InRange, clamp, least, greatest] at *
  omega

theorem outlined_iff_onRing (hx : InRange r.x) (hy : InRange r.y) (ht : 1 ≤ t) (hw : t ≤ r.w)
    (hh : t ≤ r.h) (hright : r.x + r.w ≤ greatest) (hbottom : r.y + r.h ≤ greatest) :
    r.Outlined t x y ↔ r.OnRing t x y := by
  rw [outlined_iff, clamp_far hx ht hw hright, clamp_far hy ht hh hbottom]
  simp only [OnRing, Contains]
  omega

theorem onRing_iff_contains (h : r.w < 2 * t ∨ r.h < 2 * t) : r.OnRing t x y ↔ r.Contains x y := by
  simp only [OnRing, Contains]
  omega

theorem Holds.contains (hr : r.Holds t) (ht : 1 ≤ t) (hx : InRange r.x) (hy : InRange r.y)
    (h : r.Outlined t x y) : r.Contains x y := by
  simp only [outlined_iff, Holds, InRange, Contains, clamp, least, greatest] at *
  rcases h with htop | hbottom | hleft | hright <;> omega

/-- No weaker condition keeps the bars inside. -/
theorem holds_of_contains (ht : 1 ≤ t) (hmax : t ≤ greatest) (hx : InRange r.x) (hy : InRange r.y)
    (h : ∀ x y, r.Outlined t x y → r.Contains x y) : r.Holds t := by
  -- Four pixels decide: one at the inner edge of each near bar, and the first one of each far bar.
  have htop := h r.x (r.y + t - 1)
  have hleft := h (r.x + t - 1) r.y
  have hbottom := h r.x (clamp (clamp (r.y + r.h) - t))
  have hright := h (clamp (clamp (r.x + r.w) - t)) r.y
  simp only [outlined_iff, Contains] at htop hleft hbottom hright
  by_cases hnone : r.w ≤ 0 ∧ r.h ≤ 0
  · exact Or.inl hnone
  have hh : t ≤ r.h := by omega
  have hw : t ≤ r.w := by omega
  have hfarX : r.x ≤ clamp (clamp (r.x + r.w) - t) := by omega
  have hfarY : r.y ≤ clamp (clamp (r.y + r.h) - t) := by omega
  exact Or.inr ⟨⟨hw, room_of_clamp_far hx ht hmax hfarX⟩, hh, room_of_clamp_far hy ht hmax hfarY⟩

theorem outlined_contained_iff (ht : 1 ≤ t) (hmax : t ≤ greatest) (hx : InRange r.x) (hy : InRange r.y) :
    (∀ x y, r.Outlined t x y → r.Contains x y) ↔ r.Holds t :=
  ⟨holds_of_contains ht hmax hx hy, fun hr _ _ => hr.contains ht hx hy⟩

end Rect

/-! ## Outlines in a frame -/

namespace Frame

variable {f : Frame} {s : Surface} {r : Rect} {t : Int}

theorem paints_outline (f : Frame) (r : Rect) (t : Int) (c : Color) :
    f.Paints (r.Outlined t) c (f.outline r t c) := by
  rw [outline_eq]
  exact paints_fillAll f (r.sides t) c

theorem outline_contained (f : Frame) (c : Color) (hr : r.Holds t) (ht : 1 ≤ t) (hx : InRange r.x)
    (hy : InRange r.y) {x y : Nat} (hout : ¬ r.Contains x y) :
    (f.outline r t c).pixel? x y = f.pixel? x y :=
  (paints_outline f r t c).outside x y fun h => hout (hr.contains ht hx hy h)

/-- On a frame that was made for a surface, and may have been filled since, the outline of a rectangle that
is as thick both ways and ends in the coordinate space gives its colour to the ring along the inside of the
rectangle, and to no other pixel. Where two bars do not fit next to each other the ring has no hole. -/
theorem Drawn.outline_ring (hf : Drawn s f) (c : Color) (hx : InRange r.x) (hy : InRange r.y) (ht : 1 ≤ t)
    (hw : t ≤ r.w) (hh : t ≤ r.h) (hright : r.x + r.w ≤ greatest) (hbottom : r.y + r.h ≤ greatest) :
    (∀ x y : Nat, x < s.width → y < s.height → ∃ old, f.pixel? x y = some old ∧
      (f.outline r t c).pixel? x y = some (if r.OnRing t x y then c else old)) ∧
      (r.w < 2 * t ∨ r.h < 2 * t → ∀ x y : Int, r.OnRing t x y ↔ r.Contains x y) := by
  refine ⟨fun x y hxs hys => ?_, fun hthin _ _ => Rect.onRing_iff_contains hthin⟩
  obtain ⟨old, hold⟩ := hf.fits.exists_pixel? hxs hys
  have hring : f.Paints (r.OnRing t) c (f.outline r t c) := (paints_outline f r t c).congr fun x y =>
    Rect.outlined_iff_onRing hx hy ht hw hh hright hbottom
  exact ⟨old, hold, hring.pixel?_of_eq_some hold⟩

/-- A square that starts above and left of the frame: two of its sides are seen, and a hole. -/
theorem outline_ring_corner :
    ∃ f : Frame, filled? ⟨6, 5⟩ .background = some f ∧
      let g := f.outline ⟨-3, -2, 7, 6⟩ 2 .containerOutline
      g.pixel? 2 0 = some .containerOutline ∧ g.pixel? 1 1 = some .background ∧
        g.pixel? 4 1 = some .background := by
  have hdrawn : Drawn ⟨6, 5⟩ ⟨6, 5, .replicate _ .background⟩ := .blank rfl
  obtain ⟨hpixel, -⟩ := hdrawn.outline_ring .containerOutline (r := ⟨-3, -2, 7, 6⟩) (t := 2) (by decide)
    (by decide) (by decide) (by decide) (by decide) (by decide) (by decide)
  obtain ⟨_, -, hring⟩ := hpixel 2 0 (by decide) (by decide)
  obtain ⟨old, hold, hhole⟩ := hpixel 1 1 (by decide) (by decide)
  obtain ⟨old', hold', hout⟩ := hpixel 4 1 (by decide) (by decide)
  cases hold
  cases hold'
  exact ⟨_, rfl, hring, hhole, hout⟩

/-- An outline gives its colour to its four bars. They stay inside the rectangle exactly when it has no
positive side, or is no thinner than they are both ways and has room for them before the end of the
coordinate space; and then no pixel outside it changes. So it is with every container that is painted for a
layout on a usable surface. -/
theorem outline_inside (f : Frame) (c : Color) (ht : 1 ≤ t) (hmax : t ≤ greatest) (hx : InRange r.x)
    (hy : InRange r.y) :
    f.Paints (r.Outlined t) c (f.outline r t c) ∧
      ((∀ x y, r.Outlined t x y → r.Contains x y) ↔ r.Holds t) ∧
      (r.Holds t → ∀ x y : Nat, ¬ r.Contains x y → (f.outline r t c).pixel? x y = f.pixel? x y) ∧
      ∀ store : Store, store.Reachable → ∀ surface : Surface, surface.Usable →
        ∀ e ∈ (Layout.solve store surface.bounds).entries, e.leaf = false → e.rect.Holds outlineWidth →
          ∀ x y : Nat, ¬ e.rect.Contains x y → (f.paintEntry e).pixel? x y = f.pixel? x y := by
  refine ⟨paints_outline f r t c, Rect.outlined_contained_iff ht hmax hx hy,
    fun hr x y => outline_contained f c hr ht hx hy, fun store hs surface hu e he hleaf hr x y hout => ?_⟩
  have hin := Layout.inSpace_of_mem_solve hs.wellFormed hu.inSpace_bounds e he
  rw [paintEntry, hleaf, if_neg Bool.false_ne_true]
  exact outline_contained f .containerOutline hr (by decide) (hin.origin .horizontal)
    (hin.origin .vertical) hout

/-- A container in another, with a text of its own. -/
def nested : List Record :=
  [.createNode 1 1, .createNode 2 1, .createNode 3 5, .appendChild 1 2, .appendChild 2 3]

theorem outline_inside_nested :
    ∃ e ∈ (Layout.solve (Store.empty.applyAll nested).2 (⟨16, 40⟩ : Surface).bounds).entries,
      ∃ f : Frame, filled? ⟨16, 40⟩ .background = some f ∧ e.id = ⟨2⟩ ∧ e.rect = ⟨0, 0, 16, 32⟩ ∧
        (f.paintEntry e).pixel? 5 35 = some .background ∧
        (f.outline ⟨2, 1, 9, 5⟩ 2 .leafFill).pixel? 11 3 = some .background := by
  have hs := Store.Reachable.empty.applyAll nested
  have hn : (Store.empty.applyAll nested).2.get? ⟨0, 0⟩ =
      some { id := ⟨1⟩, kind := .column, children := #[⟨1, 0⟩] } := by decide
  have hroot := hs.wellFormed.root?_of_first hn rfl rfl
  have he : (⟨⟨2⟩, .column, ⟨0, 0, 16, 32⟩, false, 1⟩ : LayoutEntry) ∈
      (Layout.solve (Store.empty.applyAll nested).2 (⟨16, 40⟩ : Surface).bounds).entries := by
    rw [Layout.solve, Layout.solveIn_of_some hroot]
    decide +kernel
  have hf : filled? ⟨16, 40⟩ .background = some ⟨16, 40, .replicate _ .background⟩ := rfl
  obtain ⟨-, -, hinside, hentries⟩ := outline_inside (r := ⟨2, 1, 9, 5⟩) (t := 2)
    ⟨16, 40, .replicate _ .background⟩ .leafFill (by decide) (by decide) (by decide) (by decide)
  refine ⟨_, he, _, hf, rfl, rfl, ?_, ?_⟩
  · rw [hentries _ hs ⟨16, 40⟩ (by constructor <;> decide) _ he rfl (by decide) 5 35 (by decide)]
    exact pixel?_of_filled? hf (by decide) (by decide)
  · rw [hinside (by decide) 11 3 (by decide)]
    exact pixel?_of_filled? hf (by decide) (by decide)

/-- The same with padding that leaves the outer container no width. -/
def squeezed : List Record :=
  nested ++ [.setProp 1 104 (Padding.pack { left := 10, right := 10 })]

/-- The inner container has no pixel then, but an outline, of which one bar starts before its box. -/
theorem outline_outside_squeezed :
    ∃ e ∈ (Layout.solve (Store.empty.applyAll squeezed).2 (⟨16, 8⟩ : Surface).bounds).entries,
      ∃ f : Frame, filled? ⟨16, 8⟩ .background = some f ∧ e.leaf = false ∧ e.rect = ⟨10, 0, 0, 32⟩ ∧
        e.rect.isEmpty = true ∧ ¬ e.rect.Contains 8 4 ∧ f.pixel? 8 4 = some .background ∧
        (f.outline e.rect outlineWidth .containerOutline).pixel? 8 4 = some .containerOutline ∧
        (f.paintEntry e).pixel? 8 4 = some .containerOutline := by
  have hs := Store.Reachable.empty.applyAll squeezed
  have hn : (Store.empty.applyAll squeezed).2.get? ⟨0, 0⟩ =
      some { id := ⟨1⟩, kind := .column, children := #[⟨1, 0⟩]
             props := { padding := { left := 10, right := 10 } } } := by decide +kernel
  have hroot := hs.wellFormed.root?_of_first hn rfl rfl
  have he : (⟨⟨2⟩, .column, ⟨10, 0, 0, 32⟩, false, 1⟩ : LayoutEntry) ∈
      (Layout.solve (Store.empty.applyAll squeezed).2 (⟨16, 8⟩ : Surface).bounds).entries := by
    rw [Layout.solve, Layout.solveIn_of_some hroot]
    decide +kernel
  exact ⟨_, he, ⟨16, 8, .replicate _ .background⟩, rfl, rfl, rfl, rfl, by decide, by decide +kernel,
    by decide +kernel, by decide +kernel⟩

end Frame

end RetainedUi
