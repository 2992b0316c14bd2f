import RetainedUi.Proofs.Layout.Axes
import RetainedUi.Proofs.Layout.Lockstep

/-!
# Layout in bounded coordinates

Sizes always fit the coordinate space, so they are those of exact arithmetic. Origins may not; they are
exact as well when the exact ones leave room for the padding of one node.
-/

namespace RetainedUi

/-! ## Lengths -/

namespace Coord

/-- The number `n` is a length in the coordinate space. -/
def IsLength (n : Int) : Prop := 0 ≤ n ∧ n ≤ greatest

instance (n : Int) : Decidable (IsLength n) := inferInstanceAs (Decidable (_ ∧ _))

theorem exact_add (x y : Int) : Arithmetic.exact.add x y = x + y := rfl

theorem exact_sub (x y : Int) : Arithmetic.exact.sub x y = x - y := rfl

theorem clamped_add {x y : Int} (h : InRange (x + y)) : Arithmetic.clamped.add x y = x + y :=
  clamp_of_inRange h

theorem IsLength.clamped_sub {x y : Int} (hx : IsLength x) (hy : IsLength y) :
    Arithmetic.clamped.sub x y = x - y := by
  refine clamp_of_inRange ?_
  simp only [IsLength, InRange, greatest, least] at *
  omega

theorem IsLength.offset_clamped {x y : Int} (hx : IsLength x) (hy : IsLength y) (align : Align) :
    align.offset .clamped x y = align.offset .exact x y := by
  cases align with
  | start => rfl
  | center | «end» => simp only [Align.offset, hx.clamped_sub hy, exact_sub]

theorem IsLength.half {n : Int} (hn : IsLength n) : IsLength (n.tdiv 2) := by
  obtain ⟨hnonneg, hle⟩ := hn
  rw [IsLength, Int.tdiv_eq_ediv_of_nonneg hnonneg]
  omega

end Coord

open Coord

/-- Explicit sizes that are lengths. -/
structure SizeHint.InSpace (c : SizeHint) : Prop where
  width : ∀ v ∈ c.width, IsLength v
  height : ∀ v ∈ c.height, IsLength v

theorem Props.isLength_hint {length : Int32} : ∀ v ∈ Props.hint length, IsLength v := by
  intro v hv
  rw [Props.hint] at hv
  split at hv
  case isTrue hpos =>
    cases hv
    rw [Int32.lt_iff_toInt_lt, Int32.toInt_zero] at hpos
    exact ⟨Int.le_of_lt hpos, length.toInt_le⟩
  case isFalse => cases hv

theorem Props.inSpace_sizeHint (p : Props) : p.sizeHint.InSpace :=
  ⟨Props.isLength_hint, Props.isLength_hint⟩

theorem SizeHint.InSpace.getD {c : SizeHint} (hc : c.InSpace) (axis : Axis) {d : Int} (hd : IsLength d) :
    IsLength ((axis.hint c).getD d) := by
  have hv : ∀ v ∈ axis.hint c, IsLength v := by
    cases axis with
    | vertical => exact hc.height
    | horizontal => exact hc.width
  cases hh : axis.hint c with
  | none => exact hd
  | some v => exact hv v hh

theorem Axis.isLength_defaultExtent (axis : Axis) : IsLength axis.defaultExtent := by
  cases axis <;> decide

/-! ## Boxes in the coordinate space -/

/-- A box whose origin is in the coordinate space and whose sides are lengths. -/
structure Rect.InSpace (r : Rect) : Prop where
  origin : ∀ axis : Axis, InRange (axis.origin r)
  extent : ∀ axis : Axis, IsLength (axis.extent r)

/-- A box in the coordinate space, and one of the same size. -/
structure Rect.SizedAs (r r' : Rect) : Prop extends r.InSpace where
  same : ∀ axis : Axis, axis.extent r = axis.extent r'

/-- A box that stays in the coordinate space when it is moved by any padding. -/
structure Rect.Roomy (r : Rect) : Prop extends r.InSpace where
  room : ∀ axis : Axis, axis.origin r ≤ greatest - 255

namespace Boxes

variable {p : Padding} {r r' area area' : Rect} {align : Align} {cursor cursor' : Int} {child : SizeHint}
  {axis : Axis}

theorem extent_content_clamped (h : IsLength (axis.extent r)) :
    axis.extent (content .clamped p r) = axis.extent (content .exact p r) := by
  have hleading := axis.leading_bounds p
  have htrailing := axis.trailing_bounds p
  simp only [extent_content, exact_sub, Arithmetic.clamped, IsLength, clamp, greatest, least] at *
  omega

theorem isLength_content (h : IsLength (axis.extent r)) :
    IsLength (axis.extent (content .exact p r)) := by
  have hleading := axis.leading_bounds p
  have htrailing := axis.trailing_bounds p
  simp only [extent_content, exact_sub, IsLength] at *
  omega

/-! ## Sizes -/

theorem sizedAs_content (h : r.SizedAs r') :
    (content .clamped p r).SizedAs (content .exact p r') where
  origin axis := by
    rw [origin_content]
    exact clamp_inRange _
  extent axis := by
    rw [extent_content_clamped (h.extent axis)]
    exact isLength_content (h.extent axis)
  same axis := by
    rw [extent_content_clamped (h.extent axis), extent_content, extent_content, h.same axis]

theorem sizedAs_stacked (h : area.SizedAs area') (hcursor : InRange cursor) (hc : child.InSpace) :
    (stacked .clamped axis area align cursor child).SizedAs
      (stacked .exact axis area' align cursor' child) where
  origin := by
    rw [axis.forall_iff, origin_stacked, origin_across_stacked]
    exact ⟨hcursor, clamp_inRange _⟩
  extent := by
    rw [axis.forall_iff, extent_stacked, extent_across_stacked]
    exact ⟨hc.getD axis axis.isLength_defaultExtent, hc.getD axis.across (h.extent axis.across)⟩
  same := by
    rw [axis.forall_iff, extent_stacked, extent_across_stacked, extent_stacked, extent_across_stacked,
      h.same axis.across]
    exact ⟨rfl, rfl⟩

theorem forall₂_stack (h : area.SizedAs area') (gap : Int) {children : List SizeHint}
    (hcursor : InRange cursor) (hc : ∀ c ∈ children, c.InSpace) :
    List.Forall₂ Rect.SizedAs (stack .clamped axis area gap align cursor children)
      (stack .exact axis area' gap align cursor' children) := by
  induction children generalizing cursor cursor' with
  | nil => exact .nil
  | cons child rest ih =>
      rw [List.forall_mem_cons] at hc
      exact .cons (sizedAs_stacked h hcursor hc.1) (ih (clamp_inRange _) hc.2)

theorem sizedAs_centered (h : area.SizedAs area') (hc : child.InSpace) :
    (centered .clamped area child).SizedAs (centered .exact area' child) where
  origin axis := by
    rw [origin_centered]
    exact clamp_inRange _
  extent axis := by
    rw [extent_centered]
    exact hc.getD axis (h.extent axis).half
  same axis := by
    rw [extent_centered, extent_centered, h.same axis]

theorem sizedAs_within (h : r.SizedAs r') (hc : child.InSpace) :
    (within r child).SizedAs (within r' child) where
  origin axis := by
    rw [origin_within]
    exact h.origin axis
  extent axis := by
    rw [extent_within]
    exact hc.getD axis (h.extent axis)
  same axis := by
    rw [extent_within, extent_within, h.same axis]

theorem forall₂_ofChildren (kind : NodeKind) (p : Props) (h : r.SizedAs r') {children : List SizeHint}
    (hc : ∀ c ∈ children, c.InSpace) :
    List.Forall₂ Rect.SizedAs (ofChildren .clamped kind p r children)
      (ofChildren .exact kind p r' children) := by
  have harea := sizedAs_content (p := p.padding) h
  cases kind with
  | column => exact forall₂_stack harea _ (harea.origin .vertical) hc
  | row => exact forall₂_stack harea _ (harea.origin .horizontal) hc
  | center =>
      simp only [ofChildren, List.forall₂_map_left_iff, List.forall₂_map_right_iff, List.forall₂_same]
      exact fun c hmem => sizedAs_centered harea (hc c hmem)
  | sizedBox =>
      simp only [ofChildren, List.forall₂_map_left_iff, List.forall₂_map_right_iff, List.forall₂_same]
      exact fun c hmem => sizedAs_within h (hc c hmem)
  | text | button => exact .nil

/-! ## Origins -/

theorem content_clamped (h : r.Roomy) : content .clamped p r = content .exact p r := by
  refine Axis.ext_rect (fun axis => ?_) fun axis => extent_content_clamped (h.extent axis)
  rw [origin_content, origin_content]
  refine clamped_add ?_
  have hp := axis.leading_bounds p
  have hroom := h.room axis
  have horigin := h.origin axis
  simp only [InRange] at *
  omega

theorem stacked_clamped (harea : ∀ axis : Axis, IsLength (axis.extent area)) (hc : child.InSpace)
    (hbox : (stacked .exact axis area align cursor child).InSpace) :
    stacked .clamped axis area align cursor child = stacked .exact axis area align cursor child := by
  have horigin := hbox.origin axis.across
  have hextent := hc.getD axis.across (harea axis.across)
  refine Axis.ext_rect ((axis.forall_iff).mpr ⟨?_, ?_⟩) ((axis.forall_iff).mpr ⟨?_, ?_⟩)
  · rw [origin_stacked, origin_stacked]
  · rw [origin_across_stacked] at horigin
    rw [origin_across_stacked, origin_across_stacked, (harea axis.across).offset_clamped hextent]
    exact clamped_add horigin
  · rw [extent_stacked, extent_stacked]
  · rw [extent_across_stacked, extent_across_stacked]

theorem stack_clamped (harea : ∀ axis : Axis, IsLength (axis.extent area)) {gap : Int} (hgap : 0 ≤ gap)
    {children : List SizeHint} (hc : ∀ c ∈ children, c.InSpace)
    (hboxes : ∀ box ∈ stack .exact axis area gap align cursor children, box.InSpace) :
    stack .clamped axis area gap align cursor children =
      stack .exact axis area gap align cursor children := by
  induction children generalizing cursor with
  | nil => rfl
  | cons child rest ih =>
      rw [List.forall_mem_cons] at hc
      rw [stack, List.forall_mem_cons] at hboxes
      have hhead := stacked_clamped harea hc.1 hboxes.1
      simp only [stack, hhead]
      cases rest with
      | nil => rfl
      | cons next rest =>
          -- The next child starts in the coordinate space, and so nothing up to there was clamped.
          have hnext := (hboxes.2 _ List.mem_cons_self).origin axis
          have hcursor := hboxes.1.origin axis
          have hextent := hboxes.1.extent axis
          rw [origin_stacked] at hnext hcursor
          rw [exact_add, exact_add] at hnext hboxes
          have hstep : InRange (cursor + axis.extent (stacked .exact axis area align cursor child)) := by
            simp only [InRange, IsLength] at *
            omega
          rw [clamped_add hstep, clamped_add hnext, exact_add, exact_add]
          exact congrArg _ (ih hc.2 hboxes.2)

theorem centered_clamped (harea : ∀ axis : Axis, IsLength (axis.extent area)) (hc : child.InSpace)
    (hbox : (centered .exact area child).InSpace) :
    centered .clamped area child = centered .exact area child := by
  refine Axis.ext_rect (fun axis => ?_) fun axis => by rw [extent_centered, extent_centered]
  have horigin := hbox.origin axis
  have hextent := hc.getD axis (harea axis).half
  rw [origin_centered] at horigin
  rw [origin_centered, origin_centered, (harea axis).clamped_sub hextent]
  exact clamped_add horigin

theorem ofChildren_clamped (kind : NodeKind) (p : Props) (h : r.Roomy) {children : List SizeHint}
    (hc : ∀ c ∈ children, c.InSpace)
    (hboxes : ∀ box ∈ ofChildren .exact kind p r children, box.InSpace) :
    ofChildren .clamped kind p r children = ofChildren .exact kind p r children := by
  have harea : ∀ axis : Axis, IsLength (axis.extent (content .exact p.padding r)) := fun axis =>
    isLength_content (h.extent axis)
  cases kind with
  | column | row =>
      simp only [ofChildren, content_clamped h] at hboxes ⊢
      exact stack_clamped harea (Int.le_max_right _ _) hc hboxes
  | center =>
      simp only [ofChildren, content_clamped h, List.forall_mem_map] at hboxes ⊢
      exact List.map_congr_left fun c hmem => centered_clamped harea (hc c hmem) (hboxes c hmem)
  | sizedBox | text | button => rfl

end Boxes

/-! ## Layouts -/

/-- Entries that differ in the origin of their boxes at most. -/
structure LayoutEntry.SizedAs (e e' : LayoutEntry) : Prop where
  id : e.id = e'.id
  kind : e.kind = e'.kind
  leaf : e.leaf = e'.leaf
  depth : e.depth = e'.depth
  w : e.rect.w = e'.rect.w
  h : e.rect.h = e'.rect.h

namespace Layout

open Store

variable {s : Store}

theorem inSpace_shownNodes (s : Store) (n : Node) :
    ∀ c ∈ (shownNodes s n).map fun c => c.2.props.sizeHint, c.InSpace := by
  rw [List.forall_mem_map]
  exact fun c _ => Props.inSpace_sizeHint _

theorem lockstep_sized (s : Store) :
    Lockstep .clamped .exact s s Eq Rect.SizedAs (fun _ => True)
      (fun e e' => e.rect.InSpace ∧ e.SizedAs e') where
  entry := by
    rintro h k n _ r r' depth - - rfl hr -
    exact ⟨hr.toInSpace, rfl, rfl, rfl, rfl, hr.same .horizontal, hr.same .vertical⟩
  nodes := by
    rintro h k n _ r r' depth - - rfl - -
    exact List.forall₂_same.mpr fun _ _ => rfl
  boxes := by
    rintro h k n _ r r' depth - - rfl hr - -
    exact Boxes.forall₂_ofChildren n.kind n.props hr (inSpace_shownNodes s n)

theorem lockstep_roomy (s : Store) :
    Lockstep .exact .clamped s s Eq Eq (fun e => e.rect.Roomy) Eq where
  entry := by
    rintro h k n _ r _ depth - - rfl rfl -
    rfl
  nodes := by
    rintro h k n _ r _ depth - - rfl rfl -
    exact List.forall₂_same.mpr fun _ _ => rfl
  boxes := by
    rintro h k n _ r _ depth - - rfl rfl hr hbelow
    have hboxes : ∀ box ∈ childBoxes .exact s n r, box.InSpace :=
      forall_right_of_forall₂ (fun _ _ hbox => hbox.toInSpace) hbelow
    rw [List.forall₂_eq_eq_eq]
    exact (Boxes.ofChildren_clamped n.kind n.props hr (inSpace_shownNodes s n) hboxes).symm

theorem rootsCorrespond_self (hw : s.WellFormed) : RootsCorrespond s s Eq := by
  cases hr : s.root? with
  | none => exact Or.inl ⟨hr, hr⟩
  | some h =>
      obtain ⟨n, hn, _⟩ := hw.root?_eq_some_iff.mp hr
      exact Or.inr ⟨h, h, n, n, hr, hr, hn, hn, rfl⟩

/-- All boxes of a layout are in the coordinate space, and have the sizes that exact arithmetic gives. -/
theorem solve_sized (hw : s.WellFormed) {bounds : Rect} (hb : bounds.InSpace) :
    Matches (fun e e' => e.rect.InSpace ∧ e.SizedAs e') (solve s bounds) (solveIn .exact s bounds) :=
  (lockstep_sized s).solveIn (rootsCorrespond_self hw) ⟨hb, fun _ => rfl⟩ fun _ _ => trivial

theorem isLength_of_mem_exact (hw : s.WellFormed) {bounds : Rect} (hb : bounds.InSpace) :
    ∀ e ∈ (solveIn .exact s bounds).entries, ∀ axis : Axis, IsLength (axis.extent e.rect) := by
  refine forall_right_of_forall₂ (fun e e' he axis => ?_) (solve_sized hw hb).1
  have hextent := he.1.extent axis
  cases axis with
  | vertical =>
      rw [Axis.extent, ← he.2.h]
      exact hextent
  | horizontal =>
      rw [Axis.extent, ← he.2.w]
      exact hextent

theorem solve_eq_exact (hw : s.WellFormed) {bounds : Rect} (hb : bounds.InSpace)
    (hroom : ∀ e ∈ (solveIn .exact s bounds).entries, ∀ axis : Axis,
      least ≤ axis.origin e.rect ∧ axis.origin e.rect ≤ greatest - 255) :
    solve s bounds = solveIn .exact s bounds := by
  have hroomy : ∀ e ∈ (solveIn .exact s bounds).entries, e.rect.Roomy := fun e he =>
    { origin := fun axis => ⟨(hroom e he axis).1, by have := (hroom e he axis).2; omega⟩
      extent := isLength_of_mem_exact hw hb e he
      room := fun axis => (hroom e he axis).2 }
  exact ((lockstep_roomy s).solveIn (rootsCorrespond_self hw) rfl hroomy).eq.symm

theorem inSpace_of_mem_solve (hw : s.WellFormed) {bounds : Rect} (hb : bounds.InSpace) :
    ∀ e ∈ (solve s bounds).entries, e.rect.InSpace :=
  forall_left_of_forall₂ (fun _ _ he => he.1) (solve_sized hw hb).1

end Layout

theorem Surface.Usable.inSpace_bounds {surface : Surface} (hu : surface.Usable) :
    surface.bounds.InSpace := by
  have hw := hu.width_le
  have hh := hu.height_le
  simp only [Surface.maxSide] at hw hh
  constructor <;> rintro (_ | _) <;>
    simp only [Surface.bounds, Surface.maxSide, Axis.origin, Axis.extent, InRange, IsLength, least, greatest] <;>
    omega

namespace Store

open Layout

variable {s : Store}

/-- On a usable surface all boxes are in the coordinate space and have sides that are not negative;
entries and sizes are those of exact arithmetic; and where every exact origin leaves room for a padding,
the whole layout is the exact one. -/
theorem Reachable.solve_saturates (hs : s.Reachable) {surface : Surface} (hu : surface.Usable) :
    let l := solve s surface.bounds
    let unbounded := solveIn .exact s surface.bounds
    (∀ e ∈ l.entries, 0 ≤ e.rect.w ∧ 0 ≤ e.rect.h ∧ InRange e.rect.x ∧ InRange e.rect.y ∧
      InRange e.rect.w ∧ InRange e.rect.h) ∧
    List.Forall₂ LayoutEntry.SizedAs l.entries unbounded.entries ∧
    l.depthLimited = unbounded.depthLimited ∧
    ((∀ e ∈ unbounded.entries, least ≤ e.rect.x ∧ e.rect.x ≤ greatest - 255 ∧
      least ≤ e.rect.y ∧ e.rect.y ≤ greatest - 255) → l = unbounded) := by
  intro l unbounded
  have hb := hu.inSpace_bounds
  obtain ⟨hentries, hlimited⟩ := solve_sized hs.wellFormed hb
  refine ⟨fun e he => ?_, hentries.imp fun _ _ he => he.2, hlimited, fun hroom => ?_⟩
  · have hin := inSpace_of_mem_solve hs.wellFormed hb e he
    have hw := hin.extent .horizontal
    have hh := hin.extent .vertical
    simp only [Axis.extent, IsLength, InRange, least, greatest] at hw hh ⊢
    exact ⟨hw.1, hh.1, hin.origin .horizontal, hin.origin .vertical, by omega, by omega⟩
  · refine solve_eq_exact hs.wellFormed hb fun e he axis => ?_
    obtain ⟨hxl, hxg, hyl, hyg⟩ := hroom e he
    cases axis with
    | vertical => exact ⟨hyl, hyg⟩
    | horizontal => exact ⟨hxl, hxg⟩

/-- A padded stack with an item that is too wide to be centred in it, and one that has no size. -/
def shifted : List Record :=
  [.createNode 1 1, .setProp 1 102 1, .setProp 1 104 0x05000003, .createNode 2 5, .setProp 2 301 300,
    .createNode 3 6, .appendChild 1 2, .appendChild 1 3]

theorem solve_saturates_shifted :
    (∃ e ∈ (solve (empty.applyAll shifted).2 (⟨100, 80⟩ : Surface).bounds).entries, e.rect.x = -98) ∧
    solve (empty.applyAll shifted).2 (⟨100, 80⟩ : Surface).bounds =
      solveIn .exact (empty.applyAll shifted).2 (⟨100, 80⟩ : Surface).bounds := by
  have hs := Reachable.empty.applyAll shifted
  have hn : (empty.applyAll shifted).2.get? ⟨0, 0⟩ = some
      { id := ⟨1⟩, kind := .column, children := #[⟨1, 0⟩, ⟨2, 0⟩]
        props := { crossAlign := .center, padding := { left := 3, top := 5 } } } := by decide +kernel
  have hroot := hs.wellFormed.root?_of_first hn rfl rfl
  have hu : (⟨100, 80⟩ : Surface).Usable := by constructor <;> decide
  obtain ⟨_, _, _, hexact⟩ := hs.solve_saturates hu
  refine ⟨?_, hexact ?_⟩
  · rw [solve, solveIn_of_some hroot]
    decide +kernel
  · rw [solveIn_of_some hroot]
    decide +kernel

end Store

end RetainedUi
