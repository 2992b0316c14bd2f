import Mathlib.Algebra.Order.BigOperators.Group.List
import Mathlib.Algebra.Ring.Int.Defs
import RetainedUi.Proofs.Layout.Saturation

/-!
# Stacks

A stack places its children one behind the other, each a gap after the one before, from its padding on.
The cursor is clamped at every child; that comes to the same as clamping the exact sum once.
-/

namespace RetainedUi

open Coord

/-! ## The closed form of a stack -/

/-- The kinds that stack, each with its direction and the length of a child without an explicit one. -/
inductive NodeKind.Stacks : NodeKind → Axis → Int → Prop
  | column : Stacks .column .vertical 32
  | row : Stacks .row .horizontal 96

namespace Axis

/-- The property that sets a length in the direction. -/
def length (p : Props) : Axis → Int32
  | vertical => p.height
  | horizontal => p.width

/-- What the padding leaves of a box in the direction. -/
def room (p : Padding) (r : Rect) (axis : Axis) : Int :=
  max 0 (axis.extent r - axis.leading p - axis.trailing p)

theorem getD_hint (p : Props) (d : Int) (axis : Axis) :
    (axis.hint p.sizeHint).getD d = if 0 < axis.length p then (axis.length p).toInt else d := by
  have hhint : axis.hint p.sizeHint = Props.hint (axis.length p) := by cases axis <;> rfl
  rw [hhint, Props.hint]
  split <;> rfl

end Axis

theorem Coord.clamp_of_le {n : Int} (h : least ≤ n) : clamp n = min greatest n := by
  simp only [clamp, least, greatest] at *
  omega

theorem Rect.InSpace.least_le_start {r : Rect} (hr : r.InSpace) (p : Padding) (axis : Axis) :
    least ≤ axis.origin r + axis.leading p := by
  have horigin := (hr.origin axis).1
  have hleading := (axis.leading_bounds p).1
  omega

namespace Boxes

variable {axis : Axis} {area : Rect} {align : Align} {gap cursor : Int}

theorem getElem?_stack (hcursor : least ≤ cursor) (hgap : 0 ≤ gap) {children : List SizeHint}
    (hc : ∀ c ∈ children, c.InSpace) (i : Nat) :
    (stack .clamped axis area gap align (min greatest cursor) children)[i]? =
      children[i]?.map (stacked .clamped axis area align (min greatest
        (cursor + ((children.take i).map fun c => (axis.hint c).getD axis.defaultExtent + gap).sum))) := by
  induction children generalizing cursor i with
  | nil => rfl
  | cons child rest ih =>
      rw [List.forall_mem_cons] at hc
      cases i with
      | zero => simp [stack]
      | succ i =>
          have hlength := (hc.1.getD axis axis.isLength_defaultExtent).1
          simp only [stack, extent_stacked, List.getElem?_cons_succ, List.take_succ_cons, List.map_cons,
            List.sum_cons]
          generalize (axis.hint child).getD axis.defaultExtent = length at hlength ⊢
          -- Lengths and gaps only add to the cursor, and so it can be clamped above alone, and once.
          have hstep : Arithmetic.clamped.add (Arithmetic.clamped.add (min greatest cursor) length) gap =
              min greatest (cursor + (length + gap)) := by
            simp only [Arithmetic.clamped, clamp, least, greatest] at *
            omega
          rw [hstep, ih (by omega) hc.2, Int.add_assoc cursor]

end Boxes

/-! ## The law of stacks -/

/-- The children of a stack with box `r` in their boxes, where `fallback` is the length of a child
without an explicit one. -/
structure Stacking (axis : Axis) (fallback : Int) (p : Props) (r : Rect) (kids : List (Node × Rect)) :
    Prop where
  extent : ∀ c ∈ kids, axis.extent c.2 =
    if 0 < axis.length c.1.props then (axis.length c.1.props).toInt else fallback
  crossExtent : ∀ c ∈ kids, axis.across.extent c.2 =
    if 0 < axis.across.length c.1.props then (axis.across.length c.1.props).toInt
    else axis.across.room p.padding r
  /-- A child starts behind the children before it and as many gaps. -/
  origin : ∀ i c, kids[i]? = some c → axis.origin c.2 = min greatest
    (axis.origin r + axis.leading p.padding +
      ((kids.take i).map fun d => axis.extent d.2 + max p.gap.toInt 0).sum)
  crossOrigin : ∀ c ∈ kids, axis.across.origin c.2 =
    clamp (clamp (axis.across.origin r + axis.across.leading p.padding) +
      match p.crossAlign with
      | .start => 0
      | .center => (axis.across.room p.padding r - axis.across.extent c.2).tdiv 2
      | .end => axis.across.room p.padding r - axis.across.extent c.2)
  /-- As long as the last child starts in the coordinate space, the children take the room of their
  lengths and of the gaps between them. -/
  consumed : ∀ first last, kids.head? = some first → kids.getLast? = some last →
    axis.origin r + axis.leading p.padding +
      (kids.dropLast.map fun d => axis.extent d.2 + max p.gap.toInt 0).sum ≤ greatest →
    axis.origin last.2 + axis.extent last.2 - axis.origin first.2 =
      (kids.map fun d => axis.extent d.2).sum + ((kids.length : Int) - 1) * max p.gap.toInt 0

/-- The children of a node that are laid out, in their boxes. -/
def Layout.placed (s : Store) (n : Node) (r : Rect) : List (Node × Rect) :=
  ((shownNodes s n).map Prod.snd).zip (childBoxes .clamped s n r)

namespace Layout

variable {s : Store} {n : Node} {r : Rect} {axis : Axis} {fallback : Int}

theorem childBoxes_eq_stack (hk : n.kind.Stacks axis fallback) (hr : r.InSpace) :
    childBoxes .clamped s n r = Boxes.stack .clamped axis (Boxes.content .clamped n.props.padding r)
      (max n.props.gap.toInt 0) n.props.crossAlign
      (min greatest (axis.origin r + axis.leading n.props.padding))
      ((shownNodes s n).map fun c => c.2.props.sizeHint) := by
  have hstart : axis.origin (Boxes.content .clamped n.props.padding r) =
      min greatest (axis.origin r + axis.leading n.props.padding) := by
    rw [Boxes.origin_content]
    exact clamp_of_le (hr.least_le_start n.props.padding axis)
  rw [← hstart, childBoxes]
  generalize n.kind = kind at hk
  cases hk <;> rfl

theorem map_fst_placed (s : Store) (n : Node) (r : Rect) :
    (placed s n r).map Prod.fst = (shownNodes s n).map Prod.snd := by
  refine List.map_fst_zip (Nat.le_of_eq ?_)
  rw [List.length_map, length_childBoxes]

/-- Each child has the box of a stacked child; its cursor is the sum of all that stands before it. -/
theorem eq_of_getElem?_placed (hk : n.kind.Stacks axis fallback) (hr : r.InSpace) {i : Nat}
    {c : Node × Rect} (hc : (placed s n r)[i]? = some c) :
    c.2 = Boxes.stacked .clamped axis (Boxes.content .clamped n.props.padding r) n.props.crossAlign
      (min greatest (axis.origin r + axis.leading n.props.padding +
        (((placed s n r).take i).map fun d =>
          (axis.hint d.1.props.sizeHint).getD axis.defaultExtent + max n.props.gap.toInt 0).sum))
      c.1.props.sizeHint := by
  have hhints : (shownNodes s n).map (fun c => c.2.props.sizeHint) =
      (placed s n r).map fun d => d.1.props.sizeHint := by
    have hmap := congrArg (List.map fun m => m.props.sizeHint) (map_fst_placed s n r)
    rw [List.map_map, List.map_map] at hmap
    exact hmap.symm
  obtain ⟨_, hbox⟩ := List.getElem?_zip_eq_some.mp hc
  rw [childBoxes_eq_stack hk hr, Boxes.getElem?_stack (hr.least_le_start n.props.padding axis)
    (Int.le_max_right _ _) (inSpace_shownNodes s n), hhints, List.getElem?_map, hc, ← List.map_take, List.map_map] at hbox
  exact (Option.some.inj hbox).symm

theorem extent_content_clamped (hr : r.InSpace) (p : Padding) (axis : Axis) :
    axis.extent (Boxes.content .clamped p r) = axis.room p r := by
  rw [Boxes.extent_content_clamped (hr.extent axis), Boxes.extent_content, exact_sub, exact_sub,
    Int.max_comm]
  rfl

section Child

variable {c : Node × Rect}

theorem extent_placed (hk : n.kind.Stacks axis fallback) (hr : r.InSpace) (hc : c ∈ placed s n r) :
    axis.extent c.2 = (axis.hint c.1.props.sizeHint).getD axis.defaultExtent := by
  obtain ⟨i, hi⟩ := List.getElem?_of_mem hc
  rw [eq_of_getElem?_placed hk hr hi, Boxes.extent_stacked]

theorem extent_across_placed (hk : n.kind.Stacks axis fallback) (hr : r.InSpace) (hc : c ∈ placed s n r) :
    axis.across.extent c.2 =
      (axis.across.hint c.1.props.sizeHint).getD (axis.across.room n.props.padding r) := by
  obtain ⟨i, hi⟩ := List.getElem?_of_mem hc
  rw [eq_of_getElem?_placed hk hr hi, Boxes.extent_across_stacked, extent_content_clamped hr]

theorem origin_placed (hk : n.kind.Stacks axis fallback) (hr : r.InSpace) {i : Nat}
    (hi : (placed s n r)[i]? = some c) : axis.origin c.2 = min greatest
      (axis.origin r + axis.leading n.props.padding +
        (((placed s n r).take i).map fun d => axis.extent d.2 + max n.props.gap.toInt 0).sum) := by
  rw [eq_of_getElem?_placed hk hr hi, Boxes.origin_stacked]
  congr 3
  refine List.map_congr_left fun d hd => ?_
  rw [extent_placed hk hr (List.mem_of_mem_take hd)]

theorem origin_across_placed (hk : n.kind.Stacks axis fallback) (hr : r.InSpace) (hc : c ∈ placed s n r) :
    axis.across.origin c.2 = clamp (clamp (axis.across.origin r + axis.across.leading n.props.padding) +
      n.props.crossAlign.offset .exact (axis.across.room n.props.padding r) (axis.across.extent c.2)) := by
  have hroom : IsLength (axis.across.room n.props.padding r) := by
    rw [← extent_content_clamped hr, Boxes.extent_content_clamped (hr.extent _)]
    exact Boxes.isLength_content (hr.extent _)
  have hextent := (Props.inSpace_sizeHint c.1.props).getD axis.across hroom
  rw [← extent_across_placed hk hr hc] at hextent
  obtain ⟨i, hi⟩ := List.getElem?_of_mem hc
  have hbox := congrArg axis.across.origin (eq_of_getElem?_placed hk hr hi)
  rw [Boxes.origin_across_stacked, extent_content_clamped hr, ← extent_across_placed hk hr hc,
    hroom.offset_clamped hextent, Boxes.origin_content] at hbox
  exact hbox

end Child

theorem sum_map_add_const {α : Type} (f : α → Int) (g : Int) (l : List α) :
    (l.map fun d => f d + g).sum = (l.map f).sum + l.length * g := by
  rw [List.sum_map_add, List.map_const', List.sum_replicate, Int.nsmul_eq_mul]

theorem consumed_placed (hk : n.kind.Stacks axis fallback) (hr : r.InSpace) {first last : Node × Rect}
    (hfirst : (placed s n r).head? = some first) (hlast : (placed s n r).getLast? = some last)
    (hfits : axis.origin r + axis.leading n.props.padding +
      ((placed s n r).dropLast.map fun d => axis.extent d.2 + max n.props.gap.toInt 0).sum ≤ greatest) :
    axis.origin last.2 + axis.extent last.2 - axis.origin first.2 =
      ((placed s n r).map fun d => axis.extent d.2).sum +
        (((placed s n r).length : Int) - 1) * max n.props.gap.toInt 0 := by
  have hbefore : 0 ≤ ((placed s n r).dropLast.map fun d =>
      axis.extent d.2 + max n.props.gap.toInt 0).sum := by
    refine List.sum_nonneg fun v hv => ?_
    obtain ⟨d, hd, rfl⟩ := List.mem_map.mp hv
    have hextent := (Props.inSpace_sizeHint d.1.props).getD axis axis.isLength_defaultExtent
    rw [← extent_placed hk hr (List.dropLast_subset _ hd)] at hextent
    exact Int.add_nonneg hextent.1 (Int.le_max_right _ _)
  have hsplit := List.dropLast_append_getLast? last hlast
  rw [List.head?_eq_getElem?] at hfirst
  rw [List.getLast?_eq_getElem?] at hlast
  have hstart := origin_placed hk hr hfirst
  have hend := origin_placed hk hr hlast
  rw [← List.dropLast_eq_take, Int.min_eq_right hfits] at hend
  rw [List.take_zero, List.map_nil, List.sum_nil, Int.add_zero, Int.min_eq_right (by omega)] at hstart
  have hlengths := congrArg (fun l => (l.map fun d => axis.extent d.2).sum) hsplit
  have hcount := congrArg List.length hsplit
  rw [List.map_append, List.sum_append, List.map_singleton, List.sum_singleton] at hlengths
  rw [List.length_append, List.length_singleton] at hcount
  rw [hend, hstart, sum_map_add_const, ← hlengths, ← hcount, Int.natCast_add, Int.natCast_one,
    Int.add_sub_cancel]
  omega

theorem stacking_placed (hk : n.kind.Stacks axis fallback) (hr : r.InSpace) :
    Stacking axis fallback n.props r (placed s n r) := by
  have hfallback : axis.defaultExtent = fallback := by
    generalize n.kind = kind at hk
    cases hk <;> rfl
  constructor
  case extent =>
    intro c hc
    rw [extent_placed hk hr hc, Axis.getD_hint, hfallback]
  case crossExtent =>
    intro c hc
    rw [extent_across_placed hk hr hc, Axis.getD_hint]
  case origin => exact fun i c => origin_placed hk hr
  case crossOrigin =>
    intro c hc
    rw [origin_across_placed hk hr hc]
    cases n.props.crossAlign <;> rfl
  case consumed => exact fun first last => consumed_placed hk hr

/-! ## Children with an entry -/

variable {e : LayoutEntry} {bounds : Rect}

theorem mem_solve_of_placed (hw : s.WellFormed) (he : e ∈ (solve s bounds).entries)
    (hdepth : e.depth < maxDepth) (hn : s.node? e.id = some n) :
    ∀ c ∈ placed s n e.rect, c.1.entry c.2 (e.depth + 1) ∈ (solve s bounds).entries := by
  cases hr : s.root? with
  | none => rw [solve, solveIn_of_none hr] at he; cases he
  | some root =>
      rw [solve, solveIn_of_some hr] at he ⊢
      obtain ⟨k, m, rest, hm, heq, hrest, hsub⟩ := exists_place_of_mem he
      rw [heq, Node.entry, hw.node?_eq hm] at hn
      cases hn
      intro c hc
      rw [placed, List.zip_map_left] at hc
      obtain ⟨x, hx, rfl⟩ := List.mem_map.mp hc
      have hchild := get?_of_mem_shownNodes (List.of_mem_zip hx).1
      obtain ⟨rest, rfl⟩ : ∃ rest', rest = rest' + 1 := ⟨rest - 1, by omega⟩
      exact hsub _ ((mem_place_succ hm).mpr (Or.inr ⟨x, hx, (mem_place_succ hchild).mpr (Or.inl rfl)⟩))

theorem nodup_solve (hw : s.WellFormed) (bounds : Rect) :
    ((solve s bounds).entries.map LayoutEntry.id).Nodup := by
  cases hr : s.root? with
  | none =>
      rw [solve, solveIn_of_none hr]
      exact List.nodup_nil
  | some root =>
      obtain ⟨n, hn, _⟩ := hw.root?_eq_some_iff.mp hr
      rw [solve, solveIn_of_some hr]
      exact nodup_place hw hn (maxDepth + 1) bounds

theorem map_id_placed (hw : s.WellFormed) (hn : s.node? e.id = some n)
    (hk : n.kind.Stacks axis fallback) : (placed s n r).map (fun c => c.1.id) = s.childIds e.id := by
  obtain ⟨h, hh, hid⟩ := hw.get?_of_node? hn
  have hids := congrArg (List.map Node.id) (map_fst_placed s n r)
  rw [List.map_map, List.map_map] at hids
  refine hids.trans ((map_id_shownNodes hw hh).trans ?_)
  rw [Store.shownIds_eq hw.toArena hh, hid]
  generalize n.kind = kind at hk
  cases hk <;> rfl

end Layout

namespace Store

open Layout

variable {s : Store}

/-- On a usable surface every child of a stack above the greatest depth has an entry, and the children
stand one behind the other in their order. -/
theorem Reachable.solve_stacks (hs : s.Reachable) {surface : Surface} (hu : surface.Usable)
    {e : LayoutEntry} (he : e ∈ (solve s surface.bounds).entries) (hdepth : e.depth < 1024) {n : Node}
    (hn : s.node? e.id = some n) {axis : Axis} {fallback : Int} (hk : n.kind.Stacks axis fallback) :
    ∃ kids : List (Node × Rect), kids.map (fun c => c.1.id) = s.childIds e.id ∧
      (∀ c ∈ kids, s.node? c.1.id = some c.1 ∧
        Layout.entry? (solve s surface.bounds) c.1.id = some (c.1.entry c.2 (e.depth + 1))) ∧
      Stacking axis fallback n.props e.rect kids := by
  have hw := hs.wellFormed
  have hr := inSpace_of_mem_solve hw hu.inSpace_bounds e he
  refine ⟨placed s n e.rect, map_id_placed hw hn hk, fun c hc => ⟨?_, ?_⟩, stacking_placed hk hr⟩
  · obtain ⟨x, hx, hxc⟩ := List.mem_map.mp (List.of_mem_zip hc).1
    rw [← hxc, hw.node?_eq (get?_of_mem_shownNodes hx)]
  · exact (found_of_nodup (nodup_solve hw _) (mem_solve_of_placed hw he hdepth hn c hc)).1

/-- A row in a column; the first item of the row leaves no room for the others. -/
def crowded : List Record :=
  [.createNode 1 1, .createNode 2 2, .setProp 2 103 5, .createNode 3 5, .setProp 3 301 2147483647,
    .createNode 4 6, .createNode 5 5, .appendChild 1 2, .appendChild 2 3, .appendChild 2 4,
    .appendChild 2 5]

theorem solve_stacks_crowded :
    ∃ kids : List (Node × Rect), kids.map (fun c => c.1.id) = [⟨3⟩, ⟨4⟩, ⟨5⟩] ∧
      (∀ c ∈ kids,
        Layout.entry? (solve (empty.applyAll crowded).2 (⟨640, 480⟩ : Surface).bounds) c.1.id =
          some (c.1.entry c.2 2)) ∧
      Stacking .horizontal 96 { gap := 5 } ⟨0, 0, 640, 32⟩ kids := by
  have hs := Reachable.empty.applyAll crowded
  have hroot : (empty.applyAll crowded).2.root? = some ⟨0, 0⟩ :=
    hs.wellFormed.root?_of_first (n := { id := ⟨1⟩, kind := .column, children := #[⟨1, 0⟩] })
      (by decide +kernel) rfl rfl
  have he : ⟨⟨2⟩, .row, ⟨0, 0, 640, 32⟩, false, 1⟩ ∈
      (solve (empty.applyAll crowded).2 (⟨640, 480⟩ : Surface).bounds).entries := by
    rw [solve, solveIn_of_some hroot]
    decide +kernel
  have hn : (empty.applyAll crowded).2.node? ⟨2⟩ = some
      { id := ⟨2⟩, kind := .row, props := { gap := 5 }, parent := some ⟨0, 0⟩
        children := #[⟨2, 0⟩, ⟨3, 0⟩, ⟨4, 0⟩] } := by decide +kernel
  have hu : (⟨640, 480⟩ : Surface).Usable := by constructor <;> decide
  obtain ⟨kids, hids, hentries, hstacking⟩ := hs.solve_stacks hu he (by decide) hn .row
  exact ⟨kids, hids.trans (by decide +kernel), fun c hc => (hentries c hc).2, hstacking⟩

end Store

end RetainedUi
