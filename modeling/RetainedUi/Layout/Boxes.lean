import RetainedUi.Geometry.Rect
import RetainedUi.Scene.Kind
import RetainedUi.Scene.Props

/-!
# Boxes of children

A node divides its own box among the children that are laid out, by its kind and properties and by
their explicit sizes alone. Sums and differences are those of a given arithmetic.
-/

namespace RetainedUi

/-! ## Stacking directions -/

/-- The direction in which a stack grows. -/
inductive Axis where
  | vertical
  | horizontal
deriving DecidableEq, Repr

namespace Axis

def across : Axis → Axis
  | vertical => horizontal
  | horizontal => vertical

/-- The first coordinate of a box in the direction. -/
def origin (r : Rect) : Axis → Int
  | vertical => r.y
  | horizontal => r.x

/-- The length of a box in the direction. -/
def extent (r : Rect) : Axis → Int
  | vertical => r.h
  | horizontal => r.w

/-- The explicit length in the direction. -/
def hint (size : SizeHint) : Axis → Option Int
  | vertical => size.height
  | horizontal => size.width

/-- The length, in the direction of its stack, of a child without an explicit one. -/
def defaultExtent : Axis → Int
  | vertical => 32
  | horizontal => 96

/-- The box with the given origin and length in the direction and across it. -/
def box (origin extent crossOrigin crossExtent : Int) : Axis → Rect
  | vertical => ⟨crossOrigin, origin, crossExtent, extent⟩
  | horizontal => ⟨origin, crossOrigin, extent, crossExtent⟩

end Axis

/-! ## The boxes -/

namespace Boxes

variable (a : Arithmetic)

/-- What the padding leaves of a box; a side of it is never negative. -/
def content (p : Padding) (r : Rect) : Rect where
  x := a.add r.x p.left.toNat
  y := a.add r.y p.top.toNat
  w := max (a.sub (a.sub r.w p.left.toNat) p.right.toNat) 0
  h := max (a.sub (a.sub r.h p.top.toNat) p.bottom.toNat) 0

/-- The box of a stacked child that starts at `cursor`. -/
def stacked (axis : Axis) (area : Rect) (align : Align) (cursor : Int) (child : SizeHint) : Rect :=
  let extent := (axis.hint child).getD axis.defaultExtent
  let room := axis.across.extent area
  let crossExtent := (axis.across.hint child).getD room
  let crossOrigin := a.add (axis.across.origin area) (align.offset a room crossExtent)
  axis.box cursor extent crossOrigin crossExtent

/-- The boxes of stacked children, the first at `cursor`, each one a gap after the one before. -/
def stack (axis : Axis) (area : Rect) (gap : Int) (align : Align) (cursor : Int) :
    List SizeHint → List Rect
  | [] => []
  | child :: rest =>
    let box := stacked a axis area align cursor child
    box :: stack axis area gap align (a.add (a.add cursor (axis.extent box)) gap) rest

/-- The box of a child in the middle of an area; a side without an explicit length takes half. -/
def centered (area : Rect) (child : SizeHint) : Rect :=
  let w := child.width.getD (area.w.tdiv 2)
  let h := child.height.getD (area.h.tdiv 2)
  ⟨a.add area.x ((a.sub area.w w).tdiv 2), a.add area.y ((a.sub area.h h).tdiv 2), w, h⟩

/-- The box of a child at the origin of its parent; a side without an explicit length takes all. -/
def within (r : Rect) (child : SizeHint) : Rect :=
  ⟨r.x, r.y, child.width.getD r.w, child.height.getD r.h⟩

/-- The boxes of the children of a node with box `r`. Only stacks and centring heed the padding. -/
def ofChildren (kind : NodeKind) (p : Props) (r : Rect) (children : List SizeHint) : List Rect :=
  let area := content a p.padding r
  let gap := max p.gap.toInt 0
  match kind with
  | .column => stack a .vertical area gap p.crossAlign area.y children
  | .row => stack a .horizontal area gap p.crossAlign area.x children
  | .center => children.map (centered a area)
  | .sizedBox => children.map (within r)
  | .text | .button => []

end Boxes

end RetainedUi
