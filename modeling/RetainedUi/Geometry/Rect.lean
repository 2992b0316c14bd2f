import RetainedUi.Geometry.Arithmetic

/-!
# Rectangles

A box by its origin and size. A rectangle without positive width and height covers no pixel.
-/

namespace RetainedUi

/-- The pixels from `(x, y)` on, `w` across and `h` down. -/
structure Rect where
  x : Int
  y : Int
  w : Int
  h : Int
deriving DecidableEq, Repr, Inhabited

namespace Rect

/-- Moves every side inwards by `d`; what is left may have no positive size. -/
def inset (r : Rect) (d : Int) : Rect where
  x := Arithmetic.clamped.add r.x d
  y := Arithmetic.clamped.add r.y d
  w := Arithmetic.clamped.sub r.w (Coord.clamp (d * 2))
  h := Arithmetic.clamped.sub r.h (Coord.clamp (d * 2))

def isEmpty (r : Rect) : Bool := r.w ≤ 0 || r.h ≤ 0

/-- The pixel `(px, py)` lies in the rectangle, taken half open. -/
def Contains (r : Rect) (px py : Int) : Prop :=
  r.x ≤ px ∧ px < r.x + r.w ∧ r.y ≤ py ∧ py < r.y + r.h

instance (r : Rect) (px py : Int) : Decidable (r.Contains px py) :=
  inferInstanceAs (Decidable (_ ∧ _))

end Rect

end RetainedUi
