import RetainedUi.Geometry.Rect

/-!
# Surfaces

The size of what is drawn on. A usable surface has pixels, and its size fits the coordinate space.
-/

namespace RetainedUi

structure Surface where
  width : Nat
  height : Nat
deriving DecidableEq, Repr, Inhabited

/-- Why a size is no usable surface. -/
inductive SurfaceError where
  | noPixels
  | outsideCoordinates
deriving DecidableEq, Repr

/-- The wording of a refused size. -/
def SurfaceError.message : SurfaceError → String
  | .noPixels => "surface width/height must be > 0"
  | .outsideCoordinates => "surface width/height must fit in a signed 32-bit coordinate"

namespace Surface

def maxSide : Nat := 2147483647

/-- A surface that can be drawn on. -/
structure Usable (s : Surface) : Prop where
  width_pos : 0 < s.width
  height_pos : 0 < s.height
  width_le : s.width ≤ maxSide
  height_le : s.height ≤ maxSide

/-- The surface of a size; a missing side is reported before an excessive one. -/
def ofSize (width height : Nat) : Except SurfaceError Surface :=
  if width = 0 ∨ height = 0 then .error .noPixels
  else if maxSide < width ∨ maxSide < height then .error .outsideCoordinates
  else .ok ⟨width, height⟩

theorem usable_of_ofSize {width height : Nat} {s : Surface} (hs : ofSize width height = .ok s) :
    s.Usable := by
  rw [ofSize] at hs
  split at hs
  · cases hs
  split at hs
  · cases hs
  · cases hs
    constructor <;> dsimp only <;> omega

/-- The box of the whole surface. -/
def bounds (s : Surface) : Rect :=
  ⟨0, 0, (min s.width maxSide : Nat), (min s.height maxSide : Nat)⟩

/-- The bytes of a frame at three bytes a pixel, as far as a 64-bit length can say. -/
def byteLength (s : Surface) : Nat := min (s.width * s.height * 3) 18446744073709551615

end Surface

end RetainedUi
