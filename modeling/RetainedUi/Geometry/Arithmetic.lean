/-!
# Coordinate arithmetic

Coordinates are integers. Layout and painting add and subtract them in one of two ways: `clamped`
keeps every result within a signed 32-bit coordinate, `exact` lets it grow.
-/

namespace RetainedUi

namespace Coord

/-- The least coordinate of a signed 32-bit space. -/
def least : Int := -2147483648

/-- The greatest coordinate of a signed 32-bit space. -/
def greatest : Int := 2147483647

/-- The coordinate nearest to `n`. -/
def clamp (n : Int) : Int := max least (min n greatest)

/-- The number `n` is a signed 32-bit coordinate. -/
def InRange (n : Int) : Prop := least ≤ n ∧ n ≤ greatest

instance (n : Int) : Decidable (InRange n) := inferInstanceAs (Decidable (_ ∧ _))

theorem clamp_inRange (n : Int) : InRange (clamp n) := by
  simp only [InRange, clamp, least, greatest]; omega

theorem clamp_of_inRange {n : Int} (h : InRange n) : clamp n = n := by
  simp only [InRange, clamp, least, greatest] at *; omega

end Coord

/-- How sums and differences of coordinates are formed. -/
structure Arithmetic where
  add : Int → Int → Int
  /-- The first coordinate less the second. -/
  sub : Int → Int → Int

namespace Arithmetic

/-- Results outside the coordinate space become its nearest end. -/
def clamped : Arithmetic where
  add a b := Coord.clamp (a + b)
  sub a b := Coord.clamp (a - b)

/-- Results are the integers themselves. -/
def exact : Arithmetic where
  add a b := a + b
  sub a b := a - b

end Arithmetic

end RetainedUi
