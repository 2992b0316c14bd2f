import RetainedUi.Geometry.Arithmetic
import RetainedUi.Wire.Record

/-!
# Node properties

What a producer may set on a node besides its kind, children and text. Values are kept as sent;
layout reads a size that is not positive as unset, and a negative gap as none.
-/

namespace RetainedUi

/-! ## Alignment -/

/-- Where an item stands in the space it has. -/
inductive Align where
  | start
  | center
  | «end»
deriving DecidableEq, Repr, Inhabited

namespace Align

/-- The number that an alignment has on the wire. -/
def code : Align → Int32
  | start => 0
  | center => 1
  | «end» => 2

/-- The alignment of a number; one without meaning is `start`. -/
def ofCode (n : Int32) : Align :=
  match n with
  | 1 => center
  | 2 => «end»
  | _ => start

/-- How far an item of length `item` stands from the start of `available`; an item that is too long
stands before it. -/
def offset (a : Arithmetic) (available item : Int) : Align → Int
  | start => 0
  | center => (a.sub available item).tdiv 2
  | «end» => a.sub available item

theorem ofCode_code (x : Align) : ofCode x.code = x := by cases x <;> rfl

end Align

/-! ## Padding -/

/-- The space kept free inside a box, on each side. -/
structure Padding where
  left : UInt8 := 0
  top : UInt8 := 0
  right : UInt8 := 0
  bottom : UInt8 := 0
deriving DecidableEq, Repr, Inhabited

namespace Padding

/-- The paddings of a word: from the least significant byte on left, bottom, right and top. -/
def unpack (w : Int32) : Padding :=
  let u := w.toUInt32
  { left := u.toUInt8, bottom := (u >>> 8).toUInt8, right := (u >>> 16).toUInt8,
    top := (u >>> 24).toUInt8 }

def pack (p : Padding) : Int32 := Word.ofBytes p.left p.bottom p.right p.top

end Padding

/-! ## All properties -/

/-- An explicit size; a side without one is laid out by default. -/
structure SizeHint where
  width : Option Int
  height : Option Int
deriving DecidableEq, Repr

/-- The properties of a node, as last set. -/
structure Props where
  /-- Alignment along the stacking direction; kept, and not used by layout. -/
  mainAlign : Align := .start
  crossAlign : Align := .start
  /-- Space between stacked children. -/
  gap : Int32 := 0
  /-- Space inside the box. -/
  padding : Padding := {}
  width : Int32 := 0
  height : Int32 := 0
deriving DecidableEq, Repr, Inhabited

namespace Props

/-- A length as layout reads it. -/
def hint (length : Int32) : Option Int :=
  if 0 < length then some length.toInt else none

/-- The explicit size as layout reads it. -/
def sizeHint (p : Props) : SizeHint := ⟨hint p.width, hint p.height⟩

/-- Sets the integer property of a key, if there is one. -/
def set? (p : Props) (key value : Int32) : Option Props :=
  match key with
  | PropKey.mainAlign => some { p with mainAlign := .ofCode value }
  | PropKey.crossAlign => some { p with crossAlign := .ofCode value }
  | PropKey.gap => some { p with gap := value }
  | PropKey.padding => some { p with padding := .unpack value }
  | PropKey.width => some { p with width := value }
  | PropKey.height => some { p with height := value }
  | _ => none

end Props

end RetainedUi
