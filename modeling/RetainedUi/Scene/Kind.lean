/-!
# Node kinds

A node stacks its children, places one child, or shows content of its own.
-/

namespace RetainedUi

/-- What a node is. -/
inductive NodeKind where
  /-- Stacks its children downwards. -/
  | column
  /-- Stacks its children rightwards. -/
  | row
  /-- Centres its first child. -/
  | center
  /-- Gives its first child its own box. -/
  | sizedBox
  | text
  | button
deriving DecidableEq, Repr, Inhabited

namespace NodeKind

/-- The number that a kind has on the wire. -/
def code : NodeKind → Int32
  | column => 1
  | row => 2
  | center => 3
  | sizedBox => 4
  | text => 5
  | button => 6

/-- The kind of a number, if it is one. -/
def ofCode? (n : Int32) : Option NodeKind :=
  match n with
  | 1 => some column
  | 2 => some row
  | 3 => some center
  | 4 => some sizedBox
  | 5 => some text
  | 6 => some button
  | _ => none

/-- Content is drawn as a leaf, whatever its children. -/
def isContent : NodeKind → Bool
  | text | button => true
  | _ => false

/-- The children that are laid out: all of a stack, the first of a frame, none of content. -/
def shown {α : Type} (children : List α) : NodeKind → List α
  | column | row => children
  | center | sizedBox => children.take 1
  | text | button => []

theorem ofCode?_code (k : NodeKind) : ofCode? k.code = some k := by cases k <;> rfl

end NodeKind

end RetainedUi
