import RetainedUi.Scene.Kind
import RetainedUi.Scene.Props

/-!
# Nodes

A node is known to its producer by an id, and to the store by a handle.
-/

namespace RetainedUi

/-! ## Ids -/

/-- The producer's name for a node. -/
structure NodeId where
  value : UInt32
deriving DecidableEq, Repr, Inhabited

namespace NodeId

/-- The id that a word names; only positive words name one. -/
def ofWord? (w : Int32) : Option NodeId :=
  if 0 < w then some ⟨w.toUInt32⟩ else none

instance : ToString NodeId := ⟨fun id => s!"#{id.value}"⟩

instance : Ord NodeId := ⟨fun a b => compare a.value b.value⟩

instance : Std.TransOrd NodeId where
  eq_swap := Std.OrientedOrd.eq_swap (α := UInt32)
  isLE_trans := Std.TransOrd.isLE_trans (α := UInt32)

instance : Std.LawfulEqOrd NodeId where
  eq_of_compare {a b} h := by
    cases a; cases b
    exact congrArg NodeId.mk (Std.LawfulEqOrd.eq_of_compare (α := UInt32) h)

end NodeId

/-! ## Handles -/

/-- Where a node is kept: a slot, and how often the slot had been emptied when the node came in. -/
structure Handle where
  index : UInt32
  generation : UInt32
deriving DecidableEq, Repr, Inhabited

/-- The handle as it is shown in diagnostics. -/
def Handle.label (h : Handle) : String := s!"NodeKey({h.index}@gen{h.generation})"

/-! ## Nodes -/

/-- An element of the retained tree. -/
structure Node where
  id : NodeId
  kind : NodeKind
  props : Props := {}
  text : Option String := none
  /-- The children, in order. -/
  children : Array Handle := #[]
  parent : Option Handle := none
deriving DecidableEq, Repr, Inhabited

/-- A leaf is drawn filled: content, and any node without children. -/
def Node.isLeaf (n : Node) : Bool := n.kind.isContent || n.children.isEmpty

end RetainedUi
