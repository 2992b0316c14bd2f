import RetainedUi.Geometry.Surface
import RetainedUi.Layout.Boxes
import RetainedUi.Scene.Store

/-!
# Layout

Layout starts at the root of a store with a given box and goes down to the children that are laid
out, parents before children. It stops below a fixed depth and says so.
-/

namespace RetainedUi

structure LayoutEntry where
  id : NodeId
  kind : NodeKind
  rect : Rect
  /-- Drawn as a filled leaf, not as an outlined container. -/
  leaf : Bool
  depth : Nat
deriving DecidableEq, Repr

/-- The boxes of all nodes that were reached. -/
structure Layout where
  /-- Parents before children, siblings in order. -/
  entries : List LayoutEntry := []
  /-- Some node below the greatest depth was left out. -/
  depthLimited : Bool := false
deriving DecidableEq, Repr, Inhabited

namespace Layout

/-- The greatest depth that is laid out. -/
def maxDepth : Nat := 1024

/-- The entry of an id, if it was reached. -/
def entry? (l : Layout) (id : NodeId) : Option LayoutEntry := l.entries.find? (·.id = id)

/-- The box of an id, if it was reached. -/
def rectOf? (l : Layout) (id : NodeId) : Option Rect := (l.entry? id).map (·.rect)

/-- The entry that layout started from. -/
def root? (l : Layout) : Option LayoutEntry := l.entries.head?

/-- An entry and the layouts of what is below it. -/
def branch (e : LayoutEntry) (below : List Layout) : Layout where
  entries := e :: below.flatMap entries
  depthLimited := below.any depthLimited

variable (a : Arithmetic) (s : Store)

/-- The children of a node that are laid out, each with its box. -/
def arrange (n : Node) (r : Rect) : List (Handle × Rect) :=
  let shown := (n.kind.shown n.children.toList).filterMap fun h => (s.get? h).map fun c => (h, c)
  let boxes := Boxes.ofChildren a n.kind n.props r (shown.map fun (_, c) => c.props.sizeHint)
  (shown.map Prod.fst).zip boxes

/-- The layout of the node of a handle in a box, as far as `levels` more levels go. -/
def place (levels depth : Nat) (h : Handle) (r : Rect) : Layout :=
  match s.get? h with
  | none => {}
  | some n =>
    match levels with
    | 0 => { depthLimited := true }
    | levels + 1 =>
      branch ⟨n.id, n.kind, r, n.isLeaf, depth⟩
        ((arrange a s n r).map fun (child, box) => place levels (depth + 1) child box)

/-- The layout of a store in a box, in a given arithmetic. -/
def solveIn (bounds : Rect) : Layout :=
  match s.root? with
  | some root => place a s (maxDepth + 1) 0 root bounds
  | none => {}

/-- The layout of a store in a box. -/
def solve (bounds : Rect) : Layout := solveIn .clamped s bounds

end Layout

end RetainedUi
