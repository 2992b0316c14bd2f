import Std.Data.ExtTreeMap
import Std.Data.ExtTreeSet
import RetainedUi.Scene.Node

/-!
# The node store

Nodes live in slots. A slot that is emptied counts up its generation and is used again, so a handle
finds the node it was given for or, once that is gone, nothing. Beside the slots the store keeps the
handle of every id and the set of parentless ids.
-/

namespace RetainedUi

/-- A place for a node. -/
structure Slot where
  /-- How often the slot has been emptied, modulo 2³². -/
  generation : UInt32 := 0
  node : Option Node := none
deriving DecidableEq, Repr, Inhabited

/-- The nodes of a tree that is being edited. -/
structure Store where
  slots : Array Slot := #[]
  /-- The empty slots, the one to use next first. -/
  free : List UInt32 := []
  /-- The handle of every live id. -/
  index : Std.ExtTreeMap NodeId Handle := ∅
  /-- The ids of the nodes without a parent. -/
  roots : Std.ExtTreeSet NodeId := ∅
  /-- The highest id that was ever put in. -/
  maxId : Option NodeId := none

namespace Store

def empty : Store := {}

/-! ## Looking up -/

/-- The node of a handle; a stale handle has none. -/
def get? (s : Store) (h : Handle) : Option Node :=
  match s.slots[h.index.toNat]? with
  | some slot => if slot.generation = h.generation then slot.node else none
  | none => none

/-- The handle of a live id. -/
def handle? (s : Store) (id : NodeId) : Option Handle := s.index[id]?

def node? (s : Store) (id : NodeId) : Option Node := (s.handle? id).bind s.get?

def size (s : Store) : Nat := s.index.size

/-- The live ids, in ascending order. -/
def ids (s : Store) : List NodeId := s.index.keys

/-- The ids without a parent, in ascending order. -/
def parentless (s : Store) : List NodeId := s.roots.toList

/-- The node that layout starts from: the parentless one with the lowest id. -/
def root? (s : Store) : Option Handle := s.roots.min?.bind s.handle?

/-- The children of a handle, in order. -/
def children (s : Store) (h : Handle) : Array Handle :=
  match s.get? h with
  | some n => n.children
  | none => #[]

def id? (s : Store) (h : Handle) : Option NodeId := (s.get? h).map Node.id

def parent? (s : Store) (h : Handle) : Option Handle :=
  match s.get? h with
  | some n => n.parent
  | none => none

/-- The id of the parent of an id. -/
def parentOf (s : Store) (id : NodeId) : Option NodeId :=
  ((s.node? id).bind Node.parent).bind s.id?

/-- The ids of the children of an id, in order. -/
def childIds (s : Store) (id : NodeId) : List NodeId :=
  match s.node? id with
  | some n => n.children.toList.filterMap s.id?
  | none => []

/-! ## Ancestors -/

/-- Whether `ancestor` is met on the way from `h` up; rounds that run out leave it open. -/
def meets? (s : Store) (ancestor : Handle) : Nat → Option Handle → Option Bool
  | 0, _ => none
  | _ + 1, none => some false
  | rounds + 1, some h => if h = ancestor then some true else meets? s ancestor rounds (s.parent? h)

/-- Whether `ancestor` is `h` or above it. No chain of parents is longer than the slots are many; rounds
that ran out would count as meeting it. -/
def isAncestorOrSelf (s : Store) (ancestor h : Handle) : Bool :=
  (s.meets? ancestor (s.slots.size + 1) (some h)).getD true

/-! ## Changing links

These keep one side of a link at a time; an edit joins them so that both sides agree in the end. -/

/-- Changes the node of a handle; a stale handle changes nothing. -/
def modify (s : Store) (h : Handle) (f : Node → Node) : Store :=
  { s with
    slots := s.slots.modify h.index.toNat fun slot =>
      if slot.generation = h.generation then { slot with node := slot.node.map f } else slot }

/-- Clears the parent of a node, which becomes a root. -/
def orphan (s : Store) (h : Handle) : Store :=
  match s.get? h with
  | some n =>
    let s := s.modify h fun n => { n with parent := none }
    { s with roots := s.roots.insert n.id }
  | none => s

/-- Sets the parent of a node, which is then no root. -/
def linkParent (s : Store) (parent h : Handle) : Store :=
  match s.get? h with
  | some n =>
    let s := s.modify h fun n => { n with parent := some parent }
    { s with roots := s.roots.erase n.id }
  | none => s

/-- Takes a node from its parent; its siblings keep their order. -/
def detach (s : Store) (h : Handle) : Store :=
  match s.parent? h with
  | some p => (s.modify p fun n => { n with children := n.children.erase h }).orphan h
  | none => s

/-- Puts a parentless node last among the children of `parent`. -/
def attachLast (s : Store) (parent h : Handle) : Store :=
  (s.modify parent fun n => { n with children := n.children.push h }).linkParent parent h

/-- Puts a parentless node in place of the child at `pos`, which becomes a root. -/
def replaceAt (s : Store) (parent : Handle) (pos : Nat) (new : Handle) : Store :=
  match (s.children parent)[pos]? with
  | some old =>
    ((s.modify parent fun n => { n with children := n.children.setIfInBounds pos new }).orphan old).linkParent
      parent new
  | none => s

/-! ## Putting in and taking out -/

/-- The highest of the ids put in so far and `id`. -/
def raiseMax (highest : Option NodeId) (id : NodeId) : Option NodeId :=
  match highest with
  | some m => if m.value < id.value then some id else some m
  | none => some id

/-- Puts a parentless node into a slot for an id that is not live and gives its handle; there is no
room when every slot number is in use. -/
def insert (s : Store) (id : NodeId) (kind : NodeKind) : Option Handle × Store :=
  match s with
  | { slots, free := i :: free, index, roots, maxId } =>
    let h : Handle := ⟨i, (slots[i.toNat]?.map Slot.generation).getD 0⟩
    (some h, {
      slots := slots.modify i.toNat fun slot => { slot with node := some { id, kind } }
      free
      index := index.insert id h
      roots := roots.insert id
      maxId := raiseMax maxId id })
  | { slots, free := [], index, roots, maxId } =>
    if slots.size < UInt32.size then
      let h : Handle := ⟨.ofNat slots.size, 0⟩
      (some h, {
        slots := slots.push { node := some { id, kind } }
        free := []
        index := index.insert id h
        roots := roots.insert id
        maxId := raiseMax maxId id })
    else (none, { slots, free := [], index, roots, maxId })

/-- Empties the slot of a handle and gives the node that was in it, whose links stay as they are. -/
def remove (s : Store) (h : Handle) : Option Node × Store :=
  match s.get? h with
  | some n =>
    (some n, {
      slots := s.slots.modify h.index.toNat fun slot => { generation := slot.generation + 1 }
      free := h.index :: s.free
      index := s.index.erase n.id
      roots := s.roots.erase n.id
      maxId := s.maxId })
  | none => (none, s)

/-- Takes out the node of an id; the number tells whether there was one. -/
def release (s : Store) (id : NodeId) : Nat × Store :=
  match s.handle? id with
  | some h =>
    match s.remove h with
    | (some _, s) => (1, s)
    | (none, s) => (0, s)
  | none => (0, s)

/-- Takes out every node, from the lowest id to the highest, and counts them. -/
def releaseAll (s : Store) : Nat × Store :=
  s.ids.foldl (fun (count, s) id =>
    let (n, s) := s.release id
    (count + n, s)) (0, s)

end Store

end RetainedUi
