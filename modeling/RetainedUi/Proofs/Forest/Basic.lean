import RetainedUi.Proofs.Ancestry
import RetainedUi.Scene.EditError
import RetainedUi.Scene.Store
import RetainedUi.Text.Utf8
import RetainedUi.Wire.Record

/-!
# Forests by id

What a producer knows of a store: for every live id the node's kind, properties, text, children and
parent, with the neighbours named by their ids. Edits are given here for forests alone, without
handles, slots or a set of roots.
-/

namespace RetainedUi

/-- What a forest holds under an id. -/
structure Element where
  kind : NodeKind
  props : Props := {}
  text : Option String := none
  /-- The ids of the children, in order. -/
  children : List NodeId := []
  parent : Option NodeId := none
deriving DecidableEq, Repr

/-- The elements of the live ids. -/
abbrev Forest := NodeId → Option Element

/-- The forest that a store holds. -/
def Store.forest (s : Store) : Forest := fun x =>
  (s.node? x).map fun n =>
    { kind := n.kind, props := n.props, text := n.text
      children := s.childIds x, parent := s.parentOf x }

namespace Forest

variable (f : Forest)

/-- The parent of an id. -/
def parent? (x : NodeId) : Option NodeId := (f x).bind Element.parent

/-! ## Changes -/

/-- Changes the element of an id. -/
def adjust (x : NodeId) (g : Element → Element) : Forest := fun y =>
  (f y).map fun e => if y = x then g e else e

/-- Puts an element under an id. -/
def insert (x : NodeId) (e : Element) : Forest := fun y => if y = x then some e else f y

/-- Takes an id from its parent. -/
def detach (c : NodeId) : Forest := fun x =>
  (f x).map fun e => { e with
    children := e.children.erase c
    parent := if x = c then none else e.parent }

/-- Puts a root last among the children of `p`. -/
def attachLast (p c : NodeId) : Forest := fun x =>
  (f x).map fun e => { e with
    children := if x = p then e.children ++ [c] else e.children
    parent := if x = c then some p else e.parent }

/-- Puts a root in the place of the child `old` of `p`, which becomes a root. -/
def replaceChild (p old new : NodeId) : Forest := fun x =>
  (f x).map fun e => { e with
    children := if x = p then e.children.replace old new else e.children
    parent := if x = new then some p else if x = old then none else e.parent }

/-- Takes an id out; its children become roots. -/
def delete (d : NodeId) : Forest := fun x =>
  if x = d then none else (f x).map fun e => { e with
    children := e.children.erase d
    parent := if e.parent = some d then none else e.parent }

/-! ## Edits -/

/-- The live id that a word names, and its element. -/
def resolve (word : Int32) : Except EditError (NodeId × Element) :=
  match NodeId.ofWord? word with
  | none => .error (.invalidId word)
  | some x =>
    match f x with
    | none => .error (.unknownNode x)
    | some e => .ok (x, e)

open Classical in
/-- The forest after a record, or why the record is refused. -/
noncomputable def edit : Record → Except EditError Forest
  | .createNode word code =>
    match NodeId.ofWord? word with
    | none => .error (.invalidId word)
    | some x =>
      match NodeKind.ofCode? code with
      | none => .error (.unknownNodeType code)
      | some kind =>
        match f x with
        | none => .ok (f.insert x { kind })
        | some _ => .ok (f.adjust x fun e => { e with kind })
  | .deleteNode word => do
    let (x, _) ← f.resolve word
    .ok (f.delete x)
  | .setProp word key value => do
    let (x, e) ← f.resolve word
    match e.props.set? key value with
    | some props => .ok (f.adjust x fun e => { e with props })
    | none => .error (.unsupportedProperty key)
  | .appendChild parent child | .insertChild parent child _ => do
    let (p, _) ← f.resolve parent
    let (c, _) ← f.resolve child
    if Above f.parent? c p then .error (.wouldCycle p c) else .ok ((f.detach c).attachLast p c)
  | .removeChild parent child => do
    let (p, e) ← f.resolve parent
    let (c, _) ← f.resolve child
    if c ∈ e.children then .ok (f.detach c) else .error (.notAChild p c)
  | .replaceChild parent old new => do
    let (p, e) ← f.resolve parent
    let (o, _) ← f.resolve old
    let (n, _) ← f.resolve new
    if o ∉ e.children then .error (.notAChild p o)
    else if o = n then .ok f
    else if Above f.parent? n p then .error (.wouldCycle p n)
    else .ok ((f.detach n).replaceChild p o n)
  | .setPropStr word key payload => do
    let (x, _) ← f.resolve word
    if key = PropKey.text then
      .ok (f.adjust x fun e => { e with text := some (Utf8.decodeLossy payload) })
    else .error (.unsupportedProperty key)

end Forest

end RetainedUi
