import RetainedUi.Scene.EditError
import RetainedUi.Scene.Store
import RetainedUi.Text.Utf8
import RetainedUi.Wire.Record

/-!
# Editing a store

One record is one edit. An edit answers whether it was applied, and leaves a store behind in either
case.
-/

namespace RetainedUi

/-- A change of a store that may be refused; what was done before the refusal stays done. -/
abbrev Edit (α : Type) := ExceptT EditError (StateM Store) α

namespace Edit

/-- The node that a word names, by id and handle. -/
def resolve (word : Int32) : Edit (NodeId × Handle) := do
  match NodeId.ofWord? word with
  | none => throw (.invalidId word)
  | some id =>
    match (← get).handle? id with
    | none => throw (.unknownNode id)
    | some h => return (id, h)

/-- Refuses to go on with a stale handle. -/
def requireLive (h : Handle) : Edit Unit := do
  if ((← get).get? h).isNone then throw .staleHandle

/-- Changes the node of a live handle. -/
def modifyNode (h : Handle) (f : Node → Node) : Edit Unit := do
  requireLive h
  modify (·.modify h f)

/-- Creates a parentless node, or gives a live node another kind. -/
def createNode (word code : Int32) : Edit Unit := do
  match NodeId.ofWord? word with
  | none => throw (.invalidId word)
  | some id =>
    match NodeKind.ofCode? code with
    | none => throw (.unknownNodeType code)
    | some kind =>
      match (← get).handle? id with
      | some h => modifyNode h fun n => { n with kind }
      | none =>
        match ← modifyGet (·.insert id kind) with
        | some _ => return
        | none => throw (.allocation id)

/-- Takes a node away; its children become roots. -/
def deleteNode (word : Int32) : Edit Unit := do
  let (_, h) ← resolve word
  modify (·.detach h)
  match ← modifyGet (·.remove h) with
  | none => throw .staleHandle
  | some n => modify fun s => n.children.foldl Store.orphan s

def setProp (word key value : Int32) : Edit Unit := do
  let (_, h) ← resolve word
  match (← get).get? h with
  | none => throw .staleHandle
  | some n =>
    match n.props.set? key value with
    | some props => modify (·.modify h fun n => { n with props })
    | none => throw (.unsupportedProperty key)

def setPropStr (word key : Int32) (payload : Bytes) : Edit Unit := do
  let (_, h) ← resolve word
  if key ≠ PropKey.text then throw (.unsupportedProperty key)
  modifyNode h fun n => { n with text := some (Utf8.decodeLossy payload) }

/-- Moves a node to the end of the children of another. -/
def appendChild (parent child : Int32) : Edit Unit := do
  let (parentId, p) ← resolve parent
  let (childId, c) ← resolve child
  if (← get).isAncestorOrSelf c p then throw (.wouldCycle parentId childId)
  requireLive p
  modify (·.detach c)
  requireLive c
  requireLive p
  modify (·.attachLast p c)

/-- Takes a child from its parent. -/
def removeChild (parent child : Int32) : Edit Unit := do
  let (parentId, p) ← resolve parent
  let (childId, c) ← resolve child
  if c ∉ (← get).children p then throw (.notAChild parentId childId)
  modify (·.detach c)

/-- Puts a node in the place of a child. -/
def replaceChild (parent old new : Int32) : Edit Unit := do
  let (parentId, p) ← resolve parent
  let (oldId, o) ← resolve old
  let (newId, n) ← resolve new
  if o ∉ (← get).children p then throw (.notAChild parentId oldId)
  if o = n then return
  if (← get).isAncestorOrSelf n p then throw (.wouldCycle parentId newId)
  modify (·.detach n)
  -- The place of `old` is looked up only now: detaching `new` moves it when both share the parent.
  match ((← get).children p).idxOf? o with
  | none => throw .staleHandle
  | some pos => modify (·.replaceAt p pos n)

/-- The edit that a record asks for. -/
def ofRecord : Record → Edit Unit
  | .createNode id kind => createNode id kind
  | .deleteNode id => deleteNode id
  | .setProp id key value => setProp id key value
  | .appendChild parent child | .insertChild parent child _ => appendChild parent child
  | .removeChild parent child => removeChild parent child
  | .replaceChild parent old new => replaceChild parent old new
  | .setPropStr id key payload => setPropStr id key payload

end Edit

/-- Applies one record: the answer, and the store it leaves. -/
def Store.apply (s : Store) (r : Record) : Except EditError Unit × Store :=
  (Edit.ofRecord r).run s

end RetainedUi
