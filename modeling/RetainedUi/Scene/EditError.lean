import RetainedUi.Scene.Node

/-!
# Why a record is refused
-/

namespace RetainedUi

/-- The reason why a record was not applied. -/
inductive EditError where
  | invalidId (word : Int32)
  | unknownNodeType (code : Int32)
  | unknownNode (id : NodeId)
  /-- The second node is no child of the first. -/
  | notAChild (parent child : NodeId)
  /-- The node would become its own ancestor. -/
  | wouldCycle (parent child : NodeId)
  /-- The key is no property of this sort. -/
  | unsupportedProperty (key : Int32)
  /-- There is no slot left for the node. -/
  | allocation (id : NodeId)
  /-- A handle lost its node in the middle of an edit. -/
  | staleHandle
deriving DecidableEq, Repr

def EditError.message : EditError → String
  | invalidId word => s!"node id {word} is not positive"
  | unknownNodeType code => s!"unknown node type code {code}"
  | unknownNode id => s!"node {id} does not exist"
  | notAChild parent child => s!"{child} is not a child of {parent}"
  | wouldCycle parent child => s!"attaching {child} under {parent} would create a cycle"
  | unsupportedProperty key => s!"unsupported property key {key}"
  | allocation id => s!"allocation failed while editing {id}"
  | staleHandle => "stale node handle"

end RetainedUi
