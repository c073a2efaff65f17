import AiManager.Lib.DateTime
import AiManager.Lib.Json

/-! # Graph data model

Nodes, edges and entity states of the work graph, the mutation one event maps to, and the errors of
the graph core. Every row carries its tenant and the access fields it was projected with. -/

namespace AiManager.Graph

open Lib

structure GraphNode where
  tenantId : String
  nodeId : String
  nodeType : String
  displayName : String
  resourceId : String
  properties : Json
  isPrivate : Bool
  allowedGroupIds : List String
  aclVersion : Nat
  deriving BEq, Inhabited

structure GraphEdge where
  tenantId : String
  edgeId : String
  edgeType : String
  fromNodeId : String
  toNodeId : String
  validFrom : DateTime
  validTo : Option DateTime
  eventId : String
  properties : Json
  isPrivate : Bool
  allowedGroupIds : List String
  aclVersion : Nat
  deriving BEq, Inhabited

structure EntityState where
  tenantId : String
  nodeId : String
  stateKey : String
  stateValue : String
  asOf : DateTime
  eventId : String
  isPrivate : Bool
  allowedGroupIds : List String
  deriving DecidableEq, Inhabited

/-- Mutations produced by a single event mapping. -/
structure GraphMutation where
  nodes : List GraphNode := []
  edges : List GraphEdge := []
  states : List EntityState := []

inductive GraphError where
  | validation (text : String)
  | notFound (text : String)
  | aclDenied (text : String)
  | duplicateEvent (text : String)
  | storage (text : String)
  | internal (text : String)
  deriving DecidableEq, Repr

abbrev GraphResult (α : Type) := Except GraphError α

/-- The `nodes` map of a store is filed by tenant and node. -/
def GraphNode.key (n : GraphNode) : String × String := (n.tenantId, n.nodeId)

/-- The `states` map of a store is filed by tenant, node and state key. -/
def EntityState.key (s : EntityState) : String × String × String := (s.tenantId, s.nodeId, s.stateKey)

end AiManager.Graph
