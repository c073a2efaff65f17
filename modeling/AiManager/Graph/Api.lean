import AiManager.Graph.Ids
import AiManager.Graph.Membership
import AiManager.Graph.Query
import Mathlib.Data.Finset.Sort
import Mathlib.Data.String.Basic

/-! # The read handlers of the graph API

A reader is a user of a tenant with the groups that the memberships give; every handler reads the store
as that user. -/

namespace AiManager.Graph

open Lib

structure AppState where
  store : InMemoryGraphStore
  membership : InMemoryMembership
  maxHops : Nat
  defaultHops : Nat

namespace GraphError

/-- The status code of an answer that reports the error. -/
def status : GraphError → Nat
  | notFound _ => 404
  | aclDenied _ => 403
  | validation _ => 400
  | duplicateEvent _ => 200
  | storage _ | internal _ => 500

end GraphError

/-- A resource of a pull request may stand for its node. -/
def stateNodeId (nodeId : String) : String :=
  if Text.startsWith nodeId "pr:" || Text.startsWith nodeId "person:" then nodeId
  else if Text.contains nodeId "/pr/" then prNodeId nodeId
  else nodeId

namespace AppState
variable (st : AppState)

def ctxFor (tenantId userId : String) : QueryContext where
  tenantId := tenantId
  globalUserId := userId
  -- the groups come in any order, and nobody reads it
  groupIds := (st.membership.getGroups tenantId userId).sort (· ≤ ·)

def neighborhood (now : DateTime) (tenantId userId nodeId : String) (hops : Option Nat) :
    GraphResult Neighborhood :=
  st.store.neighborhood now (st.ctxFor tenantId userId) nodeId (min (hops.getD st.defaultHops) st.maxHops)

def stateQuery (tenantId userId nodeId : String) (stateKey : Option String) :
    GraphResult (Option EntityState) :=
  .ok (st.store.getState (st.ctxFor tenantId userId) (stateNodeId nodeId) (stateKey.getD "lifecycle"))

def blockers (now : DateTime) (tenantId userId nodeId : String) : GraphResult (List GraphEdge) :=
  .ok (st.store.blockers now (st.ctxFor tenantId userId) nodeId)

end AppState

end AiManager.Graph
