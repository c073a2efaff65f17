import AiManager.Graph.ProjectAll
import AiManager.Graph.Query

/-! # The production graph store

`CrdbGraphStore` by its statements: an `INSERT … ON CONFLICT (key) DO UPDATE` for every row of a mutation,
and a `SELECT` with `ORDER BY` and `LIMIT` for every query. What a column of instants keeps of a time is
`column`; what the database's `lower` does to a text is `lower`. -/

namespace AiManager.Graph

open Lib

/-- The tables `projector_applied_events`, `graph_node`, `graph_edge` and `entity_state`, by their primary
keys. -/
structure CrdbGraphStore where
  applied : KMap (String × String) Unit
  nodes : Table GraphNode.key
  edges : Table GraphEdge.key
  states : Table EntityState.key

namespace CrdbGraphStore

def new : CrdbGraphStore := ⟨∅, ∅, ∅, ∅⟩

/-- Whether a row was affected. -/
def markEventApplied (db : CrdbGraphStore) (tenantId eventId : String) : Bool × CrdbGraphStore :=
  if db.applied.has (tenantId, eventId) then (false, db)
  else (true, { db with applied := db.applied.put (tenantId, eventId) () })

/-! ## Upserts -/

section Upserts
variable (column : DateTime → DateTime)

/-- Every column but the key is set. -/
def upsertNode (db : CrdbGraphStore) (n : GraphNode) : CrdbGraphStore :=
  { db with nodes := db.nodes.put n }

/-- The columns that are set on a conflict; type, ends and event stay. -/
def updateEdge (existing excluded : GraphEdge) : GraphEdge :=
  { existing with
    validFrom := excluded.validFrom
    validTo := excluded.validTo
    properties := excluded.properties
    isPrivate := excluded.isPrivate
    allowedGroupIds := excluded.allowedGroupIds
    aclVersion := excluded.aclVersion }

def upsertEdge (db : CrdbGraphStore) (e : GraphEdge) : CrdbGraphStore :=
  let excluded := { e with validFrom := column e.validFrom, validTo := e.validTo.map column }
  { db with edges := db.edges.put ((db.edges.get e.key).elim excluded (updateEdge · excluded)) }

/-- The condition of the update of a state. -/
def overwrites (existing excluded : EntityState) : Bool :=
  decide (existing.asOf < excluded.asOf) ||
    (decide (existing.asOf = excluded.asOf) && decide (existing.stateValue ≠ excluded.stateValue)
      && (decide (excluded.stateValue = "CLOSED") || decide (excluded.stateValue = "MERGED")))

/-- A state as the columns keep it. -/
def stateRow (s : EntityState) : EntityState := { s with asOf := column s.asOf }

/-- The row of a key after the statement. -/
def settle (held : Option EntityState) (s : EntityState) : EntityState :=
  match held with
  | none => stateRow column s
  | some existing => if overwrites existing (stateRow column s) then stateRow column s else existing

def upsertState (db : CrdbGraphStore) (s : EntityState) : CrdbGraphStore :=
  match db.states.get s.key with
  | none => { db with states := db.states.put (stateRow column s) }
  | some existing =>
    if overwrites existing (stateRow column s) then
      { db with states := db.states.put (stateRow column s) }
    else db

/-- One transaction. -/
def applyMutation (db : CrdbGraphStore) (m : GraphMutation) : CrdbGraphStore :=
  m.states.foldl (upsertState column)
    (m.edges.foldl (upsertEdge column) (m.nodes.foldl upsertNode db))

variable {column}

theorem upsertState_get_self (db : CrdbGraphStore) (s : EntityState) :
    (db.upsertState column s).states.get s.key = some (settle column (db.states.get s.key) s) := by
  have hput : (db.states.put (stateRow column s)).get s.key = some (stateRow column s) :=
    Table.get_put_self db.states (stateRow column s)
  unfold upsertState settle
  cases h : db.states.get s.key with
  | none => exact hput
  | some existing =>
    dsimp only
    split_ifs
    · exact hput
    · exact h

theorem upsertState_get_ne (db : CrdbGraphStore) {s : EntityState} {k : String × String × String}
    (hk : k ≠ s.key) : (db.upsertState column s).states.get k = db.states.get k := by
  have hput : (db.states.put (stateRow column s)).get k = db.states.get k :=
    Table.get_put_ne db.states hk
  unfold upsertState
  split
  · exact hput
  · split_ifs
    · exact hput
    · rfl

theorem applyMutation_states_get (db : CrdbGraphStore) (m : GraphMutation)
    (key : String × String × String) : (db.applyMutation column m).states.get key =
      register (settle column) (db.states.get key) (m.statesAt key) := by
  -- nodes and edges leave the states alone
  have hframe : (m.edges.foldl (upsertEdge column) (m.nodes.foldl upsertNode db)).states =
      db.states := by
    rw [foldl_keeps (upsertEdge column) states fun _ _ => rfl,
      foldl_keeps upsertNode states fun _ _ => rfl]
  unfold applyMutation
  rw [← hframe]
  refine read_foldl_filter (fun db : CrdbGraphStore => db.states.get key) (fun s => s.key = key)
    ?_ ?_ m.states _
  · intro db s hs
    rw [← of_decide_eq_true hs]
    exact upsertState_get_self db s
  · intro db s hs
    exact upsertState_get_ne db (Ne.symm (of_decide_eq_false hs))

theorem settle_eq_or_held (held : Option EntityState) (s : EntityState) :
    settle column held s = stateRow column s ∨ held = some (settle column held s) := by
  unfold settle
  cases held with
  | none => exact .inl rfl
  | some existing =>
    dsimp only
    split_ifs
    · exact .inl rfl
    · exact .inr rfl

variable (column) in
/-- A row was there before or holds a state that the mutation reports. -/
theorem applyMutation_states_or (db : CrdbGraphStore) (m : GraphMutation) (key : String × String × String) :
    (db.applyMutation column m).states.get key = db.states.get key ∨
      ∃ s ∈ m.states, (db.applyMutation column m).states.get key = some (stateRow column s) := by
  rw [applyMutation_states_get]
  refine (register_eq_or_mem settle_eq_or_held).imp_right ?_
  rintro ⟨s, hs, heq⟩
  exact ⟨s, (List.mem_filter.mp hs).1, heq⟩

end Upserts

/-! ## Queries -/

section Queries
variable (db : CrdbGraphStore)

/-- `load_node_raw`, and the access rule. -/
def getNode (ctx : QueryContext) (nodeId : String) : Option GraphNode :=
  (db.nodes.get (ctx.tenantId, nodeId)).filter fun n => aclAllows ctx n.isPrivate n.allowedGroupIds

def getState (ctx : QueryContext) (nodeId stateKey : String) : Option EntityState :=
  if (db.getNode ctx nodeId).isNone then none
  else
    (db.states.get (ctx.tenantId, nodeId, stateKey)).filter fun s =>
      aclAllows ctx s.isPrivate s.allowedGroupIds

/-- `ORDER BY node_id LIMIT limit`; an id stands in one row of a tenant. -/
def orderByNodeId (rows : List GraphNode) (limit : Nat) : List GraphNode :=
  (rows.insertionSort nodeIdLe).take limit

/-- The rows of a tenant. -/
def nodesOf (tenantId : String) : List GraphNode :=
  db.nodes.values.filter fun n => n.tenantId = tenantId

def loadEdges (tenantId : String) : List GraphEdge :=
  db.edges.values.filter fun e => e.tenantId = tenantId

def listNodesByType (lower : String → String) (ctx : QueryContext) (nodeType : String) (limit : Nat) :
    List GraphNode :=
  let rows := orderByNodeId
    ((db.nodesOf ctx.tenantId).filter fun n => lower n.nodeType = lower nodeType) (clamp 1 500 limit)
  rows.filter fun n => aclAllows ctx n.isPrivate n.allowedGroupIds

def snapshot (now : DateTime) (ctx : QueryContext) (nodeLimit edgeLimit : Nat) :
    List GraphNode × List GraphEdge :=
  let rows := orderByNodeId (db.nodesOf ctx.tenantId) (clamp 1 2000 nodeLimit)
  let nodes := rows.filter fun n => aclAllows ctx n.isPrivate n.allowedGroupIds
  let edges := (db.loadEdges ctx.tenantId).filter fun e =>
    aclAllows ctx e.isPrivate e.allowedGroupIds && activeEdge now e
      && nodes.any (fun n => n.nodeId = e.fromNodeId) && nodes.any (fun n => n.nodeId = e.toNodeId)
  (nodes, (edges.insertionSort edgeIdLe).take (clamp 1 4000 edgeLimit))

end Queries

end CrdbGraphStore

end AiManager.Graph
