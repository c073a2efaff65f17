import AiManager.Graph.Api
import AiManager.Graph.MapEvent
import AiManager.Graph.Noninterference
import AiManager.Graph.Replay
import AiManager.Graph.WalksAgree

/-! # The graph API over either store

The handlers ask the store for neighborhoods, blockers and states, and do not know which store it is. Behind them
stands the embedded store, where a call may be blocked for good (`StoreLocks`), or the production store, which returns
the rows of a tenant in any order. After a history of records either holds nothing but rows of their events
(`ReadsAfter.rowsOf`). -/

namespace AiManager.Graph

open Lib

/-! ## Reads -/

/-- The reads of a store that the handlers make, and the rows that their answers come from. -/
structure StoreReads where
  nodeRow : String × String → Option GraphNode
  stateRow : String × String × String → Option EntityState
  neighborhood : DateTime → QueryContext → String → ℕ → GraphResult Neighborhood
  blockers : DateTime → QueryContext → String → List GraphEdge
  getState : QueryContext → String → String → Option EntityState
  of_neighborhood : ∀ {now ctx rootId hops nb}, neighborhood now ctx rootId hops = .ok nb →
    ∀ n, n = nb.root ∨ n ∈ nb.nodes → nodeRow (ctx.tenantId, n.nodeId) = some n
  of_getState : ∀ {ctx nodeId stateKey s}, getState ctx nodeId stateKey = some s →
    stateRow (ctx.tenantId, nodeId, stateKey) = some s
  key_of_stateRow : ∀ {key s}, stateRow key = some s → s.key = key

section Walk
variable {ctx : QueryContext} {now : DateTime} {node : String → Option GraphNode} {all : List GraphEdge} {s : Sweep}

variable (ctx now all) in
/-- A walk takes down what the reader sees. -/
theorem Sweep.Tidy.sweep (hnode : ∀ id n, node id = some n → n.nodeId = id) (h : s.Tidy node) (hops : ℕ) :
    (Graph.sweep ctx now node all hops s).Tidy node := by
  induction hops generalizing s with
  | zero => exact h
  | succ hops ih =>
    have hround : (s.next.foldl (sweepNode ctx now node all) { s with next := [] }).Tidy node := by
      rw [foldl_sweepNode hnode]
      have hclear : Sweep.Tidy node { s with next := [] } := ⟨h.nodes, h.ids, h.once⟩
      refine hclear.foldl_record fun x hx => ?_
      obtain ⟨_, _, _, _, id, _, hid⟩ := mem_finds.mp hx
      rw [hnode id x.2 hid, hid]
    unfold Graph.sweep
    dsimp only
    split_ifs
    · exact hround
    · exact ih hround

theorem tidy_root {rootId : String} {root : GraphNode} (hnode : ∀ id n, node id = some n → n.nodeId = id)
    (hroot : node rootId = some root) : Sweep.Tidy node ⟨[rootId], [root], [], [rootId]⟩ := by
  have hid := hnode rootId root hroot
  refine ⟨fun n hn => ?_, ?_, List.nodup_singleton _⟩
  · rw [List.mem_singleton.mp hn, hid, hroot]
  · rw [List.map_singleton, hid]
    rfl

end Walk

theorem InMemoryGraphStore.of_neighborhood {st : InMemoryGraphStore} {now : DateTime} {ctx : QueryContext}
    {rootId : String} {hops : ℕ} {nb : Neighborhood} (h : st.neighborhood now ctx rootId hops = .ok nb)
    (n : GraphNode) (hn : n = nb.root ∨ n ∈ nb.nodes) : st.nodes.get (ctx.tenantId, n.nodeId) = some n := by
  have hnode : ∀ id n, st.getNode ctx id = some n → n.nodeId = id := fun _ _ => nodeId_of_getNode
  unfold neighborhood at h
  cases hroot : st.getNode ctx rootId with
  | none =>
    rw [hroot] at h
    cases h
  | some root =>
    rw [hroot] at h
    obtain rfl := Except.ok.inj h
    have htidy := (tidy_root hnode hroot).sweep ctx now (st.allEdges ctx.tenantId) hnode (clamp 1 6 hops)
    have hget : st.getNode ctx n.nodeId = some n := by
      rcases hn with rfl | hn
      · rw [hnode rootId _ hroot]
        exact hroot
      · exact htidy.nodes n hn
    exact (Option.filter_eq_some_iff.mp hget).1

namespace CrdbGraphStore
variable {db : CrdbGraphStore} {now : DateTime} {ctx : QueryContext}

theorem nodeId_of_getNode {id : String} {n : GraphNode} (h : db.getNode ctx id = some n) : n.nodeId = id := by
  obtain ⟨hget, -⟩ := Option.filter_eq_some_iff.mp h
  have hkey : n.key = (ctx.tenantId, id) := Table.key_of_get hget
  exact (Prod.mk.inj hkey).2

theorem of_neighborhood {rows : List GraphEdge} {rootId : String} {hops : ℕ} {nb : Neighborhood}
    (h : db.neighborhood now ctx rows rootId hops = .ok nb) (n : GraphNode) (hn : n = nb.root ∨ n ∈ nb.nodes) :
    db.nodes.get (ctx.tenantId, n.nodeId) = some n := by
  have hnode : ∀ id n, db.getNode ctx id = some n → n.nodeId = id := fun _ _ => nodeId_of_getNode
  unfold neighborhood at h
  cases hroot : db.getNode ctx rootId with
  | none =>
    rw [hroot] at h
    cases h
  | some root =>
    rw [hroot] at h
    obtain rfl := Except.ok.inj h
    have htidy := (tidy_root hnode hroot).sweep ctx now rows hnode (clamp 1 6 hops)
    have hget : db.getNode ctx n.nodeId = some n := by
      rcases hn with rfl | hn
      · rw [hnode rootId _ hroot]
        exact hroot
      · exact htidy.nodes n hn
    exact (Option.filter_eq_some_iff.mp hget).1

theorem of_getState {nodeId stateKey : String} {s : EntityState} (h : db.getState ctx nodeId stateKey = some s) :
    db.states.get (ctx.tenantId, nodeId, stateKey) = some s := by
  unfold getState at h
  split_ifs at h
  exact (Option.filter_eq_some_iff.mp h).1

end CrdbGraphStore

namespace StoreReads

def embedded (st : InMemoryGraphStore) : StoreReads where
  nodeRow := st.nodes.get
  stateRow := st.states.get
  neighborhood := st.neighborhood
  blockers := st.blockers
  getState := st.getState
  of_neighborhood := InMemoryGraphStore.of_neighborhood
  of_getState h := by
    rw [getState_eq] at h
    exact (Option.filter_eq_some_iff.mp h).1
  key_of_stateRow := Table.key_of_get

/-- Every call loads the rows of its tenant in an order of its own. -/
def production (db : CrdbGraphStore) (rows : DateTime → QueryContext → List GraphEdge) : StoreReads where
  nodeRow := db.nodes.get
  stateRow := db.states.get
  neighborhood now ctx := db.neighborhood now ctx (rows now ctx)
  blockers now ctx := CrdbGraphStore.blockers now ctx (rows now ctx)
  getState := db.getState
  of_neighborhood := CrdbGraphStore.of_neighborhood
  of_getState := CrdbGraphStore.of_getState
  key_of_stateRow := Table.key_of_get

end StoreReads

/-! ## Handlers -/

/-- The handlers' state: a store, and the groups of a user of a tenant. -/
structure Server where
  store : StoreReads
  groups : String → String → List String
  maxHops : ℕ
  defaultHops : ℕ

namespace Server
variable (sv : Server)

def ctxFor (tenantId userId : String) : QueryContext := ⟨tenantId, userId, sv.groups tenantId userId⟩

def neighborhood (now : DateTime) (tenantId userId nodeId : String) (hops : Option ℕ) : GraphResult Neighborhood :=
  sv.store.neighborhood now (sv.ctxFor tenantId userId) nodeId (min (hops.getD sv.defaultHops) sv.maxHops)

def stateQuery (tenantId userId nodeId : String) (stateKey : Option String) : GraphResult (Option EntityState) :=
  .ok (sv.store.getState (sv.ctxFor tenantId userId) (stateNodeId nodeId) (stateKey.getD "lifecycle"))

def blockers (now : DateTime) (tenantId userId nodeId : String) : GraphResult (List GraphEdge) :=
  .ok (sv.store.blockers now (sv.ctxFor tenantId userId) nodeId)

end Server

/-! ## After a history -/

section History
variable (mapEvent : V1CanonicalEvent → GraphMutation)

/-- The embedded store after these records, whether or not the calls on it return. -/
inductive EmbeddedRun (sh : StoreShards) (io : PersistIo) : List V1BusPayload → InMemoryGraphStore → Prop
  | start : EmbeddedRun sh io [] .new
  | duplicate {ps : List V1BusPayload} {p : V1BusPayload} {st : InMemoryGraphStore} (h : EmbeddedRun sh io ps st)
      (hold : st.applied.has p.key = true) : EmbeddedRun sh io (ps ++ [p]) st
  | project {ps : List V1BusPayload} {p : V1BusPayload} {st st' : InMemoryGraphStore} (h : EmbeddedRun sh io ps st)
      (hnew : st.applied.has p.key = false)
      (hcall : Applies sh io (st.insertApplied p.key) (p.graphMutation mapEvent) st') :
      EmbeddedRun sh io (ps ++ [p]) st'

/-- The production store after a record. -/
def projectCrdb (column : DateTime → DateTime) (db : CrdbGraphStore) (p : V1BusPayload) : CrdbGraphStore :=
  match db.markEventApplied p.key.1 p.key.2 with
  | (false, db) => db
  | (true, db) => db.applyMutation column (p.graphMutation mapEvent)

/-- What the handlers may read after these records. -/
inductive ReadsAfter (ps : List V1BusPayload) : StoreReads → Prop
  | embedded {sh : StoreShards} {io : PersistIo} {st : InMemoryGraphStore} (h : EmbeddedRun mapEvent sh io ps st) :
      ReadsAfter ps (.embedded st)
  | production (column : DateTime → DateTime) (rows : DateTime → QueryContext → List GraphEdge)
      (hrows : ∀ now ctx, (ps.foldl (projectCrdb mapEvent column) .new).Loads ctx.tenantId (rows now ctx)) :
      ReadsAfter ps (.production (ps.foldl (projectCrdb mapEvent column) .new) rows)

variable {mapEvent}

/-- The rows are rows of these records' events, but for the time of a state, which a column may cut. -/
structure RowsOf (mapEvent : V1CanonicalEvent → GraphMutation) (ps : List V1BusPayload)
    (nodeRow : String × String → Option GraphNode) (stateRow : String × String × String → Option EntityState) :
    Prop where
  node : ∀ key n, nodeRow key = some n → ∃ p ∈ ps, n ∈ (p.graphMutation mapEvent).nodes
  state : ∀ key s, stateRow key = some s → ∃ p ∈ ps, ∃ t ∈ (p.graphMutation mapEvent).states,
    s = { t with asOf := s.asOf }

section RowsOf
variable {ps : List V1BusPayload} {p : V1BusPayload} {nodeRow nodeRow' : String × String → Option GraphNode}
  {stateRow stateRow' : String × String × String → Option EntityState}

/-- A record adds rows of its event. -/
theorem RowsOf.concat (h : RowsOf mapEvent ps nodeRow stateRow)
    (hnode : ∀ key, nodeRow' key = nodeRow key ∨ ∃ n ∈ (p.graphMutation mapEvent).nodes, nodeRow' key = some n)
    (hstate : ∀ key, stateRow' key = stateRow key ∨ ∃ t ∈ (p.graphMutation mapEvent).states, ∃ asOf,
      stateRow' key = some { t with asOf := asOf }) : RowsOf mapEvent (ps ++ [p]) nodeRow' stateRow' := by
  have hlast : p ∈ ps ++ [p] := List.mem_append_right _ (List.mem_singleton_self p)
  refine ⟨fun key n hn => ?_, fun key s hs => ?_⟩
  · rcases hnode key with hkept | ⟨n', hn', hwritten⟩
    · rw [hkept] at hn
      obtain ⟨q, hq, hmem⟩ := h.node key n hn
      exact ⟨q, List.mem_append_left _ hq, hmem⟩
    · rw [hwritten] at hn
      obtain rfl := Option.some.inj hn
      exact ⟨p, hlast, hn'⟩
  · rcases hstate key with hkept | ⟨t, ht, asOf, hwritten⟩
    · rw [hkept] at hs
      obtain ⟨q, hq, hmem⟩ := h.state key s hs
      exact ⟨q, List.mem_append_left _ hq, hmem⟩
    · rw [hwritten] at hs
      obtain rfl := Option.some.inj hs
      exact ⟨p, hlast, t, ht, rfl⟩

/-- What a register of last writes holds. -/
theorem last_or {α : Type} {held : Option α} {xs : List α} : register (fun _ x => x) held xs = held ∨
    ∃ x ∈ xs, register (fun _ x => x) held xs = some x :=
  register_eq_or_mem fun _ _ => .inl rfl

theorem EmbeddedRun.rowsOf {sh : StoreShards} {io : PersistIo} {st : InMemoryGraphStore}
    (h : EmbeddedRun mapEvent sh io ps st) : RowsOf mapEvent ps st.nodes.get st.states.get := by
  induction h with
  | start =>
    refine ⟨fun key n hn => ?_, fun key s hs => ?_⟩
    · rw [InMemoryGraphStore.new, Table.get_empty] at hn
      cases hn
    · rw [InMemoryGraphStore.new, Table.get_empty] at hs
      cases hs
  | duplicate h hold ih => exact ih.concat (fun _ => .inl rfl) fun _ => .inl rfl
  | @project ps p st st' h hnew hcall ih =>
    obtain ⟨n, d, rfl⟩ := hcall.exists_upTo
    refine ih.concat (fun key => ?_) fun key => ?_
    · have hwrites := InMemoryGraphStore.applyMutation_nodes (st.insertApplied p.key)
        ((p.graphMutation mapEvent).upTo n) key
      refine last_or.imp (fun hkept => hwrites.trans hkept) ?_
      rintro ⟨x, hx, hwritten⟩
      exact ⟨x, (List.mem_filter.mp hx).1, hwrites.trans hwritten⟩
    · refine (InMemoryGraphStore.applyMutation_states_or (st.insertApplied p.key)
        ((p.graphMutation mapEvent).upTo n) key).imp_right ?_
      rintro ⟨t, ht, hwritten⟩
      exact ⟨t, List.mem_of_mem_take ht, t.asOf, hwritten⟩

theorem rowsOf_crdb (column : DateTime → DateTime) (ps : List V1BusPayload) :
    RowsOf mapEvent ps (ps.foldl (projectCrdb mapEvent column) .new).nodes.get
      (ps.foldl (projectCrdb mapEvent column) .new).states.get := by
  induction ps using List.reverseRecOn with
  | nil =>
    refine ⟨fun key n hn => ?_, fun key s hs => ?_⟩
    · rw [List.foldl_nil, CrdbGraphStore.new, Table.get_empty] at hn
      cases hn
    · rw [List.foldl_nil, CrdbGraphStore.new, Table.get_empty] at hs
      cases hs
  | append_singleton ps p ih =>
    rw [List.foldl_append, List.foldl_cons, List.foldl_nil]
    generalize ps.foldl (projectCrdb mapEvent column) .new = db at ih ⊢
    unfold projectCrdb CrdbGraphStore.markEventApplied
    split_ifs
    · exact ih.concat (fun _ => .inl rfl) fun _ => .inl rfl
    · refine ih.concat (fun key => ?_) fun key => ?_
      · have hwrites := applyMutation_nodes_get column
          { db with applied := db.applied.put (p.key.1, p.key.2) () } (p.graphMutation mapEvent) key
        refine last_or.imp (fun hkept => hwrites.trans hkept) ?_
        rintro ⟨x, hx, hwritten⟩
        exact ⟨x, (List.mem_filter.mp hx).1, hwrites.trans hwritten⟩
      · refine (CrdbGraphStore.applyMutation_states_or column
          { db with applied := db.applied.put (p.key.1, p.key.2) () } (p.graphMutation mapEvent) key).imp_right ?_
        rintro ⟨t, ht, hwritten⟩
        exact ⟨t, ht, column t.asOf, hwritten⟩

theorem ReadsAfter.rowsOf {reads : StoreReads} (h : ReadsAfter mapEvent ps reads) :
    RowsOf mapEvent ps reads.nodeRow reads.stateRow := by
  cases h with
  | embedded h => exact h.rowsOf
  | production column rows hrows => exact rowsOf_crdb column ps

end RowsOf

end History

end AiManager.Graph
