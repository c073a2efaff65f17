import AiManager.Graph.Model
import AiManager.Lib.KMap
import AiManager.Lib.Run

/-! # The embedded graph store

`InMemoryGraphStore` with its concurrent maps read as plain maps: what its operations do to the
data. How they lock is the subject of `StoreLocks`. -/

namespace AiManager.Graph

open Lib

structure InMemoryGraphStore where
  applied : KMap (String × String) Unit
  nodes : Table GraphNode.key
  /-- tenant → edges -/
  edges : KMap String (List GraphEdge)
  states : Table EntityState.key
  persistPath : Option String
  dirty : Nat

structure GraphPersistSnapshot where
  version : Nat
  savedAt : Option String
  nodes : List GraphNode
  edges : List GraphEdge
  states : List EntityState
  /-- (tenant, event) -/
  applied : List (String × String)

namespace InMemoryGraphStore

def new : InMemoryGraphStore := ⟨∅, ∅, ∅, ∅, none, 0⟩

/-! ## Idempotency marks -/

/-- The mark is set and the answer is whether it is new. -/
def markEventApplied (st : InMemoryGraphStore) (tenantId eventId : String) :
    Bool × InMemoryGraphStore :=
  if st.applied.has (tenantId, eventId) then (false, st)
  else (true, { st with applied := st.applied.put (tenantId, eventId) () })

/-! ## Mutations -/

def insertNode (st : InMemoryGraphStore) (n : GraphNode) : InMemoryGraphStore :=
  { st with nodes := st.nodes.put n }

/-- Replace the edge with this id in place, or append it. -/
def upsertEdge (e : GraphEdge) : List GraphEdge → List GraphEdge
  | [] => [e]
  | x :: xs => if x.edgeId = e.edgeId then e :: xs else x :: upsertEdge e xs

def insertEdge (st : InMemoryGraphStore) (e : GraphEdge) : InMemoryGraphStore :=
  { st with edges := st.edges.put e.tenantId (upsertEdge e ((st.edges.get e.tenantId).getD [])) }

def insertState (st : InMemoryGraphStore) (s : EntityState) : InMemoryGraphStore :=
  { st with states := st.states.put s }

/-- Priority of a lifecycle value among states of one time. -/
def prio (value : String) : Nat :=
  match value with
  | "MERGED" => 3
  | "CLOSED" => 2
  | "OPEN" => 1
  | _ => 0

/-- Two events of one time that disagree about the value. -/
def ties (existing s : EntityState) : Bool :=
  decide (existing.asOf = s.asOf) && decide (existing.eventId ≠ s.eventId)
    && decide (existing.stateValue ≠ s.stateValue)

/-- The state kept for a key that holds `held` when `s` arrives. -/
def settle (held : Option EntityState) (s : EntityState) : EntityState :=
  match held with
  | none => s
  | some existing =>
    if existing.asOf > s.asOf then existing
    else if ties existing s then
      if prio s.stateValue ≥ prio existing.stateValue then s else existing
    else s

def mergeState (st : InMemoryGraphStore) (s : EntityState) : InMemoryGraphStore :=
  match st.states.get s.key with
  | none => st.insertState s
  | some existing =>
    -- older event — ignore
    if existing.asOf > s.asOf then st
    else if ties existing s then
      if prio s.stateValue ≥ prio existing.stateValue then st.insertState s else st
    else st.insertState s

def applyMutation (st : InMemoryGraphStore) (m : GraphMutation) : InMemoryGraphStore :=
  m.states.foldl mergeState (m.edges.foldl insertEdge (m.nodes.foldl insertNode st))

/-! ## What a mutation leaves alone -/

@[simp] theorem insertNode_states (st : InMemoryGraphStore) (n : GraphNode) :
    (st.insertNode n).states = st.states := rfl

@[simp] theorem insertEdge_states (st : InMemoryGraphStore) (e : GraphEdge) :
    (st.insertEdge e).states = st.states := rfl

@[simp] theorem insertState_states (st : InMemoryGraphStore) (s : EntityState) :
    (st.insertState s).states = st.states.put s := rfl

/-- Mutations do not mark events. -/
@[simp] theorem applyMutation_applied (st : InMemoryGraphStore) (m : GraphMutation) :
    (st.applyMutation m).applied = st.applied := by
  have hstate : ∀ (st : InMemoryGraphStore) (s : EntityState), (st.mergeState s).applied = st.applied := by
    intro st s
    unfold mergeState
    split
    · rfl
    · split_ifs <;> rfl
  unfold applyMutation
  rw [foldl_keeps mergeState applied hstate, foldl_keeps insertEdge applied fun _ _ => rfl,
    foldl_keeps insertNode applied fun _ _ => rfl]

/-- A merged state is filed where it belongs, and holds what `settle` says. -/
theorem mergeState_get_self (st : InMemoryGraphStore) (s : EntityState) :
    (st.mergeState s).states.get s.key = some (settle (st.states.get s.key) s) := by
  unfold mergeState settle
  cases h : st.states.get s.key with
  | none => simp
  | some existing =>
    dsimp only
    split_ifs <;> simp [h]

theorem mergeState_get_ne (st : InMemoryGraphStore) {s : EntityState} {k : String × String × String}
    (hk : k ≠ s.key) : (st.mergeState s).states.get k = st.states.get k := by
  unfold mergeState
  split
  · exact Table.get_put_ne _ hk
  · split_ifs <;> first | rfl | exact Table.get_put_ne _ hk

/-- A merge reads nothing but the stored state of its key. -/
theorem mergeState_get_congr {st st' : InMemoryGraphStore}
    (h : ∀ k, st.states.get k = st'.states.get k) (s : EntityState) (k : String × String × String) :
    (st.mergeState s).states.get k = (st'.mergeState s).states.get k := by
  by_cases hk : k = s.key
  · subst hk
    rw [mergeState_get_self, mergeState_get_self, h]
  · rw [mergeState_get_ne st hk, mergeState_get_ne st' hk, h]

end InMemoryGraphStore

end AiManager.Graph
