import AiManager.Graph.Store
import AiManager.Lib.Lock

/-! # Locking in the embedded graph store

`applyMutation` again, this time with every lock the call takes. Each map of the store is sharded
and each shard has a lock: a lookup holds the shard shared as long as its reference lives, an insert
or an entry takes it exclusively, an iteration takes the shards one by one, shared.

The merge of entity states is where this matters. Its `match` is on a lookup, and the arms treat the
reference differently: the first drops it at its end, the second explicitly before the insert, and
the catch-all arm does not bind it, so that it lives to the end of the `match`, around the insert. -/

namespace AiManager.Graph

open Lib

/-- The locks of a store. -/
inductive StoreLock where
  | applied (shard : ℕ)
  | nodes (shard : ℕ)
  | edges (shard : ℕ)
  /-- The lock inside the entry of a tenant. -/
  | edgeList (tenantId : String)
  | states (shard : ℕ)
  | persistPath
  deriving DecidableEq

/-- How the four maps of a store spread their keys. -/
structure StoreShards where
  applied : Sharding (String × String)
  nodes : Sharding (String × String)
  edges : Sharding String
  states : Sharding (String × String × String)

abbrev StoreTask (α : Type) := Task StoreLock InMemoryGraphStore α

/-- The outside of a persist: the clock, and how writing the file ends. -/
structure PersistIo where
  now : DateTime
  write : String → GraphPersistSnapshot → GraphResult Unit

namespace StoreLocks

open Task
variable (sh : StoreShards) (io : PersistIo)

def insertNode (n : GraphNode) : StoreTask Unit :=
  held (.nodes (sh.nodes.shard n.key)) .exclusive (change fun st => st.insertNode n)

/-- `entry(tenant).or_insert_with(..)` and the list's own lock live to the end of the loop body. -/
def insertEdge (e : GraphEdge) : StoreTask Unit :=
  held (.edges (sh.edges.shard e.tenantId)) .exclusive
    (held (.edgeList e.tenantId) .exclusive (change fun st => st.insertEdge e))

/-- `self.states.insert(key, s)`. -/
def insertState (s : EntityState) : StoreTask Unit :=
  held (.states (sh.states.shard s.key)) .exclusive (change fun st => st.insertState s)

def mergeState (s : EntityState) : StoreTask Unit := do
  let lock := StoreLock.states (sh.states.shard s.key)
  -- `match self.states.get(&key)`: a `Some` carries the guard, a `None` has dropped it
  acquire lock .shared
  match ← look fun st => st.states.get s.key with
  | none =>
    release lock .shared
    insertState sh s
  | some existing =>
    if existing.asOf > s.asOf then
      -- `existing` is moved into the arm and dropped at its end
      release lock .shared
    else if InMemoryGraphStore.ties existing s then
      if InMemoryGraphStore.prio s.stateValue ≥ InMemoryGraphStore.prio existing.stateValue then
        release lock .shared
        insertState sh s
      else
        release lock .shared
    else
      -- the catch-all arm: the scrutinee's guard outlives the insert
      insertState sh s
      release lock .shared

/-! ## Persisting -/

def exportSnapshot : StoreTask GraphPersistSnapshot := do
  let nodes ← iterShards .nodes sh.nodes.count fun i =>
    look fun st => st.nodes.values.filter fun n => sh.nodes.shard n.key = i
  let edges ← iterShards .edges sh.edges.count fun i => do
    let tenants ← look fun st => (st.edges.items.map Prod.fst).filter fun t => sh.edges.shard t = i
    collect (fun t => held (.edgeList t) .shared (look fun st => (st.edges.get t).getD [])) tenants
  let states ← iterShards .states sh.states.count fun i =>
    look fun st => st.states.values.filter fun s => sh.states.shard s.key = i
  let applied ← iterShards .applied sh.applied.count fun i =>
    look fun st => (st.applied.items.map Prod.fst).filter fun k => sh.applied.shard k = i
  return { version := 1, savedAt := some (DateTime.toRfc3339 io.now), nodes, edges, states, applied }

def saveToPath (path : String) : StoreTask (GraphResult Unit) := do
  let snap ← exportSnapshot sh io
  match io.write path snap with
  | .error e => return .error e
  | .ok () =>
    change fun st => { st with dirty := 0 }
    return .ok ()

/-- A failed save is logged, not returned. -/
def forcePersist : StoreTask Unit := do
  match ← held .persistPath .shared (look fun st => st.persistPath) with
  | none => return ()
  | some path =>
    let _ ← saveToPath sh io path
    return ()

def maybePersist : StoreTask Unit := do
  change fun st => { st with dirty := st.dirty + 1 }
  forcePersist sh io

def applyMutation (m : GraphMutation) : StoreTask Unit := do
  m.nodes.forM (insertNode sh)
  m.edges.forM (insertEdge sh)
  m.states.forM (mergeState sh)
  maybePersist sh io

/-! ## The quiet parts

Everything but the merge of states takes its locks one after the other, from no guards to no
guards. -/

section Upserts

theorem insertNode_eq (n : GraphNode) (st : InMemoryGraphStore) :
    insertNode sh n ([], st) = .ok ((), ([], st.insertNode n)) :=
  held_ok (excludes_nil _ _) (change_apply _ _ _)

theorem insertEdge_eq (e : GraphEdge) (st : InMemoryGraphStore) :
    insertEdge sh e ([], st) = .ok ((), ([], st.insertEdge e)) := by
  refine held_ok (excludes_nil _ _) (held_ok ?_ (change_apply _ _ _))
  rw [excludes_cons_of_ne (by simp), excludes_nil]

theorem insertState_eq (s : EntityState) (st : InMemoryGraphStore) :
    insertState sh s ([], st) = .ok ((), ([], st.insertState s)) :=
  held_ok (excludes_nil _ _) (change_apply _ _ _)

end Upserts

section Quiet
variable {I : InMemoryGraphStore → Prop}

theorem quiet_exportSnapshot : Quiet I [] (exportSnapshot sh io) := by
  have hrows : ∀ {α : Type} (lock : ℕ → StoreLock) (count : ℕ)
      (f : ℕ → InMemoryGraphStore → List α),
      Quiet I [] (iterShards lock count fun i => look (f i)) := fun lock count f =>
    quiet_iterShards (fun _ _ => excludes_nil _ _) fun i _ => quiet_look (f i)
  unfold exportSnapshot
  refine quiet_bind (hrows _ _ _) fun nodes => quiet_bind ?_ fun edges =>
    quiet_bind (hrows _ _ _) fun states => quiet_bind (hrows _ _ _) fun applied => quiet_pure _
  -- the edges are read under two guards, of the shard and of the tenant's list
  refine quiet_iterShards (fun _ _ => excludes_nil _ _) fun i _ => ?_
  refine quiet_bind (quiet_look _) fun tenants => quiet_collect fun t _ => ?_
  refine quiet_held ?_ (quiet_look _)
  rw [excludes_cons_of_ne (by simp), excludes_nil]

theorem quiet_maybePersist (h : ∀ st d, I st → I { st with dirty := d }) :
    Quiet I [] (maybePersist sh io) := by
  refine quiet_bind (quiet_change fun st => h st _) fun _ => ?_
  refine quiet_bind (quiet_held (excludes_nil _ _) (quiet_look _)) fun path => ?_
  cases path with
  | none => exact quiet_pure ()
  | some path =>
    refine quiet_bind (quiet_bind (quiet_exportSnapshot sh io) fun snap => ?_) fun _ => quiet_pure ()
    cases io.write path snap with
    | error e => exact quiet_pure _
    | ok u => exact quiet_bind (quiet_change fun st => h st _) fun _ => quiet_pure _

end Quiet

/-! ## The merge of states -/

/-- The arm that `s` takes does not insert under the reference: the key is free, the stored state
is strictly newer, or both are of one time, from different events and with different values. -/
def Unguarded (existing : Option EntityState) (s : EntityState) : Prop :=
  ∀ e ∈ existing, e.asOf > s.asOf ∨ InMemoryGraphStore.ties e s = true

instance (existing : Option EntityState) (s : EntityState) : Decidable (Unguarded existing s) := by
  unfold Unguarded; infer_instance

theorem mergeState_eq (s : EntityState) (st : InMemoryGraphStore) :
    mergeState sh s ([], st) =
      if Unguarded (st.states.get s.key) s then .ok ((), ([], st.mergeState s))
      else .error (.states (sh.states.shard s.key), .exclusive) := by
  unfold mergeState InMemoryGraphStore.mergeState Unguarded
  rw [bind_ok (acquire_free (excludes_nil _ _) st), bind_ok (look_apply _ _ _)]
  cases hget : st.states.get s.key with
  | none =>
    dsimp only
    rw [bind_ok (release_apply _ _ _ _)]
    simpa using insertState_eq sh s st
  | some existing =>
    dsimp only
    by_cases hnewer : existing.asOf > s.asOf
    · simp [hnewer]
    · by_cases htie : InMemoryGraphStore.ties existing s = true
      · by_cases hprio : InMemoryGraphStore.prio s.stateValue ≥
            InMemoryGraphStore.prio existing.stateValue
        · simp only [hnewer, htie, hprio, if_true, if_false]
          rw [bind_ok (release_apply _ _ _ _)]
          simpa [htie] using insertState_eq sh s st
        · simp [hnewer, htie, hprio]
      · -- the insert asks for the shard that the lookup still holds
        have hself : Guards.excludes [(StoreLock.states (sh.states.shard s.key), Mode.shared)]
            (.states (sh.states.shard s.key)) .exclusive = true := by simp [excludes_cons]
        have hblock : insertState sh s ([(.states (sh.states.shard s.key), .shared)], st) =
            .error (.states (sh.states.shard s.key), .exclusive) := held_blocked hself st
        simp only [hnewer, htie, if_false, Bool.false_eq_true]
        rw [bind_error hblock]
        simp [hnewer, htie]

/-- What a key holds after the states `earlier` of that key arrived one after the other. -/
def heldAfter (stored : Option EntityState) (earlier : List EntityState) : Option EntityState :=
  earlier.foldl (fun held s => some (InMemoryGraphStore.settle held s)) stored

/-- Whether every state of the list arrives at a key where its arm inserts without a reference. -/
def UnguardedAll (st : InMemoryGraphStore) (states : List EntityState) : Prop :=
  ∀ pre s post, states = pre ++ s :: post →
    Unguarded (heldAfter (st.states.get s.key) (pre.filter fun e => e.key = s.key)) s

theorem heldAfter_merge (st : InMemoryGraphStore) (s : EntityState) (pre : List EntityState)
    (k : String × String × String) :
    heldAfter ((st.mergeState s).states.get k) (pre.filter fun e => e.key = k) =
      heldAfter (st.states.get k) ((s :: pre).filter fun e => e.key = k) := by
  by_cases hk : s.key = k
  · subst hk
    rw [InMemoryGraphStore.mergeState_get_self]
    simp [heldAfter]
  · rw [InMemoryGraphStore.mergeState_get_ne st (Ne.symm hk)]
    simp [heldAfter, hk]

theorem unguardedAll_cons {st : InMemoryGraphStore} {s : EntityState} {ss : List EntityState} :
    UnguardedAll st (s :: ss) ↔
      Unguarded (st.states.get s.key) s ∧ UnguardedAll (st.mergeState s) ss := by
  constructor
  · intro h
    refine ⟨h [] s ss rfl, fun pre t post heq => ?_⟩
    rw [heldAfter_merge]
    exact h (s :: pre) t post (by rw [heq]; rfl)
  · rintro ⟨hs, hss⟩ pre t post heq
    cases pre with
    | nil =>
      obtain ⟨rfl, rfl⟩ := List.cons.inj heq
      exact hs
    | cons u pre =>
      obtain ⟨rfl, heq'⟩ := List.cons.inj heq
      rw [← heldAfter_merge]
      exact hss pre t post heq'

/-- The loop over the states completes exactly when none of them blocks, and then it is the plain
merge. -/
theorem mergeStates_eq (ss : List EntityState) (st : InMemoryGraphStore) :
    (UnguardedAll st ss →
      ss.forM (mergeState sh) ([], st) =
        .ok ((), ([], ss.foldl InMemoryGraphStore.mergeState st))) ∧
    (¬ UnguardedAll st ss → ∃ e, ss.forM (mergeState sh) ([], st) = .error e) := by
  induction ss generalizing st with
  | nil =>
    refine ⟨fun _ => rfl, fun h => absurd ?_ h⟩
    intro pre s post heq
    cases pre <;> cases heq
  | cons s ss ih =>
    rw [unguardedAll_cons, forM_cons]
    by_cases hs : Unguarded (st.states.get s.key) s
    · have hstep : mergeState sh s ([], st) = .ok ((), ([], st.mergeState s)) := by
        rw [mergeState_eq sh, if_pos hs]
      rw [bind_ok hstep]
      exact ⟨fun h => (ih _).1 h.2, fun h => (ih _).2 fun hss => h ⟨hs, hss⟩⟩
    · have hstep := mergeState_eq sh s st
      rw [if_neg hs] at hstep
      exact ⟨fun h => absurd h.1 hs, fun _ => ⟨_, bind_error hstep⟩⟩

/-! ## The whole call -/

/-- The state in which the loop over the states starts. -/
private def upserted (m : GraphMutation) (st : InMemoryGraphStore) : InMemoryGraphStore :=
  m.edges.foldl InMemoryGraphStore.insertEdge (m.nodes.foldl InMemoryGraphStore.insertNode st)

private theorem upserted_states (m : GraphMutation) (st : InMemoryGraphStore) :
    (upserted m st).states = st.states := by
  unfold upserted
  rw [foldl_keeps InMemoryGraphStore.insertEdge InMemoryGraphStore.states fun _ _ => rfl,
    foldl_keeps InMemoryGraphStore.insertNode InMemoryGraphStore.states fun _ _ => rfl]

private theorem applyMutation_split (m : GraphMutation) (st : InMemoryGraphStore) :
    applyMutation sh io m ([], st) =
      (m.states.forM (mergeState sh) >>= fun _ => maybePersist sh io) ([], upserted m st) := by
  unfold applyMutation upserted
  rw [bind_ok (forM_foldl (insertNode_eq sh) m.nodes st), bind_ok (forM_foldl (insertEdge_eq sh) m.edges _)]

/-- **Completion.** The call returns exactly when no state of the mutation meets, under its key, a
stored state that it would replace from the catch-all arm. -/
theorem applyMutation_completes_iff (m : GraphMutation) (st : InMemoryGraphStore) :
    (applyMutation sh io m).Completes st ↔ UnguardedAll st m.states := by
  have hcond : UnguardedAll (upserted m st) m.states ↔ UnguardedAll st m.states := by
    unfold UnguardedAll
    rw [upserted_states]
  rw [← hcond]
  unfold Completes
  rw [applyMutation_split]
  constructor
  · rintro ⟨a, p, h⟩
    by_contra hno
    obtain ⟨e, he⟩ := (mergeStates_eq sh m.states (upserted m st)).2 hno
    rw [bind_error he] at h
    cases h
  · intro hall
    rw [bind_ok ((mergeStates_eq sh m.states (upserted m st)).1 hall)]
    obtain ⟨a, s', h, -⟩ :=
      quiet_maybePersist sh io (I := fun _ => True) (fun _ _ _ => trivial) _ trivial
    exact ⟨a, _, h⟩

/-- An `OPEN` state of one entity, and a store with one shard a map that holds it. -/
def openState : EntityState where
  tenantId := "t"
  nodeId := "pr:1"
  stateKey := "lifecycle"
  stateValue := "OPEN"
  asOf := 10
  eventId := "e1"
  isPrivate := false
  allowedGroupIds := []

def oneShard {K : Type} : Sharding K := ⟨1, fun _ => 0, fun _ => Nat.one_pos⟩

/-- The event that is stored, applied again, and a newer event of the same entity: both block. -/
theorem applyMutation_blocks :
    let sh : StoreShards := ⟨oneShard, oneShard, oneShard, oneShard⟩
    let io : PersistIo := ⟨0, fun _ _ => .ok ()⟩
    let st := InMemoryGraphStore.new.insertState openState
    ¬ (applyMutation sh io { states := [openState] }).Completes st ∧
    ¬ (applyMutation sh io
        { states := [{ openState with stateValue := "MERGED", asOf := 20, eventId := "e2" }] }).Completes
        st := by
  decide

/-- A call that returns has done what the plain maps say, and counted a write. -/
theorem applyMutation_data {m : GraphMutation} {st : InMemoryGraphStore}
    {p : Guards StoreLock × InMemoryGraphStore}
    (h : applyMutation sh io m ([], st) = .ok ((), p)) :
    ∃ d, p = ([], { st.applyMutation m with dirty := d }) := by
  rw [applyMutation_split] at h
  by_cases hall : UnguardedAll (upserted m st) m.states
  · rw [bind_ok ((mergeStates_eq sh m.states (upserted m st)).1 hall)] at h
    obtain ⟨a, s', h', d, hd⟩ := quiet_maybePersist sh io
      (I := fun st' => ∃ d, st' = { st.applyMutation m with dirty := d })
      (by rintro _ d ⟨_, rfl⟩; exact ⟨d, rfl⟩) (st.applyMutation m) ⟨_, rfl⟩
    change maybePersist sh io ([], st.applyMutation m) = _ at h
    rw [h'] at h
    cases h
    exact ⟨d, by rw [hd]⟩
  · obtain ⟨e, he⟩ := (mergeStates_eq sh m.states (upserted m st)).2 hall
    rw [bind_error he] at h
    cases h

end StoreLocks

/-! ## What a call leaves

A call that is blocked for good, by the reference of its own lookup or by one that another call never gives back, has
inserted its nodes and edges by then and merged some of its states. -/

/-- The part of a mutation that a call carries out that gets to so many of its states. -/
def GraphMutation.upTo (m : GraphMutation) (n : ℕ) : GraphMutation := { m with states := m.states.take n }

/-- What a call on the embedded store may leave there. -/
inductive Applies (sh : StoreShards) (io : PersistIo) (st : InMemoryGraphStore) (m : GraphMutation) :
    InMemoryGraphStore → Prop
  | returns {g : Guards StoreLock} {st' : InMemoryGraphStore}
      (h : StoreLocks.applyMutation sh io m ([], st) = .ok ((), g, st')) : Applies sh io st m st'
  | blocked (n : ℕ) : Applies sh io st m (st.applyMutation (m.upTo n))

/-- Either way it is what the plain maps say of a part of the mutation, but for the count of writes. -/
theorem Applies.exists_upTo {sh : StoreShards} {io : PersistIo} {st st' : InMemoryGraphStore} {m : GraphMutation}
    (h : Applies sh io st m st') : ∃ n d, st' = { st.applyMutation (m.upTo n) with dirty := d } := by
  cases h with
  | returns h =>
    obtain ⟨d, hd⟩ := StoreLocks.applyMutation_data sh io h
    refine ⟨m.states.length, d, ?_⟩
    rw [GraphMutation.upTo, List.take_length]
    exact (Prod.mk.inj hd).2
  | blocked n => exact ⟨n, (st.applyMutation (m.upTo n)).dirty, rfl⟩

end AiManager.Graph
