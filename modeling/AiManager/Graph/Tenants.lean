import AiManager.Graph.MapEvent
import AiManager.Graph.ProjectAll
import AiManager.Graph.Replay
import AiManager.Graph.SnapshotView
import AiManager.Graph.StoreLocks

/-! # Tenants are apart

The graph API serves many tenants from one process over the embedded store. Whatever records and membership requests of
other tenants are answered in between, every handler answers the readers of a tenant as if the tenant were alone
(`tenant_alone`), counts and flags included. A record whose call on the store blocks is never answered, and keeps a
shard of the states locked that it shares with other tenants; runs with such a record are left out. -/

namespace AiManager.Graph

open Lib

/-! ## The other read handlers -/

namespace AppState
variable (st : AppState) (tenantId userId : String)

def getNode (nodeId : String) : Except (Nat × String) GraphNode :=
  match st.store.getNode (st.ctxFor tenantId userId) nodeId with
  | some n => .ok n
  | none => .error (404, "not found or acl denied")

/-- Nodes and edges of the tenant, whoever may see them. -/
def stats : Nat × Nat := (st.store.countNodes tenantId, st.store.countEdges tenantId)

end AppState

/-! ## Requests that write -/

/-- A record of the topics, or a change of a user's groups. -/
inductive ApiWrite where
  | project (p : V1BusPayload)
  | seedUser (tenantId globalUserId : String) (groups : List String)
  | addGroup (tenantId userId groupId : String)
  | removeGroup (tenantId userId groupId : String)

def ApiWrite.tenant : ApiWrite → String
  | .project p => p.key.1
  | .seedUser tenantId _ _ => tenantId
  | .addGroup tenantId _ _ => tenantId
  | .removeGroup tenantId _ _ => tenantId

def AppState.write (isAlphanumeric : Char → Bool) (st : AppState) : ApiWrite → AppState
  | .project p =>
    let out := (AiManager.Graph.project (mapEvent isAlphanumeric) p ⟨st.store, st.membership, []⟩).2
    { st with store := out.graph, membership := out.membership }
  | .seedUser tenantId globalUserId groups =>
    { st with membership := st.membership.setGroups tenantId globalUserId groups }
  | .addGroup tenantId userId groupId => { st with membership := st.membership.addGroup tenantId userId groupId }
  | .removeGroup tenantId userId groupId => { st with membership := st.membership.removeGroup tenantId userId groupId }

/-- What a request leaves when it is answered. A record that is new and maps to rows is answered once the call on the
store returns. -/
inductive AppState.Answers (sh : StoreShards) (io : PersistIo) (isAlphanumeric : Char → Bool) (st : AppState) :
    ApiWrite → AppState → Prop
  | applied {p : V1BusPayload} {m : GraphMutation} {g : Guards StoreLock} {store : InMemoryGraphStore}
      (hnew : st.store.applied.has p.key = false) (hm : p.mutation (mapEvent isAlphanumeric) = some m)
      (hcall : StoreLocks.applyMutation sh io m ([], st.store.insertApplied p.key) = .ok ((), g, store)) :
      Answers sh io isAlphanumeric st (.project p) { st.write isAlphanumeric (.project p) with store }
  | settled {w : ApiWrite} (h : ∀ p, w = .project p → st.store.applied.has p.key = true ∨
      p.mutation (mapEvent isAlphanumeric) = none) : Answers sh io isAlphanumeric st w (st.write isAlphanumeric w)

inductive AppState.AnswersAll (sh : StoreShards) (io : PersistIo) (isAlphanumeric : Char → Bool) :
    AppState → List ApiWrite → AppState → Prop
  | nil (st : AppState) : AnswersAll sh io isAlphanumeric st [] st
  | cons {st st' st'' : AppState} {w : ApiWrite} {ws : List ApiWrite} (h : st.Answers sh io isAlphanumeric w st')
      (hrest : AnswersAll sh io isAlphanumeric st' ws st'') : AnswersAll sh io isAlphanumeric st (w :: ws) st''

/-! ## What a tenant has -/

/-- The states hold the same of a tenant. -/
structure TenantAlike (tenantId : String) (st st' : AppState) : Prop where
  applied : ∀ eventId, st.store.applied.has (tenantId, eventId) = st'.store.applied.has (tenantId, eventId)
  nodes : ∀ nodeId, st.store.nodes.get (tenantId, nodeId) = st'.store.nodes.get (tenantId, nodeId)
  edges : st.store.allEdges tenantId = st'.store.allEdges tenantId
  states : ∀ nodeId stateKey,
    st.store.states.get (tenantId, nodeId, stateKey) = st'.store.states.get (tenantId, nodeId, stateKey)
  groups : ∀ userId, st.membership.getGroups tenantId userId = st'.membership.getGroups tenantId userId
  maxHops : st.maxHops = st'.maxHops
  defaultHops : st.defaultHops = st'.defaultHops

theorem TenantAlike.refl (tenantId : String) (st : AppState) : TenantAlike tenantId st st :=
  ⟨fun _ => rfl, fun _ => rfl, rfl, fun _ _ => rfl, fun _ => rfl, rfl, rfl⟩

theorem TenantAlike.symm {tenantId : String} {st st' : AppState} (h : TenantAlike tenantId st st') :
    TenantAlike tenantId st' st :=
  ⟨fun e => (h.applied e).symm, fun n => (h.nodes n).symm, h.edges.symm, fun n k => (h.states n k).symm,
    fun u => (h.groups u).symm, h.maxHops.symm, h.defaultHops.symm⟩

/-- Other memberships, in which the tenant's users have the same groups. -/
theorem TenantAlike.regroup {tenantId : String} {st st' : AppState} (h : TenantAlike tenantId st st')
    {membership membership' : InMemoryMembership}
    (hgroups : ∀ u, membership.getGroups tenantId u = membership'.getGroups tenantId u) :
    TenantAlike tenantId { st with membership := membership } { st' with membership := membership' } :=
  ⟨h.applied, h.nodes, h.edges, h.states, hgroups, h.maxHops, h.defaultHops⟩

theorem TenantAlike.trans {tenantId : String} {st₁ st₂ st₃ : AppState} (h : TenantAlike tenantId st₁ st₂)
    (h' : TenantAlike tenantId st₂ st₃) : TenantAlike tenantId st₁ st₃ :=
  ⟨fun e => (h.applied e).trans (h'.applied e), fun n => (h.nodes n).trans (h'.nodes n), h.edges.trans h'.edges,
    fun n k => (h.states n k).trans (h'.states n k), fun u => (h.groups u).trans (h'.groups u),
    h.maxHops.trans h'.maxHops, h.defaultHops.trans h'.defaultHops⟩

/-! ### Mutations -/

/-- All rows of the mutation are of one tenant. -/
structure GraphMutation.OfTenant (tenantId : String) (m : GraphMutation) : Prop where
  nodes : ∀ n ∈ m.nodes, n.tenantId = tenantId
  edges : ∀ e ∈ m.edges, e.tenantId = tenantId
  states : ∀ s ∈ m.states, s.tenantId = tenantId

theorem graphMutation_ofTenant (isAlphanumeric : Char → Bool) (p : V1BusPayload) :
    (p.graphMutation (mapEvent isAlphanumeric)).OfTenant p.key.1 := by
  cases p with
  | acl rev => exact ⟨fun _ h => (nomatch h), fun _ h => (nomatch h), fun _ h => (nomatch h)⟩
  | event ev =>
    refine ⟨fun n hn => ?_, fun e he => ?_, fun s hs => ?_⟩
    · have hnode : NodeOf ev n := GraphMutation.Of.mapEvent.nodes n hn
      cases hnode with
      | own nodeId nodeType displayName resourceId properties hname => rfl
      | shared h nodeId displayName resourceId properties => rfl
    · have hedge : EdgeOf ev e := GraphMutation.Of.mapEvent.edges e he
      cases hedge with
      | own edgeId edgeType fromNodeId toNodeId properties => rfl
    · obtain ⟨-, nodeId, stateKey, stateValue, rfl⟩ := of_mem_mapEvent_states hs
      rfl

namespace InMemoryGraphStore
variable {st st' : InMemoryGraphStore} {m : GraphMutation} {tenantId : String}

theorem allEdges_applyMutation (st : InMemoryGraphStore) (m : GraphMutation) (tenantId : String) :
    (st.applyMutation m).allEdges tenantId =
      (m.edges.filter fun e => e.tenantId = tenantId).foldl (fun es e => upsertEdge e es) (st.allEdges tenantId) := by
  have hstates : ∀ st s, (mergeState st s).allEdges tenantId = st.allEdges tenantId := by
    intro st s
    unfold allEdges
    rw [(mergeState_frame st s).2.2]
  have hnodes : (m.nodes.foldl insertNode st).allEdges tenantId = st.allEdges tenantId :=
    foldl_keeps insertNode (allEdges · tenantId) (fun _ _ => rfl) _ st
  unfold applyMutation
  rw [foldl_keeps mergeState (allEdges · tenantId) hstates, ← hnodes]
  generalize m.nodes.foldl insertNode st = st
  induction m.edges generalizing st with
  | nil => rfl
  | cons e es ih =>
    rw [List.foldl_cons, ih, allEdges_insertEdge]
    by_cases htenant : e.tenantId = tenantId
    · rw [if_pos htenant.symm, List.filter_cons_of_pos (by simp [htenant]), List.foldl_cons]
    · rw [if_neg (Ne.symm htenant), List.filter_cons_of_neg (by simp [htenant])]

end InMemoryGraphStore

/-! ### Requests -/

section Write
variable {isAlphanumeric : Char → Bool} {st st' : AppState} {tenantId : String} {p : V1BusPayload}

variable (isAlphanumeric) in
/-- What a record that was not seen before does. -/
theorem write_new (hnew : st.store.applied.has p.key = false) :
    (st.write isAlphanumeric (.project p)).store =
        (st.store.insertApplied p.key).applyMutation (p.graphMutation (mapEvent isAlphanumeric)) ∧
      (st.write isAlphanumeric (.project p)).membership =
        match p.change with
        | some c => st.membership.changed c.tenantId c.globalUserId c.groupId c.changeType
        | none => st.membership := by
  obtain ⟨hgraph, hmembership⟩ := project_new (mapEvent isAlphanumeric) (p := p) (s := ⟨st.store, st.membership, []⟩) hnew
  exact ⟨hgraph, hmembership.trans (afterChange_membership _)⟩

theorem write_old (hold : st.store.applied.has p.key = true) : st.write isAlphanumeric (.project p) = st := by
  have hsame : project (mapEvent isAlphanumeric) p ⟨st.store, st.membership, []⟩ =
      (.ok (duplicateOutcome p), ⟨st.store, st.membership, []⟩) := project_duplicate hold
  unfold AppState.write
  dsimp only
  rw [hsame]

/-- The membership change of a record is of the record's tenant. -/
theorem tenant_of_change {c : MembershipChange} (hc : p.change = some c) : c.tenantId = p.key.1 := by
  cases p with
  | event ev =>
    have hevent : changeOfEvent ev = some c := hc
    unfold changeOfEvent membershipFromIdentityEvent at hevent
    dsimp only at hevent
    split_ifs at hevent
    all_goals
      obtain ⟨change, -, rfl⟩ := Option.map_eq_some_iff.mp hevent
      rfl
  | acl rev =>
    have hrevocation : changeOfRevocation rev = some c := hc
    unfold changeOfRevocation at hrevocation
    split_ifs at hrevocation
    cases hrevocation
    rfl

/-- A change of another tenant leaves the groups alone. -/
theorem getGroups_changed_other {memb : InMemoryMembership} {c : MembershipChange} (hc : c.tenantId ≠ tenantId)
    (u : String) : (memb.changed c.tenantId c.globalUserId c.groupId c.changeType).getGroups tenantId u =
      memb.getGroups tenantId u := by
  rw [InMemoryMembership.getGroups_changed, if_neg]
  rintro ⟨hkey, -⟩
  exact hc (Prod.mk.inj hkey).1.symm

/-- The rows of a mutation of another tenant are under other keys. -/
theorem alike_applyMutation_other {store : InMemoryGraphStore} {m : GraphMutation} {other : String}
    (hm : m.OfTenant other) (hne : other ≠ tenantId) (hstore : st.store = store.applyMutation m)
    (happlied : ∀ eventId, store.applied.has (tenantId, eventId) = st'.store.applied.has (tenantId, eventId))
    (hnodes : store.nodes = st'.store.nodes) (hedges : store.edges = st'.store.edges)
    (hstates : store.states = st'.store.states)
    (hgroups : ∀ u, st.membership.getGroups tenantId u = st'.membership.getGroups tenantId u)
    (hmax : st.maxHops = st'.maxHops) (hdefault : st.defaultHops = st'.defaultHops) :
    TenantAlike tenantId st st' := by
  refine ⟨fun eventId => ?_, fun nodeId => ?_, ?_, fun nodeId stateKey => ?_, hgroups, hmax, hdefault⟩
  · rw [hstore, InMemoryGraphStore.applyMutation_applied]
    exact happlied eventId
  · have hnone : m.nodesAt (tenantId, nodeId) = [] := List.filter_eq_nil_iff.mpr fun n hn hkey =>
      hne ((hm.nodes n hn).symm.trans (Prod.mk.inj (of_decide_eq_true hkey)).1)
    rw [hstore, InMemoryGraphStore.applyMutation_nodes, hnone, register_nil, hnodes]
  · have hnone : (m.edges.filter fun e => e.tenantId = tenantId) = [] := List.filter_eq_nil_iff.mpr fun e he htenant =>
      hne ((hm.edges e he).symm.trans (of_decide_eq_true htenant))
    rw [hstore, InMemoryGraphStore.allEdges_applyMutation, hnone, List.foldl_nil]
    unfold InMemoryGraphStore.allEdges
    rw [hedges]
  · have hnone : m.statesAt (tenantId, nodeId, stateKey) = [] := List.filter_eq_nil_iff.mpr fun s hs hkey =>
      hne ((hm.states s hs).symm.trans (Prod.mk.inj (of_decide_eq_true hkey)).1)
    rw [hstore, InMemoryGraphStore.applyMutation_states, hnone, register_nil, hstates]

/-- **Another tenant's request** leaves what the tenant has alone. -/
theorem write_other {w : ApiWrite} (hw : w.tenant ≠ tenantId) :
    TenantAlike tenantId (st.write isAlphanumeric w) st := by
  cases w with
  | project p =>
    cases hseen : st.store.applied.has p.key with
    | true =>
      rw [write_old hseen]
      exact .refl tenantId st
    | false =>
      obtain ⟨hstore, hmembership⟩ := write_new isAlphanumeric hseen
      refine alike_applyMutation_other (graphMutation_ofTenant isAlphanumeric p) hw hstore (fun eventId => ?_) rfl rfl
        rfl (fun u => ?_) rfl rfl
      · have hne : (tenantId, eventId) ≠ p.key := fun h => hw (congrArg Prod.fst h).symm
        show (st.store.applied.put p.key ()).has _ = _
        rw [KMap.has, KMap.get_put_ne _ _ hne, ← KMap.has]
      · rw [hmembership]
        cases hchange : p.change with
        | none => rfl
        | some c => exact getGroups_changed_other ((tenant_of_change hchange).trans_ne hw) u
  | seedUser t u groups =>
    refine (TenantAlike.refl tenantId st).regroup fun u' => ?_
    exact (InMemoryMembership.getGroups_setGroups _ _).trans (if_neg fun h => hw (Prod.mk.inj h).1.symm)
  | addGroup t u g =>
    refine (TenantAlike.refl tenantId st).regroup fun u' => ?_
    exact (InMemoryMembership.getGroups_addGroup _ _).trans (if_neg fun h => hw (Prod.mk.inj h).1.symm)
  | removeGroup t u g =>
    refine (TenantAlike.refl tenantId st).regroup fun u' => ?_
    exact (InMemoryMembership.getGroups_removeGroup _ _).trans (if_neg fun h => hw (Prod.mk.inj h).1.symm)

/-- **The tenant's own request** does the same to states that hold the same of the tenant. -/
theorem TenantAlike.write (h : TenantAlike tenantId st st') {w : ApiWrite} (hw : w.tenant = tenantId) :
    TenantAlike tenantId (st.write isAlphanumeric w) (st'.write isAlphanumeric w) := by
  cases w with
  | project p =>
    have hkey : p.key = (tenantId, p.key.2) := Prod.ext hw rfl
    cases hseen : st.store.applied.has p.key with
    | true =>
      have hseen' : st'.store.applied.has p.key = true := by rw [hkey, ← h.applied, ← hkey, hseen]
      rw [write_old hseen, write_old hseen']
      exact h
    | false =>
      have hseen' : st'.store.applied.has p.key = false := by rw [hkey, ← h.applied, ← hkey, hseen]
      obtain ⟨hstore, hmembership⟩ := write_new isAlphanumeric hseen
      obtain ⟨hstore', hmembership'⟩ := write_new isAlphanumeric hseen'
      refine ⟨fun eventId => ?_, fun nodeId => ?_, ?_, fun nodeId stateKey => ?_, fun u => ?_, h.maxHops, h.defaultHops⟩
      · rw [hstore, hstore', InMemoryGraphStore.applyMutation_applied, InMemoryGraphStore.applyMutation_applied]
        show (st.store.applied.put p.key ()).has _ = (st'.store.applied.put p.key ()).has _
        have happlied := h.applied eventId
        unfold KMap.has at happlied ⊢
        rw [KMap.get_put, KMap.get_put]
        split_ifs
        · rfl
        · exact happlied
      · rw [hstore, hstore', InMemoryGraphStore.applyMutation_nodes, InMemoryGraphStore.applyMutation_nodes]
        exact congrArg (register _ · _) (h.nodes nodeId)
      · rw [hstore, hstore', InMemoryGraphStore.allEdges_applyMutation, InMemoryGraphStore.allEdges_applyMutation]
        exact congrArg (List.foldl (fun es e => InMemoryGraphStore.upsertEdge e es) · _) h.edges
      · rw [hstore, hstore', InMemoryGraphStore.applyMutation_states, InMemoryGraphStore.applyMutation_states]
        exact congrArg (register _ · _) (h.states nodeId stateKey)
      · rw [hmembership, hmembership']
        cases hchange : p.change with
        | none => exact h.groups u
        | some c =>
          dsimp only
          rw [InMemoryMembership.getGroups_changed, InMemoryMembership.getGroups_changed, h.groups]
  | seedUser t u groups =>
    refine h.regroup fun u' => ?_
    rw [InMemoryMembership.getGroups_setGroups, InMemoryMembership.getGroups_setGroups, h.groups]
  | addGroup t u g =>
    refine h.regroup fun u' => ?_
    rw [InMemoryMembership.getGroups_addGroup, InMemoryMembership.getGroups_addGroup, h.groups]
  | removeGroup t u g =>
    refine h.regroup fun u' => ?_
    rw [InMemoryMembership.getGroups_removeGroup, InMemoryMembership.getGroups_removeGroup, h.groups]

/-! ### Answers -/

section Answers
variable {sh : StoreShards} {io : PersistIo} {st₂ : AppState} {w : ApiWrite}

theorem graphMutation_of_mutation {mapEvent : V1CanonicalEvent → GraphMutation} {m : GraphMutation}
    (h : p.mutation mapEvent = some m) : p.graphMutation mapEvent = m := by
  cases p with
  | acl rev => cases h
  | event ev =>
    unfold V1BusPayload.mutation at h
    dsimp only at h
    split_ifs at h
    exact Option.some.inj h

/-- A request that is answered has done what the plain maps say. -/
theorem AppState.Answers.alike (h : st.Answers sh io isAlphanumeric w st') :
    TenantAlike tenantId st' (st.write isAlphanumeric w) := by
  cases h with
  | settled h => exact .refl tenantId _
  | @applied p m g store hnew hm hcall =>
    obtain ⟨hstore, -⟩ := write_new isAlphanumeric hnew
    obtain ⟨d, hd⟩ := StoreLocks.applyMutation_data sh io hcall
    obtain ⟨-, rfl⟩ := Prod.mk.inj hd
    have hm' : p.graphMutation (mapEvent isAlphanumeric) = m := graphMutation_of_mutation hm
    rw [hm'] at hstore
    refine ⟨fun _ => ?_, fun _ => ?_, ?_, fun _ _ => ?_, fun _ => rfl, rfl, rfl⟩
    case refine_3 => unfold InMemoryGraphStore.allEdges; rw [hstore]
    all_goals rw [hstore]

/-- A request of the tenant that is answered is answered where the store holds the same of the tenant. -/
theorem TenantAlike.answers (h : TenantAlike tenantId st st₂) (hw : w.tenant = tenantId)
    (hst : st.Answers sh io isAlphanumeric w st') : ∃ st₂', st₂.Answers sh io isAlphanumeric w st₂' := by
  have hseen : ∀ p : V1BusPayload, p.key.1 = tenantId → st₂.store.applied.has p.key = st.store.applied.has p.key := by
    intro p hp
    have hkey : p.key = (tenantId, p.key.2) := Prod.ext hp rfl
    rw [hkey, h.applied]
  cases hst with
  | settled hsettled =>
    refine ⟨_, .settled fun p hp => ?_⟩
    subst hp
    rw [hseen p hw]
    exact hsettled p rfl
  | @applied p m g store hnew hm hcall =>
    have hfree := (StoreLocks.applyMutation_completes_iff sh io m _).mp ⟨(), _, hcall⟩
    have hof := graphMutation_ofTenant isAlphanumeric p
    rw [graphMutation_of_mutation hm] at hof
    have hreturns : (StoreLocks.applyMutation sh io m).Completes (st₂.store.insertApplied p.key) := by
      refine (StoreLocks.applyMutation_completes_iff sh io m _).mpr fun pre s post hs => ?_
      have hmem : s ∈ m.states := hs ▸ List.mem_append_right _ List.mem_cons_self
      have hkey : s.key = (tenantId, s.nodeId, s.stateKey) := Prod.ext ((hof.states s hmem).trans hw) rfl
      have hstored : (st₂.store.insertApplied p.key).states.get s.key =
          (st.store.insertApplied p.key).states.get s.key := by
        rw [hkey]
        exact (h.states s.nodeId s.stateKey).symm
      rw [hstored]
      exact hfree pre s post hs
    obtain ⟨_, ⟨g₂, store₂⟩, hcall₂⟩ := hreturns
    exact ⟨_, .applied ((hseen p hw).trans hnew) hm hcall₂⟩

/-- **A run** that is answered leaves the tenant what its own requests leave, which are answered, too. -/
theorem TenantAlike.run {ws : List ApiWrite} (hrun : AppState.AnswersAll sh io isAlphanumeric st ws st')
    (h : TenantAlike tenantId st st₂) :
    ∃ own, AppState.AnswersAll sh io isAlphanumeric st₂ (ws.filter fun w => w.tenant = tenantId) own ∧
      TenantAlike tenantId st' own := by
  induction hrun generalizing st₂ with
  | nil st => exact ⟨st₂, .nil st₂, h⟩
  | @cons st st' st'' w ws hst hrest ih =>
    by_cases hw : w.tenant = tenantId
    · rw [List.filter_cons_of_pos (by simp [hw])]
      obtain ⟨st₂', hst₂⟩ := h.answers hw hst
      obtain ⟨own, hown, halike⟩ := ih ((hst.alike.trans (h.write hw)).trans hst₂.alike.symm)
      exact ⟨own, .cons hst₂ hown, halike⟩
    · rw [List.filter_cons_of_neg (by simp [hw])]
      exact ih ((hst.alike.trans (write_other hw)).trans h)

end Answers

end Write

/-! ## Answers -/

section Read
variable {st st' : AppState} {tenantId : String} {now : DateTime}

theorem TenantAlike.ctxFor (h : TenantAlike tenantId st st') (userId : String) :
    st.ctxFor tenantId userId = st'.ctxFor tenantId userId := by
  unfold AppState.ctxFor
  rw [h.groups]

theorem TenantAlike.agree (h : TenantAlike tenantId st st') (userId : String) :
    Agree (st.ctxFor tenantId userId) st.store st'.store := by
  refine ⟨congrArg _ h.edges, fun n hvisible => ?_, fun s htenant _ => ?_⟩
  · rw [visibleNode, Bool.and_eq_true] at hvisible
    have htenant : n.tenantId = tenantId := of_decide_eq_true hvisible.1
    have hkey : n.key = (tenantId, n.nodeId) := Prod.ext htenant rfl
    rw [hkey, h.nodes]
  · have hkey : s.key = (tenantId, s.nodeId, s.stateKey) := Prod.ext htenant rfl
    rw [hkey, h.states]

theorem TenantAlike.stats (h : TenantAlike tenantId st st') : st.stats tenantId = st'.stats tenantId := by
  have hperm : (st.store.nodes.values.filter fun n => n.tenantId = tenantId).Perm
      (st'.store.nodes.values.filter fun n => n.tenantId = tenantId) := by
    refine (List.perm_ext_iff_of_nodup ((Table.values_nodup _).filter _) ((Table.values_nodup _).filter _)).mpr
      fun n => ?_
    rw [List.mem_filter, List.mem_filter, Table.mem_values, Table.mem_values]
    refine and_congr_left fun htenant => ?_
    have hkey : n.key = (tenantId, n.nodeId) := Prod.ext (of_decide_eq_true htenant) rfl
    rw [hkey, h.nodes]
  unfold AppState.stats InMemoryGraphStore.countNodes InMemoryGraphStore.countEdges
  rw [hperm.length_eq, h.edges]

theorem TenantAlike.graphSnapshot (h : TenantAlike tenantId st st') (order : HashOrder) (userId : String)
    (nodeLimit edgeLimit : Option Nat) (includeDemo : Option Bool) :
    st.graphSnapshot order now tenantId userId nodeLimit edgeLimit includeDemo =
      st'.graphSnapshot order now tenantId userId nodeLimit edgeLimit includeDemo := by
  have hrows : st.snapshotRows now tenantId userId nodeLimit edgeLimit =
      st'.snapshotRows now tenantId userId nodeLimit edgeLimit := by
    unfold AppState.snapshotRows
    rw [(h.agree userId).snapshot, h.ctxFor]
  obtain ⟨hnodes, hedges⟩ := Prod.mk.inj h.stats
  unfold AppState.graphSnapshot
  rw [hrows, hnodes, hedges]

end Read

end AiManager.Graph
