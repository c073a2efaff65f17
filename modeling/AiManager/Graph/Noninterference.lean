import AiManager.Graph.Query

/-! # What a query can depend on

Two stores look the same to a person if they have the same visible edges, in the same order, the same
visible nodes and the same visible states. Then every query gives the same answer
(`query_noninterference`): the searches skip a hidden edge before they look at it, and never look up a
node but to see whether it is visible. -/

namespace AiManager.Graph

open Lib

/-- The person sees the same in both stores. -/
structure Agree (ctx : QueryContext) (st st' : InMemoryGraphStore) : Prop where
  edges : (st.allEdges ctx.tenantId).filter (visibleEdge ctx) =
    (st'.allEdges ctx.tenantId).filter (visibleEdge ctx)
  nodes : ∀ n, visibleNode ctx n = true →
    (st.nodes.get n.key = some n ↔ st'.nodes.get n.key = some n)
  states : ∀ s, s.tenantId = ctx.tenantId → visibleState ctx s = true →
    (st.states.get s.key = some s ↔ st'.states.get s.key = some s)

/-! ## The searches skip what is hidden -/

section Skip
variable {ctx : QueryContext} {now : DateTime} {node : String → Option GraphNode} {toId : String}

theorem usableEdge_of_hidden {e : GraphEdge} (h : visibleEdge ctx e = false) :
    usableEdge ctx now e = false := by
  simp [usableEdge, h]

theorem sweepNode_filter (all : List GraphEdge) :
    sweepNode ctx now node (all.filter (visibleEdge ctx)) = sweepNode ctx now node all := by
  funext s nid
  unfold sweepNode
  rw [List.foldl_filter]
  congr 1
  funext s e
  cases h : visibleEdge ctx e with
  | true => simp
  | false => simp [sweepEdge, usableEdge_of_hidden h]

theorem sweep_filter (all : List GraphEdge) (hops : Nat) (s : Sweep) :
    sweep ctx now node (all.filter (visibleEdge ctx)) hops s = sweep ctx now node all hops s := by
  induction hops generalizing s with
  | zero => rfl
  | succ hops ih =>
    simp only [sweep, sweepNode_filter]
    split_ifs
    · rfl
    · exact ih _

theorem scanEdges_filter (cur : String) (d : Nat) (all : List GraphEdge) (s : Search) :
    scanEdges ctx now node toId cur d (all.filter (visibleEdge ctx)) s =
      scanEdges ctx now node toId cur d all s := by
  induction all generalizing s with
  | nil => rfl
  | cons e es ih =>
    cases h : visibleEdge ctx e with
    | true =>
      rw [List.filter_cons_of_pos h]
      simp only [scanEdges, ih]
    | false =>
      have hskip : scanEdges ctx now node toId cur d (e :: es) s =
          scanEdges ctx now node toId cur d es s := by
        simp [scanEdges, usableEdge_of_hidden h]
      rw [List.filter_cons_of_neg (by simp [h]), hskip]
      exact ih s

theorem search_filter (maxHops : Nat) (all : List GraphEdge) (fuel : Nat) (s : Search) :
    search ctx now node toId maxHops (all.filter (visibleEdge ctx)) fuel s =
      search ctx now node toId maxHops all fuel s := by
  induction fuel generalizing s with
  | zero =>
    cases hq : s.queue with
    | nil => rw [search_nil hq, search_nil hq]
    | cons cur rest => rw [search_zero hq, search_zero hq]
  | succ fuel ih =>
    cases hq : s.queue with
    | nil => rw [search_nil hq, search_nil hq]
    | cons cur rest =>
      rw [search_succ hq, search_succ hq]
      simp only [scanEdges_filter, ih]

theorem countP_usable_filter (all : List GraphEdge) :
    (all.filter (visibleEdge ctx)).countP (usableEdge ctx now) =
      all.countP (usableEdge ctx now) := by
  rw [List.countP_filter]
  congr 1
  funext e
  cases h : visibleEdge ctx e <;> simp [usableEdge, h]

/-- A list of edges that are visible, and more, is a list of the visible ones. -/
theorem filter_visible_and (p : GraphEdge → Bool) (all : List GraphEdge) :
    all.filter (fun e => visibleEdge ctx e && p e) =
      (all.filter (visibleEdge ctx)).filter p := by
  rw [List.filter_filter]
  congr 1
  funext e
  exact Bool.and_comm _ _

end Skip

/-! ## Nodes in any order -/

section Agree
variable {st st' : InMemoryGraphStore} {ctx : QueryContext} {now : DateTime}

theorem getNode_eq_some {nodeId : String} {n : GraphNode} :
    st.getNode ctx nodeId = some n ↔
      st.nodes.get (ctx.tenantId, nodeId) = some n ∧ visibleNode ctx n = true := by
  simp [InMemoryGraphStore.getNode, Option.filter_eq_some_iff]

theorem Agree.getNode (h : Agree ctx st st') : st.getNode ctx = st'.getNode ctx := by
  funext nodeId
  ext n
  rw [getNode_eq_some, getNode_eq_some]
  refine and_congr_left fun hvisible => ?_
  constructor
  · intro hget
    have hkey := Table.key_of_get hget
    rw [← hkey] at hget ⊢
    exact (h.nodes n hvisible).mp hget
  · intro hget
    have hkey := Table.key_of_get hget
    rw [← hkey] at hget ⊢
    exact (h.nodes n hvisible).mpr hget

/-- The stored state of a key, if the person may see it. -/
theorem Agree.visibleStates (h : Agree ctx st st') (nodeId stateKey : String) :
    (st.states.get (ctx.tenantId, nodeId, stateKey)).filter (visibleState ctx) =
      (st'.states.get (ctx.tenantId, nodeId, stateKey)).filter (visibleState ctx) := by
  ext s
  simp only [Option.filter_eq_some_iff]
  refine and_congr_left fun hvisible => ?_
  constructor
  · intro hget
    have hkey := Table.key_of_get hget
    have htenant : s.tenantId = ctx.tenantId := (Prod.mk.inj hkey).1
    rw [← hkey] at hget ⊢
    exact (h.states s htenant hvisible).mp hget
  · intro hget
    have hkey := Table.key_of_get hget
    have htenant : s.tenantId = ctx.tenantId := (Prod.mk.inj hkey).1
    rw [← hkey] at hget ⊢
    exact (h.states s htenant hvisible).mpr hget

/-- A state is answered if it is visible, whether or not its node is. -/
theorem getState_eq (st : InMemoryGraphStore) (nodeId stateKey : String) :
    st.getState ctx nodeId stateKey =
      (st.states.get (ctx.tenantId, nodeId, stateKey)).filter (visibleState ctx) := by
  unfold InMemoryGraphStore.getState
  dsimp only
  split_ifs
  · cases hget : st.states.get (ctx.tenantId, nodeId, stateKey) with
    | none => rfl
    | some s =>
      dsimp only
      cases hvisible : visibleState ctx s <;> simp [Option.filter, hvisible]
  · rfl

/-- The visible nodes that pass a test, in the order of a store's map. -/
def visibleNodes (st : InMemoryGraphStore) (ctx : QueryContext) (p : GraphNode → Bool) :
    List GraphNode :=
  st.nodes.values.filter fun n => visibleNode ctx n && p n

theorem mem_visibleNodes {p : GraphNode → Bool} {n : GraphNode} :
    n ∈ visibleNodes st ctx p ↔
      st.nodes.get n.key = some n ∧ visibleNode ctx n = true ∧ p n = true := by
  simp [visibleNodes, List.mem_filter, Table.mem_values]

theorem Agree.visibleNodes_perm (h : Agree ctx st st') (p : GraphNode → Bool) :
    (visibleNodes st ctx p).Perm (visibleNodes st' ctx p) := by
  refine (List.perm_ext_iff_of_nodup (st.nodes.values_nodup.filter _)
    (st'.nodes.values_nodup.filter _)).mpr fun n => ?_
  rw [← visibleNodes, ← visibleNodes, mem_visibleNodes, mem_visibleNodes]
  constructor
  · rintro ⟨hget, hvisible, hp⟩
    exact ⟨(h.nodes n hvisible).mp hget, hvisible, hp⟩
  · rintro ⟨hget, hvisible, hp⟩
    exact ⟨(h.nodes n hvisible).mpr hget, hvisible, hp⟩

/-- Visible nodes are told apart by their ids. -/
theorem eq_of_nodeId {p : GraphNode → Bool} {a b : GraphNode} (ha : a ∈ visibleNodes st ctx p)
    (hb : b ∈ visibleNodes st ctx p) (hid : a.nodeId = b.nodeId) : a = b := by
  obtain ⟨hgeta, hvisa, -⟩ := mem_visibleNodes.mp ha
  obtain ⟨hgetb, hvisb, -⟩ := mem_visibleNodes.mp hb
  simp only [visibleNode, Bool.and_eq_true, decide_eq_true_eq] at hvisa hvisb
  have hkey : a.key = b.key := Prod.ext (hvisa.1.trans hvisb.1.symm) hid
  rw [hkey, hgetb] at hgeta
  exact (Option.some.inj hgeta).symm

theorem Agree.sortById (h : Agree ctx st st') (p : GraphNode → Bool) :
    (visibleNodes st ctx p).insertionSort nodeIdLe =
      (visibleNodes st' ctx p).insertionSort nodeIdLe :=
  insertionSort_congr (h.visibleNodes_perm p) fun _ ha _ hb hab hba =>
    eq_of_nodeId ha hb (String.le_antisymm hab hba)

theorem Agree.sortByRank (h : Agree ctx st st') (p : GraphNode → Bool) :
    (visibleNodes st ctx p).insertionSort (thenBy typeRank nodeIdLe) =
      (visibleNodes st' ctx p).insertionSort (thenBy typeRank nodeIdLe) := by
  refine insertionSort_congr (h.visibleNodes_perm p) ?_
  rintro a ha b hb (hab | ⟨hrank, hab⟩) (hba | ⟨hrank', hba⟩)
  · omega
  · omega
  · omega
  · exact eq_of_nodeId ha hb (String.le_antisymm hab hba)

/-! ## Operation by operation -/

theorem Agree.neighborhood (h : Agree ctx st st') (rootId : String) (hops : Nat) :
    st.neighborhood now ctx rootId hops = st'.neighborhood now ctx rootId hops := by
  have hsweep : ∀ (node : String → Option GraphNode) (n : Nat) (s : Sweep),
      sweep ctx now node (st.allEdges ctx.tenantId) n s =
        sweep ctx now node (st'.allEdges ctx.tenantId) n s := fun node n s => by
    rw [← sweep_filter, h.edges, sweep_filter]
  simp only [InMemoryGraphStore.neighborhood, h.getNode, hsweep]

theorem Agree.pathFuel (h : Agree ctx st st') : st.pathFuel now ctx = st'.pathFuel now ctx := by
  unfold InMemoryGraphStore.pathFuel
  rw [← countP_usable_filter, h.edges, countP_usable_filter]

theorem Agree.path (h : Agree ctx st st') (fromId toId : String) (maxHops : Nat) :
    st.path now ctx fromId toId maxHops = st'.path now ctx fromId toId maxHops := by
  have hsearch : ∀ (node : String → Option GraphNode) (m fuel : Nat) (s : Search),
      search ctx now node toId m (st.allEdges ctx.tenantId) fuel s =
        search ctx now node toId m (st'.allEdges ctx.tenantId) fuel s := fun node m fuel s => by
    rw [← search_filter, h.edges, search_filter]
  simp only [InMemoryGraphStore.path, h.getNode, h.pathFuel, hsearch]

theorem Agree.blockers (h : Agree ctx st st') (forNodeId : String) :
    st.blockers now ctx forNodeId = st'.blockers now ctx forNodeId := by
  simp only [InMemoryGraphStore.blockers, Bool.and_assoc, filter_visible_and, h.edges]

theorem Agree.listEdgesByType (h : Agree ctx st st') (edgeType : String) (limit : Nat) :
    st.listEdgesByType now ctx edgeType limit = st'.listEdgesByType now ctx edgeType limit := by
  simp only [InMemoryGraphStore.listEdgesByType, Bool.and_assoc, filter_visible_and, h.edges]

/-- The nodes that `list_nodes_by_type` sorts. -/
theorem listedNodes_eq (st : InMemoryGraphStore) (nodeType : String) :
    (st.nodes.values.filter fun n => decide (n.tenantId = ctx.tenantId)
        && Text.eqIgnoreAsciiCase n.nodeType nodeType && visibleNode ctx n) =
      visibleNodes st ctx fun n => Text.eqIgnoreAsciiCase n.nodeType nodeType := by
  refine List.filter_congr fun n _ => ?_
  unfold visibleNode
  cases decide (n.tenantId = ctx.tenantId) <;> simp [Bool.and_comm]

/-- The nodes that `snapshot` sorts. -/
theorem snapshotNodes_eq (st : InMemoryGraphStore) :
    (st.nodes.values.filter fun n => decide (n.tenantId = ctx.tenantId) && visibleNode ctx n) =
      visibleNodes st ctx fun _ => true := by
  refine List.filter_congr fun n _ => ?_
  unfold visibleNode
  cases decide (n.tenantId = ctx.tenantId) <;> simp

theorem Agree.listNodesByType (h : Agree ctx st st') (nodeType : String) (limit : Nat) :
    st.listNodesByType ctx nodeType limit = st'.listNodesByType ctx nodeType limit := by
  simp only [InMemoryGraphStore.listNodesByType, listedNodes_eq, h.sortById]

theorem Agree.snapshot (h : Agree ctx st st') (nodeLimit edgeLimit : Nat) :
    st.snapshot now ctx nodeLimit edgeLimit = st'.snapshot now ctx nodeLimit edgeLimit := by
  have hactive : ∀ all : List GraphEdge, all.filter (fun e => visibleEdge ctx e && activeEdge now e) =
      (all.filter (visibleEdge ctx)).filter (activeEdge now) := filter_visible_and _
  simp only [InMemoryGraphStore.snapshot, snapshotNodes_eq, h.sortByRank, hactive, h.edges]

/-- **Queries are noninterfering**: what a person may not see, and what other tenants hold, makes no
difference to any answer. -/
theorem query_noninterference (h : Agree ctx st st') (now : DateTime) :
    (∀ id, st.getNode ctx id = st'.getNode ctx id) ∧
    (∀ id key, st.getState ctx id key = st'.getState ctx id key) ∧
    (∀ root hops, st.neighborhood now ctx root hops = st'.neighborhood now ctx root hops) ∧
    (∀ a b hops, st.path now ctx a b hops = st'.path now ctx a b hops) ∧
    (∀ id, st.blockers now ctx id = st'.blockers now ctx id) ∧
    (∀ t limit, st.listNodesByType ctx t limit = st'.listNodesByType ctx t limit) ∧
    (∀ t limit, st.listEdgesByType now ctx t limit = st'.listEdgesByType now ctx t limit) ∧
    (∀ nl el, st.snapshot now ctx nl el = st'.snapshot now ctx nl el) := by
  refine ⟨fun id => congrFun h.getNode id, ?_, h.neighborhood, h.path, h.blockers,
    h.listNodesByType, h.listEdgesByType, h.snapshot⟩
  intro id key
  rw [getState_eq, getState_eq, h.visibleStates]

end Agree

/-! ## Rows that nobody of the context sees -/

section Hidden
variable {st : InMemoryGraphStore} {ctx : QueryContext}

theorem Agree.refl (ctx : QueryContext) (st : InMemoryGraphStore) : Agree ctx st st :=
  ⟨rfl, fun _ _ => Iff.rfl, fun _ _ _ => Iff.rfl⟩

theorem Agree.trans {st₁ st₂ st₃ : InMemoryGraphStore} (h : Agree ctx st₁ st₂)
    (h' : Agree ctx st₂ st₃) : Agree ctx st₁ st₃ :=
  ⟨h.edges.trans h'.edges, fun n hn => (h.nodes n hn).trans (h'.nodes n hn),
    fun s ht hs => (h.states s ht hs).trans (h'.states s ht hs)⟩

/-- A hidden node is not noticed where no visible one was. -/
theorem agree_insertNode {n : GraphNode} (hhidden : visibleNode ctx n = false)
    (hfree : st.nodes.get n.key = none) : Agree ctx st (st.insertNode n) := by
  refine ⟨rfl, fun m hvisible => ?_, fun _ _ _ => Iff.rfl⟩
  simp only [InMemoryGraphStore.insertNode]
  by_cases hkey : m.key = n.key
  · have hne : n ≠ m := by
      intro hnm
      rw [hnm, hvisible] at hhidden
      exact Bool.noConfusion hhidden
    rw [hkey, hfree, Table.get_put_self]
    simp [hne]
  · rw [Table.get_put_ne _ hkey]

theorem filter_upsertEdge {e : GraphEdge} (hhidden : visibleEdge ctx e = false)
    {edges : List GraphEdge} (hfree : ∀ x ∈ edges, x.edgeId ≠ e.edgeId) :
    (InMemoryGraphStore.upsertEdge e edges).filter (visibleEdge ctx) =
      edges.filter (visibleEdge ctx) := by
  induction edges with
  | nil => simp [InMemoryGraphStore.upsertEdge, hhidden]
  | cons x xs ih =>
    have hx : x.edgeId ≠ e.edgeId := hfree x List.mem_cons_self
    have hxs := ih fun y hy => hfree y (List.mem_cons_of_mem _ hy)
    simp only [InMemoryGraphStore.upsertEdge, if_neg hx, List.filter_cons, hxs]

/-- Nor is a hidden edge of a new id, whoever's it is. -/
theorem agree_insertEdge {e : GraphEdge} (hhidden : visibleEdge ctx e = false)
    (hfree : ∀ x ∈ st.allEdges e.tenantId, x.edgeId ≠ e.edgeId) :
    Agree ctx st (st.insertEdge e) := by
  refine ⟨?_, fun _ _ => Iff.rfl, fun _ _ _ => Iff.rfl⟩
  by_cases htenant : ctx.tenantId = e.tenantId
  · have hall : (st.insertEdge e).allEdges ctx.tenantId =
        InMemoryGraphStore.upsertEdge e (st.allEdges ctx.tenantId) := by
      simp [InMemoryGraphStore.allEdges, InMemoryGraphStore.insertEdge, htenant]
    rw [← htenant] at hfree
    rw [hall, filter_upsertEdge hhidden hfree]
  · simp [InMemoryGraphStore.allEdges, InMemoryGraphStore.insertEdge, KMap.get_put, htenant]

end Hidden

/-- A work item of one tenant, for everybody or for one group. -/
def sampleNode (tenantId nodeId : String) (isPrivate : Bool) : GraphNode :=
  ⟨tenantId, nodeId, "Ticket", nodeId, nodeId, .null, isPrivate, ["grp_hr"], 1⟩

def sampleEdge (tenantId edgeId : String) (isPrivate : Bool) : GraphEdge :=
  ⟨tenantId, edgeId, "BLOCKS", "t1", "t2", 0, none, "ev1", .null, isPrivate, ["grp_hr"], 1⟩

/-- An engineer, not of the group. -/
def sampleReader : QueryContext := ⟨"acme", "usr_ann", ["grp_eng"]⟩

def sampleStore : InMemoryGraphStore :=
  ((InMemoryGraphStore.new.insertNode (sampleNode "acme" "t1" false)).insertNode
    (sampleNode "acme" "t2" false)).insertEdge (sampleEdge "acme" "e1" false)

/-- The same with a private node, a private edge and another tenant's edge. -/
def crowdedStore : InMemoryGraphStore :=
  ((sampleStore.insertNode (sampleNode "acme" "t3" true)).insertEdge
    (sampleEdge "acme" "e2" true)).insertEdge (sampleEdge "globex" "e3" false)

theorem crowdedStore_agrees : Agree sampleReader sampleStore crowdedStore :=
  ((agree_insertNode (by decide) (by decide)).trans
    (agree_insertEdge (by decide) (by decide))).trans
    (agree_insertEdge (by decide) (by decide))

theorem crowd_unnoticed :
    (∀ id, sampleStore.getNode sampleReader id = crowdedStore.getNode sampleReader id) ∧
    (∀ id key, sampleStore.getState sampleReader id key =
      crowdedStore.getState sampleReader id key) ∧
    (∀ root hops, sampleStore.neighborhood 5 sampleReader root hops =
      crowdedStore.neighborhood 5 sampleReader root hops) ∧
    (∀ a b hops, sampleStore.path 5 sampleReader a b hops =
      crowdedStore.path 5 sampleReader a b hops) ∧
    (∀ id, sampleStore.blockers 5 sampleReader id = crowdedStore.blockers 5 sampleReader id) ∧
    (∀ t limit, sampleStore.listNodesByType sampleReader t limit =
      crowdedStore.listNodesByType sampleReader t limit) ∧
    (∀ t limit, sampleStore.listEdgesByType 5 sampleReader t limit =
      crowdedStore.listEdgesByType 5 sampleReader t limit) ∧
    (∀ nl el, sampleStore.snapshot 5 sampleReader nl el =
      crowdedStore.snapshot 5 sampleReader nl el) :=
  query_noninterference crowdedStore_agrees 5

end AiManager.Graph
