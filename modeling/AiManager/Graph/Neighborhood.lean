import AiManager.Graph.Endpoints
import AiManager.Graph.Snapshots
import AiManager.Lib.Levels

/-! # The nodes around a root

A walk outwards from a root goes level by level through the graph of the edges that a person sees, with both their
ends. It finds the nodes within its hops, and the edges at the nodes that it has expanded, each of them once
(`neighborhood_exact`). -/

namespace AiManager.Graph

open Lib

/-! ## What is in sight -/

/-- The nodes that a person sees, joined where an edge may appear, whichever way it leads. -/
def sightGraph (st : InMemoryGraphStore) (ctx : QueryContext) (now : DateTime) : SimpleGraph String :=
  SimpleGraph.fromRel fun a b =>
    ∃ e ∈ st.allEdges ctx.tenantId, Closed st ctx now e ∧ e.fromNodeId = a ∧ e.toNodeId = b

/-- What is in sight within the hops from the root, each node and each edge once. -/
structure Neighborhood.Exact (st : InMemoryGraphStore) (ctx : QueryContext) (now : DateTime) (nb : Neighborhood) :
    Prop where
  nodes : ∀ n, n ∈ nb.nodes ↔
    st.getNode ctx n.nodeId = some n ∧ (sightGraph st ctx now).edist nb.root.nodeId n.nodeId ≤ nb.hops
  nodesOnce : (nb.nodes.map GraphNode.nodeId).Nodup
  edges : ∀ e, e ∈ nb.edges ↔ e ∈ st.allEdges ctx.tenantId ∧ Closed st ctx now e ∧
    ((sightGraph st ctx now).edist nb.root.nodeId e.fromNodeId ≤ (nb.hops - 1 : ℕ) ∨
      (sightGraph st ctx now).edist nb.root.nodeId e.toNodeId ≤ (nb.hops - 1 : ℕ))
  edgesOnce : (nb.edges.map GraphEdge.edgeId).Nodup

theorem otherEnd_eq_some_iff {e : GraphEdge} {a b : String} :
    otherEnd e a = some b ↔ (e.fromNodeId = a ∧ e.toNodeId = b) ∨ (e.toNodeId = a ∧ e.fromNodeId = b) := by
  refine ⟨otherEnd_some, ?_⟩
  unfold otherEnd
  rintro (⟨hfrom, hto⟩ | ⟨hto, hfrom⟩)
  · rw [if_pos hfrom, hto]
  · by_cases h : e.fromNodeId = a
    · rw [if_pos h, hto, ← h, hfrom]
    · rw [if_neg h, if_pos hto, hfrom]

section Sight
variable {st : InMemoryGraphStore} {ctx : QueryContext} {now : DateTime}

theorem sightGraph_adj {a b : String} : (sightGraph st ctx now).Adj a b ↔
    a ≠ b ∧ ∃ e ∈ st.allEdges ctx.tenantId, Closed st ctx now e ∧ otherEnd e a = some b := by
  unfold sightGraph
  rw [SimpleGraph.fromRel_adj]
  refine and_congr_right fun _ => ⟨?_, ?_⟩
  · rintro (⟨e, he, hclosed, hfrom, hto⟩ | ⟨e, he, hclosed, hfrom, hto⟩)
    · exact ⟨e, he, hclosed, otherEnd_eq_some_iff.mpr (.inl ⟨hfrom, hto⟩)⟩
    · exact ⟨e, he, hclosed, otherEnd_eq_some_iff.mpr (.inr ⟨hto, hfrom⟩)⟩
  · rintro ⟨e, he, hclosed, hother⟩
    rcases otherEnd_eq_some_iff.mp hother with ⟨hfrom, hto⟩ | ⟨hto, hfrom⟩
    · exact .inl ⟨e, he, hclosed, hfrom, hto⟩
    · exact .inr ⟨e, he, hclosed, hfrom, hto⟩

theorem InMemoryGraphStore.nodeId_of_getNode {id : String} {n : GraphNode} (h : st.getNode ctx id = some n) :
    n.nodeId = id := by
  obtain ⟨hget, -⟩ := Option.filter_eq_some_iff.mp h
  have hkey : n.key = (ctx.tenantId, id) := Table.key_of_get hget
  exact (Prod.mk.inj hkey).2

/-- An edge may appear if it may be followed and the person sees the ends. -/
theorem closed_iff {e : GraphEdge} : Closed st ctx now e ↔ usableEdge ctx now e = true ∧ endsShown st ctx e := by
  unfold usableEdge
  rw [Bool.and_eq_true]
  exact ⟨fun h => ⟨⟨h.visible, h.active⟩, h.ends⟩, fun h => ⟨h.1.2, h.1.1, h.2⟩⟩

end Sight

/-! ## One round

A round takes down what it comes upon, the edge and the node that it leads to, one after the other. -/

section Round
variable {ctx : QueryContext} {now : DateTime} {node : String → Option GraphNode}

/-- What the edge is, seen from a node. -/
def found (ctx : QueryContext) (now : DateTime) (node : String → Option GraphNode) (nid : String) (e : GraphEdge) :
    Option (GraphEdge × GraphNode) :=
  if usableEdge ctx now e then ((otherEnd e nid).bind node).map (e, ·) else none

theorem found_eq_some_iff {nid : String} {e : GraphEdge} {x : GraphEdge × GraphNode} :
    found ctx now node nid e = some x ↔
      usableEdge ctx now e = true ∧ (∃ id, otherEnd e nid = some id ∧ node id = some x.2) ∧ x.1 = e := by
  unfold found
  split_ifs with husable
  · rw [Option.map_eq_some_iff]
    constructor
    · rintro ⟨n, hn, rfl⟩
      exact ⟨husable, Option.bind_eq_some_iff.mp hn, rfl⟩
    · rintro ⟨-, hn, rfl⟩
      exact ⟨x.2, Option.bind_eq_some_iff.mpr hn, rfl⟩
  · exact iff_of_false (fun h => by cases h) fun h => husable h.1

def Sweep.record (s : Sweep) (x : GraphEdge × GraphNode) : Sweep :=
  let edges := addBy GraphEdge.edgeId s.edges x.1
  if x.2.nodeId ∈ s.seen then { s with edges }
  else { seen := x.2.nodeId :: s.seen, nodes := s.nodes ++ [x.2], edges, next := s.next ++ [x.2.nodeId] }

theorem sweepEdge_eq (hnode : ∀ id n, node id = some n → n.nodeId = id) (nid : String) (s : Sweep) (e : GraphEdge) :
    sweepEdge ctx now node nid s e = match found ctx now node nid e with
      | some x => s.record x
      | none => s := by
  unfold sweepEdge found
  cases usableEdge ctx now e with
  | false => rfl
  | true =>
    cases otherEnd e nid with
    | none => rfl
    | some id =>
      cases hid : node id with
      | none => simp [hid]
      | some n =>
        have hn : n.nodeId = id := hnode id n hid
        have hedges : (if s.edges.any fun x => x.edgeId = e.edgeId then s.edges else s.edges ++ [e]) =
            addBy GraphEdge.edgeId s.edges e := by
          unfold addBy
          simp only [List.any_eq_true, decide_eq_true_eq, List.mem_map]
        simp only [Bool.not_true, Bool.false_eq_true, if_false, if_true, Option.bind_some, hid, Option.map_some, hedges]
        unfold Sweep.record
        simp only [hn, List.contains_iff_mem]

/-- All that a round comes upon. -/
def finds (ctx : QueryContext) (now : DateTime) (node : String → Option GraphNode) (all : List GraphEdge)
    (frontier : List String) : List (GraphEdge × GraphNode) :=
  frontier.flatMap fun nid => all.filterMap (found ctx now node nid)

theorem foldl_sweepNode (hnode : ∀ id n, node id = some n → n.nodeId = id) (all : List GraphEdge)
    (frontier : List String) (s : Sweep) : frontier.foldl (sweepNode ctx now node all) s =
      (finds ctx now node all frontier).foldl Sweep.record s := by
  unfold finds
  rw [List.foldl_flatMap]
  congr 1
  funext s nid
  unfold sweepNode
  rw [List.foldl_filterMap]
  congr 1
  funext s e
  rw [sweepEdge_eq hnode]
  cases found ctx now node nid e with
  | none => rfl
  | some x => rfl

theorem mem_finds {all : List GraphEdge} {frontier : List String} {x : GraphEdge × GraphNode} :
    x ∈ finds ctx now node all frontier ↔ ∃ nid ∈ frontier, x.1 ∈ all ∧ usableEdge ctx now x.1 = true ∧
      ∃ id, otherEnd x.1 nid = some id ∧ node id = some x.2 := by
  unfold finds
  rw [List.mem_flatMap]
  refine exists_congr fun nid => and_congr_right fun _ => ?_
  rw [List.mem_filterMap]
  constructor
  · rintro ⟨e, he, hfound⟩
    obtain ⟨husable, hother, rfl⟩ := found_eq_some_iff.mp hfound
    exact ⟨he, husable, hother⟩
  · rintro ⟨he, husable, hother⟩
    exact ⟨x.1, he, found_eq_some_iff.mpr ⟨husable, hother, rfl⟩⟩

/-! ### What is taken down -/

theorem record_edges (s : Sweep) (x : GraphEdge × GraphNode) :
    (s.record x).edges = addBy GraphEdge.edgeId s.edges x.1 := by
  unfold Sweep.record
  dsimp only
  split_ifs
  · rfl
  · rfl

theorem mem_seen_record {s : Sweep} {x : GraphEdge × GraphNode} {id : String} :
    id ∈ (s.record x).seen ↔ id ∈ s.seen ∨ x.2.nodeId = id := by
  unfold Sweep.record
  dsimp only
  split_ifs with hseen
  · exact ⟨.inl, fun h => h.elim (fun h => h) fun h => h ▸ hseen⟩
  · rw [List.mem_cons, or_comm, eq_comm]

theorem mem_next_record {s : Sweep} {x : GraphEdge × GraphNode} {id : String} :
    id ∈ (s.record x).next ↔ id ∈ s.next ∨ (id ∉ s.seen ∧ x.2.nodeId = id) := by
  unfold Sweep.record
  dsimp only
  split_ifs with hseen
  · exact ⟨.inl, fun h => h.elim (fun h => h) fun h => absurd (h.2 ▸ hseen) h.1⟩
  · rw [List.mem_append, List.mem_singleton, eq_comm]
    refine or_congr_right ⟨fun h => ⟨h ▸ hseen, h⟩, And.right⟩

theorem foldl_record_edges (xs : List (GraphEdge × GraphNode)) (s : Sweep) :
    (xs.foldl Sweep.record s).edges = (xs.map Prod.fst).foldl (addBy GraphEdge.edgeId) s.edges := by
  induction xs generalizing s with
  | nil => rfl
  | cons x xs ih => rw [List.foldl_cons, ih, record_edges, List.map_cons, List.foldl_cons]

theorem mem_seen_foldl_record {xs : List (GraphEdge × GraphNode)} {s : Sweep} {id : String} :
    id ∈ (xs.foldl Sweep.record s).seen ↔ id ∈ s.seen ∨ ∃ x ∈ xs, x.2.nodeId = id := by
  induction xs generalizing s with
  | nil => simp
  | cons x xs ih => rw [List.foldl_cons, ih, mem_seen_record, List.exists_mem_cons_iff, or_assoc]

theorem mem_next_foldl_record {xs : List (GraphEdge × GraphNode)} {s : Sweep} {id : String} :
    id ∈ (xs.foldl Sweep.record s).next ↔ id ∈ s.next ∨ (id ∉ s.seen ∧ ∃ x ∈ xs, x.2.nodeId = id) := by
  induction xs generalizing s with
  | nil => simp
  | cons x xs ih =>
    rw [List.foldl_cons, ih, mem_next_record, mem_seen_record, List.exists_mem_cons_iff, not_or]
    by_cases hx : x.2.nodeId = id
    · simp only [hx, not_true, and_true, and_false, false_and, or_false, true_or]
    · simp only [hx, not_false_eq_true, and_true, and_false, false_or, or_false]

/-- Each node that was seen is taken down once, as the person sees it. -/
structure Sweep.Tidy (node : String → Option GraphNode) (s : Sweep) : Prop where
  nodes : ∀ n ∈ s.nodes, node n.nodeId = some n
  ids : s.nodes.map GraphNode.nodeId = s.seen.reverse
  once : s.seen.Nodup

theorem Sweep.Tidy.record {s : Sweep} (h : s.Tidy node) {x : GraphEdge × GraphNode}
    (hx : node x.2.nodeId = some x.2) : (s.record x).Tidy node := by
  unfold Sweep.record
  dsimp only
  split_ifs with hseen
  · exact ⟨h.nodes, h.ids, h.once⟩
  · refine ⟨fun n hn => ?_, ?_, h.once.cons hseen⟩
    · rcases List.mem_append.mp hn with hn | hn
      · exact h.nodes n hn
      · rw [List.mem_singleton.mp hn]
        exact hx
    · rw [List.map_append, h.ids, List.map_singleton, List.reverse_cons]

theorem Sweep.Tidy.foldl_record {xs : List (GraphEdge × GraphNode)} {s : Sweep} (h : s.Tidy node)
    (hxs : ∀ x ∈ xs, node x.2.nodeId = some x.2) : (xs.foldl Sweep.record s).Tidy node := by
  induction xs generalizing s with
  | nil => exact h
  | cons x xs ih =>
    exact ih (h.record (hxs x List.mem_cons_self)) fun y hy => hxs y (List.mem_cons_of_mem _ hy)

theorem Sweep.Tidy.mem_seen_iff {s : Sweep} (h : s.Tidy node) {id : String} :
    id ∈ s.seen ↔ ∃ n ∈ s.nodes, n.nodeId = id := by
  rw [← List.mem_reverse, ← h.ids, List.mem_map]

end Round

/-! ## All rounds -/

section Rounds
variable {st : InMemoryGraphStore} {ctx : QueryContext} {now : DateTime} {rootId : String} {n : ℕ} {s : Sweep}

/-- An end of the edge is nearer to the root than `n`. -/
def EndWithin (st : InMemoryGraphStore) (ctx : QueryContext) (now : DateTime) (rootId : String) (n : ℕ)
    (e : GraphEdge) : Prop :=
  (sightGraph st ctx now).edist rootId e.fromNodeId < n ∨ (sightGraph st ctx now).edist rootId e.toNodeId < n

/-- Where the walk is after `n` rounds. -/
structure Swept (st : InMemoryGraphStore) (ctx : QueryContext) (now : DateTime) (rootId : String) (n : ℕ) (s : Sweep) :
    Prop where
  explored : Explored (sightGraph st ctx now) rootId n {id | id ∈ s.seen} {id | id ∈ s.next}
  tidy : s.Tidy (st.getNode ctx)
  edges : ∀ e, e ∈ s.edges ↔ e ∈ st.allEdges ctx.tenantId ∧ Closed st ctx now e ∧ EndWithin st ctx now rootId n e
  edgesOnce : (s.edges.map GraphEdge.edgeId).Nodup

theorem endWithin_succ_iff {e : GraphEdge} : EndWithin st ctx now rootId (n + 1) e ↔
    EndWithin st ctx now rootId n e ∨ (sightGraph st ctx now).edist rootId e.fromNodeId = n ∨
      (sightGraph st ctx now).edist rootId e.toNodeId = n := by
  have hsucc : ∀ d : ℕ∞, d < (n + 1 : ℕ) ↔ d < n ∨ d = n := by
    intro d
    rw [Nat.cast_add, Nat.cast_one, ENat.lt_add_one_iff (ENat.natCast_ne_top n), le_iff_lt_or_eq]
  unfold EndWithin
  rw [hsucc, hsucc]
  exact or_or_or_comm

theorem Swept.shown (h : Swept st ctx now rootId n s) {id : String} (hid : id ∈ s.seen) :
    (st.getNode ctx id).isSome = true := by
  obtain ⟨node, hnode, rfl⟩ := h.tidy.mem_seen_iff.mp hid
  rw [h.tidy.nodes node hnode]
  rfl

theorem swept_root {root : GraphNode} (hroot : st.getNode ctx rootId = some root) :
    Swept st ctx now rootId 0 ⟨[rootId], [root], [], [rootId]⟩ := by
  have hid : root.nodeId = rootId := InMemoryGraphStore.nodeId_of_getNode hroot
  have hself : {id | id ∈ [rootId]} = ({rootId} : Set String) := by
    ext id
    exact List.mem_singleton
  refine ⟨?_, ⟨fun node hnode => ?_, ?_, List.nodup_singleton _⟩, fun e => ?_, List.nodup_nil⟩
  · show Explored _ _ _ {id | id ∈ [rootId]} {id | id ∈ [rootId]}
    rw [hself]
    exact Explored.root _ _
  · rw [List.mem_singleton.mp hnode, hid, hroot]
  · rw [List.map_singleton, hid]
    rfl
  · refine iff_of_false List.not_mem_nil fun h => ?_
    rcases h.2.2 with hlt | hlt
    · exact not_lt_zero hlt
    · exact not_lt_zero hlt

/-- What a round comes upon are the edges that may appear and have an end in the frontier. -/
theorem Swept.exists_finds_edge_iff (h : Swept st ctx now rootId n s) {e : GraphEdge} :
    (∃ x ∈ finds ctx now (st.getNode ctx) (st.allEdges ctx.tenantId) s.next, x.1 = e) ↔
      e ∈ st.allEdges ctx.tenantId ∧ Closed st ctx now e ∧ (e.fromNodeId ∈ s.next ∨ e.toNodeId ∈ s.next) := by
  constructor
  · rintro ⟨x, hx, rfl⟩
    obtain ⟨nid, hnid, he, husable, id, hother, hid⟩ := mem_finds.mp hx
    have hshown : (st.getNode ctx id).isSome = true := by rw [hid]; rfl
    have hseen : nid ∈ s.seen := h.explored.mem_seen_of_mem_frontier hnid
    refine ⟨he, closed_of_otherEnd husable hother (h.shown hseen) hshown, ?_⟩
    rcases otherEnd_some hother with ⟨hfrom, -⟩ | ⟨hto, -⟩
    · exact .inl (hfrom ▸ hnid)
    · exact .inr (hto ▸ hnid)
  · rintro ⟨he, hclosed, hend⟩
    have husable := (closed_iff.mp hclosed).1
    rcases hend with hfrom | hto
    · obtain ⟨node, hnode⟩ := Option.isSome_iff_exists.mp hclosed.ends.2
      exact ⟨(e, node), mem_finds.mpr ⟨_, hfrom, he, husable, _, otherEnd_eq_some_iff.mpr (.inl ⟨rfl, rfl⟩), hnode⟩, rfl⟩
    · obtain ⟨node, hnode⟩ := Option.isSome_iff_exists.mp hclosed.ends.1
      exact ⟨(e, node), mem_finds.mpr ⟨_, hto, he, husable, _, otherEnd_eq_some_iff.mpr (.inr ⟨rfl, rfl⟩), hnode⟩, rfl⟩

/-- The nodes that a round comes upon are known already, or neighbors of the frontier. -/
theorem Swept.seen_or_exists_finds_iff (h : Swept st ctx now rootId n s) {id : String} :
    (id ∈ s.seen ∨ ∃ x ∈ finds ctx now (st.getNode ctx) (st.allEdges ctx.tenantId) s.next, x.2.nodeId = id) ↔
      id ∈ s.seen ∨ ∃ u ∈ s.next, (sightGraph st ctx now).Adj u id := by
  constructor
  · rintro (hseen | ⟨x, hx, rfl⟩)
    · exact .inl hseen
    · obtain ⟨nid, hnid, he, husable, id, hother, hid⟩ := mem_finds.mp hx
      have hshown : (st.getNode ctx id).isSome = true := by rw [hid]; rfl
      have hseen : nid ∈ s.seen := h.explored.mem_seen_of_mem_frontier hnid
      rw [InMemoryGraphStore.nodeId_of_getNode hid]
      by_cases hloop : nid = id
      · exact .inl (hloop ▸ hseen)
      · exact .inr ⟨nid, hnid, sightGraph_adj.mpr
          ⟨hloop, x.1, he, closed_of_otherEnd husable hother (h.shown hseen) hshown, hother⟩⟩
  · rintro (hseen | ⟨u, hu, hadj⟩)
    · exact .inl hseen
    · obtain ⟨-, e, he, hclosed, hother⟩ := sightGraph_adj.mp hadj
      have hshown : (st.getNode ctx id).isSome = true := by
        rcases otherEnd_some hother with ⟨-, rfl⟩ | ⟨-, rfl⟩
        · exact hclosed.ends.2
        · exact hclosed.ends.1
      obtain ⟨node, hnode⟩ := Option.isSome_iff_exists.mp hshown
      exact .inr ⟨(e, node), mem_finds.mpr ⟨u, hu, he, (closed_iff.mp hclosed).1, id, hother, hnode⟩,
        InMemoryGraphStore.nodeId_of_getNode hnode⟩

/-- **One round** goes one level further. -/
theorem Swept.round (hfiled : ((st.allEdges ctx.tenantId).map GraphEdge.edgeId).Nodup)
    (h : Swept st ctx now rootId n s) : Swept st ctx now rootId (n + 1)
      (s.next.foldl (sweepNode ctx now (st.getNode ctx) (st.allEdges ctx.tenantId)) { s with next := [] }) := by
  have hnode : ∀ id node, st.getNode ctx id = some node → node.nodeId = id :=
    fun _ _ => InMemoryGraphStore.nodeId_of_getNode
  rw [@foldl_sweepNode ctx now (st.getNode ctx) hnode]
  have hclear : Sweep.Tidy (st.getNode ctx) { s with next := [] } := ⟨h.tidy.nodes, h.tidy.ids, h.tidy.once⟩
  refine ⟨h.explored.round (fun id => ?_) fun id => ?_, hclear.foldl_record fun x hx => ?_, fun e => ?_, ?_⟩
  · exact mem_seen_foldl_record.trans h.seen_or_exists_finds_iff
  · show id ∈ Sweep.next _ ↔ id ∈ Sweep.seen _ ∧ id ∉ s.seen
    rw [mem_next_foldl_record, mem_seen_foldl_record]
    constructor
    · rintro (hnone | ⟨hnew, hfound⟩)
      · cases hnone
      · exact ⟨.inr hfound, hnew⟩
    · rintro ⟨hseen | hfound, hnew⟩
      · exact absurd hseen hnew
      · exact .inr ⟨hnew, hfound⟩
  · obtain ⟨_, _, _, _, id, _, hid⟩ := mem_finds.mp hx
    rw [hnode id x.2 hid, hid]
  · have hedges : s.edges ⊆ st.allEdges ctx.tenantId := fun x hx => ((h.edges x).mp hx).1
    have hfinds : (finds ctx now (st.getNode ctx) (st.allEdges ctx.tenantId) s.next).map Prod.fst ⊆
        st.allEdges ctx.tenantId := by
      intro e he
      exact (h.exists_finds_edge_iff.mp (List.mem_map.mp he)).1
    rw [foldl_record_edges, mem_foldl_addBy hfiled hedges hfinds, List.mem_map, h.exists_finds_edge_iff, h.edges,
      endWithin_succ_iff, ← and_or_left, ← and_or_left]
    exact and_congr_right fun _ => and_congr_right fun _ => or_congr_right <|
      or_congr (h.explored.frontier _) (h.explored.frontier _)
  · rw [foldl_record_edges]
    exact nodup_foldl_addBy h.edgesOnce

/-- A walk whose frontier is empty has found all there is. -/
theorem Swept.idle (h : Swept st ctx now rootId n s) (hnext : s.next = []) : Swept st ctx now rootId (n + 1) s := by
  have hempty : ∀ id, id ∉ s.next := by
    intro id
    rw [hnext]
    exact List.not_mem_nil
  refine ⟨h.explored.idle hempty, h.tidy, fun e => ?_, h.edgesOnce⟩
  rw [h.edges, endWithin_succ_iff, or_iff_left]
  rintro (hfrom | hto)
  · exact hempty _ ((h.explored.frontier _).mpr hfrom)
  · exact hempty _ ((h.explored.frontier _).mpr hto)

theorem Swept.idle_add (h : Swept st ctx now rootId n s) (hnext : s.next = []) (k : ℕ) :
    Swept st ctx now rootId (n + k) s := by
  induction k with
  | zero => exact h
  | succ k ih => exact ih.idle hnext

/-- A walk goes as many levels further as it has hops, also when it stops before. -/
theorem Swept.sweep (hfiled : ((st.allEdges ctx.tenantId).map GraphEdge.edgeId).Nodup) (hops : ℕ)
    (h : Swept st ctx now rootId n s) : Swept st ctx now rootId (n + hops)
      (Graph.sweep ctx now (st.getNode ctx) (st.allEdges ctx.tenantId) hops s) := by
  induction hops generalizing n s with
  | zero => exact h
  | succ hops ih =>
    have hround := h.round hfiled
    unfold Graph.sweep
    dsimp only
    rw [Nat.add_comm hops 1, ← Nat.add_assoc]
    split_ifs with hnext
    · exact hround.idle_add (List.isEmpty_iff.mp hnext) hops
    · exact ih hround

/-- What a walk has taken down after some rounds is exactly what is in sight within as many hops. -/
theorem Swept.exact {root : GraphNode} (h : Swept st ctx now root.nodeId n s) (hn : 1 ≤ n) :
    Neighborhood.Exact st ctx now ⟨root, s.nodes, s.edges, n⟩ where
  nodes node := by
    constructor
    · intro hnode
      exact ⟨h.tidy.nodes node hnode, (h.explored.seen _).mp (h.tidy.mem_seen_iff.mpr ⟨node, hnode, rfl⟩)⟩
    · rintro ⟨hget, hle⟩
      obtain ⟨node', hnode', hid⟩ := h.tidy.mem_seen_iff.mp ((h.explored.seen _).mpr hle)
      have hget' := h.tidy.nodes node' hnode'
      rw [hid, hget] at hget'
      cases hget'
      exact hnode'
  nodesOnce := by
    show (s.nodes.map GraphNode.nodeId).Nodup
    rw [h.tidy.ids]
    exact List.nodup_reverse.mpr h.tidy.once
  edges e := by
    have hle : ∀ d : ℕ∞, d < n ↔ d ≤ (n - 1 : ℕ) := by
      intro d
      obtain ⟨m, rfl⟩ := Nat.exists_eq_add_of_le' hn
      rw [Nat.add_sub_cancel, Nat.cast_add, Nat.cast_one, ENat.lt_add_one_iff (ENat.natCast_ne_top m)]
    show e ∈ s.edges ↔ _
    rw [h.edges, ← hle, ← hle]
    rfl
  edgesOnce := h.edgesOnce

end Rounds

/-- **Neighborhood.** In every store that was filled by mutations, a root that the person sees is answered with what is
in sight within the clamped hops, exactly. -/
theorem neighborhood_exact (ms : List GraphMutation) (now : DateTime) (ctx : QueryContext) (rootId : String) (hops : ℕ)
    {root : GraphNode}
    (hroot : (ms.foldl InMemoryGraphStore.applyMutation .new).getNode ctx rootId = some root) :
    ∃ nb, (ms.foldl InMemoryGraphStore.applyMutation .new).neighborhood now ctx rootId hops = .ok nb ∧
      nb.root = root ∧ nb.hops = clamp 1 6 hops ∧
      nb.Exact (ms.foldl InMemoryGraphStore.applyMutation .new) ctx now := by
  generalize hst : ms.foldl InMemoryGraphStore.applyMutation .new = st at hroot ⊢
  have hfiled : InMemoryGraphStore.EdgesFiled st := by
    rw [← hst]
    exact InMemoryGraphStore.EdgesFiled.foldl (fun m h => h.applyMutation m) ms InMemoryGraphStore.edgesFiled_new
  have hid : root.nodeId = rootId := InMemoryGraphStore.nodeId_of_getNode hroot
  have hswept := (@swept_root st ctx now rootId root hroot).sweep (hfiled.once ctx.tenantId) (clamp 1 6 hops)
  rw [Nat.zero_add, ← hid] at hswept
  unfold InMemoryGraphStore.neighborhood
  rw [hroot, ← hid]
  exact ⟨_, rfl, rfl, rfl, hswept.exact (Nat.le_max_left ..)⟩

/-- Three nodes, a cycle of two parallel edges, an edge from a node to itself, and one that is not active yet. -/
def smallGraph : List GraphMutation :=
  let node (id : String) : GraphNode := ⟨"ten_1", id, "Issue", id, "", .null, false, [], 0⟩
  let edge (id a b : String) (validFrom : DateTime) : GraphEdge :=
    ⟨"ten_1", id, "BLOCKS", a, b, validFrom, none, "ev", .null, false, [], 0⟩
  [⟨[node "a", node "b"], [edge "e1" "a" "b" 1, edge "e2" "b" "a" 1, edge "e3" "b" "b" 1], []⟩,
    ⟨[node "c"], [edge "e4" "c" "b" 1, edge "e5" "a" "c" 9], []⟩]

theorem smallGraph_exact :
    ∃ nb, (smallGraph.foldl InMemoryGraphStore.applyMutation .new).neighborhood 5 ⟨"ten_1", "gu_1", []⟩ "a" 2 = .ok nb ∧
      nb.root = ⟨"ten_1", "a", "Issue", "a", "", .null, false, [], 0⟩ ∧ nb.hops = clamp 1 6 2 ∧
      nb.Exact (smallGraph.foldl InMemoryGraphStore.applyMutation .new) ⟨"ten_1", "gu_1", []⟩ 5 :=
  neighborhood_exact smallGraph 5 ⟨"ten_1", "gu_1", []⟩ "a" 2 rfl

end AiManager.Graph
