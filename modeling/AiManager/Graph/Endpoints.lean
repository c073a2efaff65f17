import AiManager.Graph.Query

/-! # Edges and their ends

The searches look up the far end of an edge before they use it, so what they return has both ends in
sight (`sweep_closed`, `search_closed`). The operations that only filter the edge list do not: there an
edge between a node that a person sees and one that the person does not appears, id and all. -/

namespace AiManager.Graph

open Lib

/-- The person sees both ends of the edge. -/
def endsShown (st : InMemoryGraphStore) (ctx : QueryContext) (e : GraphEdge) : Prop :=
  (st.getNode ctx e.fromNodeId).isSome = true ∧ (st.getNode ctx e.toNodeId).isSome = true

/-- An edge as it may appear: active, visible, and its ends as well. -/
structure Closed (st : InMemoryGraphStore) (ctx : QueryContext) (now : DateTime) (e : GraphEdge) :
    Prop where
  active : activeEdge now e = true
  visible : visibleEdge ctx e = true
  ends : endsShown st ctx e

/-- The operations that return edges. -/
inductive EdgeQuery where
  | neighborhood (rootId : String) (hops : Nat)
  | path (fromId toId : String) (maxHops : Nat)
  | blockers (forNodeId : String)
  | listEdgesByType (edgeType : String) (limit : Nat)
  | snapshot (nodeLimit edgeLimit : Nat)

def EdgeQuery.edges (st : InMemoryGraphStore) (now : DateTime) (ctx : QueryContext) :
    EdgeQuery → List GraphEdge
  | .neighborhood rootId hops =>
    match st.neighborhood now ctx rootId hops with
    | .ok n => n.edges
    | .error _ => []
  | .path fromId toId maxHops =>
    match st.path now ctx fromId toId maxHops with
    | .ok (some p) => p.edges
    | .ok none => []
    | .error _ => []
  | .blockers forNodeId => st.blockers now ctx forNodeId
  | .listEdgesByType edgeType limit => st.listEdgesByType now ctx edgeType limit
  | .snapshot nodeLimit edgeLimit => (st.snapshot now ctx nodeLimit edgeLimit).2

section Searches
variable {st : InMemoryGraphStore} {ctx : QueryContext} {now : DateTime} {toId : String}

/-- The two ends of an edge are the node it was found from and the other one. -/
theorem closed_of_otherEnd {e : GraphEdge} {cur other : String}
    (husable : usableEdge ctx now e = true) (hother : otherEnd e cur = some other)
    (hcur : (st.getNode ctx cur).isSome = true) (hnode : (st.getNode ctx other).isSome = true) :
    Closed st ctx now e := by
  simp only [usableEdge, Bool.and_eq_true] at husable
  refine ⟨husable.2, husable.1, ?_⟩
  rcases otherEnd_some hother with ⟨rfl, rfl⟩ | ⟨rfl, rfl⟩
  · exact ⟨hcur, hnode⟩
  · exact ⟨hnode, hcur⟩

/-! ## Outwards from a root -/

/-- The frontier is in sight, and so are the ends of every edge. -/
structure SweepClosed (st : InMemoryGraphStore) (ctx : QueryContext) (now : DateTime) (s : Sweep) :
    Prop where
  next : ∀ id ∈ s.next, (st.getNode ctx id).isSome = true
  edges : ∀ e ∈ s.edges, Closed st ctx now e

theorem sweepEdge_closed {s : Sweep} (hs : SweepClosed st ctx now s) {nid : String}
    (hnid : (st.getNode ctx nid).isSome = true) (e : GraphEdge) :
    SweepClosed st ctx now (sweepEdge ctx now (st.getNode ctx) nid s e) := by
  unfold sweepEdge
  split
  · exact hs
  · next husable =>
    have husable : usableEdge ctx now e = true := by simpa using husable
    split
    · exact hs
    · next otherId hother =>
      split
      · exact hs
      · next otherNode hnode =>
        have hshown : (st.getNode ctx otherId).isSome = true := by rw [hnode]; rfl
        have hedges : ∀ x ∈ (if s.edges.any fun x => x.edgeId = e.edgeId then s.edges
            else s.edges ++ [e]), Closed st ctx now x := by
          intro x hx
          split at hx
          · exact hs.edges x hx
          · rcases List.mem_append.mp hx with hx | hx
            · exact hs.edges x hx
            · rw [List.mem_singleton.mp hx]
              exact closed_of_otherEnd husable hother hnid hshown
        dsimp only
        split
        · exact ⟨hs.next, hedges⟩
        · refine ⟨fun id hid => ?_, hedges⟩
          rcases List.mem_append.mp hid with hid | hid
          · exact hs.next id hid
          · rw [List.mem_singleton.mp hid]
            exact hshown

theorem sweepNode_closed {nid : String} (hnid : (st.getNode ctx nid).isSome = true)
    (all : List GraphEdge) {s : Sweep} (hs : SweepClosed st ctx now s) :
    SweepClosed st ctx now (sweepNode ctx now (st.getNode ctx) all s nid) := by
  unfold sweepNode
  induction all generalizing s with
  | nil => exact hs
  | cons e es ih => exact ih (sweepEdge_closed hs hnid e)

/-- One round: every node of the frontier is expanded. -/
theorem sweepRound_closed {frontier : List String}
    (hfrontier : ∀ id ∈ frontier, (st.getNode ctx id).isSome = true) (all : List GraphEdge)
    {s : Sweep} (hs : SweepClosed st ctx now s) :
    SweepClosed st ctx now (frontier.foldl (sweepNode ctx now (st.getNode ctx) all) s) := by
  induction frontier generalizing s with
  | nil => exact hs
  | cons nid rest ih =>
    have hnid := hfrontier nid List.mem_cons_self
    have hrest : ∀ id ∈ rest, (st.getNode ctx id).isSome = true :=
      fun id hid => hfrontier id (List.mem_cons_of_mem _ hid)
    exact ih hrest (sweepNode_closed hnid all hs)

theorem sweep_closed (all : List GraphEdge) (hops : Nat) {s : Sweep}
    (hs : SweepClosed st ctx now s) :
    SweepClosed st ctx now (sweep ctx now (st.getNode ctx) all hops s) := by
  induction hops generalizing s with
  | zero => exact hs
  | succ hops ih =>
    have hround := sweepRound_closed hs.next all (s := { s with next := [] })
      ⟨fun _ hid => absurd hid List.not_mem_nil, hs.edges⟩
    simp only [sweep]
    split
    · exact hround
    · exact ih hround

theorem neighborhood_closed (rootId : String) (hops : Nat) :
    ∀ e ∈ (EdgeQuery.neighborhood rootId hops).edges st now ctx, Closed st ctx now e := by
  intro e he
  simp only [EdgeQuery.edges, InMemoryGraphStore.neighborhood] at he
  cases hroot : st.getNode ctx rootId with
  | none => simp [hroot] at he
  | some root =>
    simp only [hroot] at he
    refine (sweep_closed (st.allEdges ctx.tenantId) (clamp 1 6 hops) ⟨?_, ?_⟩).edges e he
    · intro id hid
      rw [List.mem_singleton.mp hid, hroot]
      rfl
    · intro x hx
      exact absurd hx List.not_mem_nil

/-! ## Between two nodes -/

/-- The queue is in sight, and so are the ends of every edge that a node was reached by. -/
structure SearchClosed (st : InMemoryGraphStore) (ctx : QueryContext) (now : DateTime) (s : Search) :
    Prop where
  queue : ∀ id ∈ s.queue, (st.getNode ctx id).isSome = true
  prev : ∀ id p, s.prev.get id = some p → Closed st ctx now p.2

theorem SearchClosed.put {s : Search} (hs : SearchClosed st ctx now s) {other cur : String}
    {e : GraphEdge} (he : Closed st ctx now e) :
    ∀ id p, (s.prev.put other (cur, e)).get id = some p → Closed st ctx now p.2 := by
  intro id p hget
  rw [KMap.get_put] at hget
  split_ifs at hget
  · rw [← Option.some.inj hget]
    exact he
  · exact hs.prev id p hget

theorem scanEdges_closed {cur : String} (hcur : (st.getNode ctx cur).isSome = true) (d : Nat)
    (es : List GraphEdge) {s : Search} (hs : SearchClosed st ctx now s) :
    SearchClosed st ctx now (scanEdges ctx now (st.getNode ctx) toId cur d es s).2 := by
  induction es generalizing s with
  | nil => exact hs
  | cons e es ih =>
    simp only [scanEdges]
    split
    · exact ih hs
    · next husable =>
      split
      · exact ih hs
      · next other hother =>
        split_ifs with hnode hseen htarget
        · exact ih hs
        · exact ih hs
        all_goals
          have hshown : (st.getNode ctx other).isSome = true := by
            simpa [Option.isSome_iff_ne_none, Option.isNone_iff_eq_none] using hnode
          have hedge := closed_of_otherEnd (by simpa using husable) hother hcur hshown
          have hprev : ∀ id p, (s.prev.put other (cur, e)).get id = some p →
              Closed st ctx now p.2 := hs.put hedge
        · exact ⟨hs.queue, hprev⟩
        · refine ih ⟨fun id hid => ?_, hprev⟩
          rcases List.mem_append.mp hid with hid | hid
          · exact hs.queue id hid
          · rw [List.mem_singleton.mp hid]
            exact hshown

theorem search_closed {maxHops : Nat} {all : List GraphEdge} {fuel : Nat} {s found : Search}
    (hs : SearchClosed st ctx now s)
    (h : search ctx now (st.getNode ctx) toId maxHops all fuel s = some found) :
    SearchClosed st ctx now found := by
  induction fuel generalizing s with
  | zero =>
    cases hq : s.queue with
    | nil => rw [search_nil hq] at h; cases h
    | cons cur rest => rw [search_zero hq] at h; cases h
  | succ fuel ih =>
    cases hq : s.queue with
    | nil => rw [search_nil hq] at h; cases h
    | cons cur rest =>
      have hcur : (st.getNode ctx cur).isSome = true := hs.queue cur (by simp [hq])
      have hpopped : SearchClosed st ctx now { s with queue := rest } :=
        ⟨fun id hid => hs.queue id (by simp [hq, List.mem_cons_of_mem _ hid]), hs.prev⟩
      rw [search_succ hq] at h
      split at h
      · exact ih hpopped h
      · have hscan : SearchClosed st ctx now (scanEdges ctx now (st.getNode ctx) toId cur
            ((s.dist.get cur).getD 0) all { s with queue := rest }).2 :=
          scanEdges_closed hcur _ all hpopped
        split at h
        · next s' heq =>
          rw [heq] at hscan
          rw [← Option.some.inj h]
          exact hscan
        · next s' heq =>
          rw [heq] at hscan
          exact ih hscan h

theorem walkBack_closed {prev : KMap String (String × GraphEdge)} {fromId : String}
    (hprev : ∀ id p, prev.get id = some p → Closed st ctx now p.2) {fuel : Nat} {walk : String}
    {ids ids' : List String} {edges edges' : List GraphEdge}
    (hedges : ∀ e ∈ edges, Closed st ctx now e)
    (h : walkBack prev fromId fuel walk (ids, edges) = some (ids', edges')) :
    ∀ e ∈ edges', Closed st ctx now e := by
  induction fuel generalizing walk ids edges with
  | zero =>
    unfold walkBack at h
    split_ifs at h
    obtain ⟨-, rfl⟩ := Prod.mk.inj (Option.some.inj h)
    exact hedges
  | succ fuel ih =>
    unfold walkBack at h
    split_ifs at h
    · obtain ⟨-, rfl⟩ := Prod.mk.inj (Option.some.inj h)
      exact hedges
    · cases hget : prev.get walk with
      | none => simp [hget] at h
      | some p =>
        simp only [hget] at h
        refine ih ?_ h
        intro e he
        rcases List.mem_cons.mp he with rfl | he
        · exact hprev walk p hget
        · exact hedges e he

theorem path_closed (fromId toId : String) (maxHops : Nat) :
    ∀ e ∈ (EdgeQuery.path fromId toId maxHops).edges st now ctx, Closed st ctx now e := by
  intro e he
  simp only [EdgeQuery.edges] at he
  split at he
  · next p hpath =>
    simp only [InMemoryGraphStore.path] at hpath
    split at hpath
    · cases hpath
    next hends =>
    split at hpath
    · cases hpath
    · next found hfound =>
      have hfrom : (st.getNode ctx fromId).isSome = true := by
        simp only [Bool.or_eq_true, not_or, Bool.not_eq_true] at hends
        simpa [Option.isSome_iff_ne_none, Option.isNone_eq_false_iff] using hends.1
      have hstart : SearchClosed st ctx now
          ⟨∅, (∅ : KMap String Nat).put fromId 0, [fromId]⟩ := by
        refine ⟨fun id hid => ?_, fun id p hp => ?_⟩
        · rw [List.mem_singleton.mp hid]
          exact hfrom
        · simp at hp
      have hclosed := search_closed hstart hfound
      split at hpath
      · cases hpath
      · next ids edges hwalk =>
        obtain rfl := Option.some.inj (Except.ok.inj hpath)
        exact walkBack_closed hclosed.prev (fun _ hx => absurd hx List.not_mem_nil) hwalk e he
  · exact absurd he List.not_mem_nil
  · exact absurd he List.not_mem_nil

end Searches

/-! ## Operations that filter the edge list -/

section Filters
variable (st : InMemoryGraphStore) (ctx : QueryContext) (now : DateTime)

/-- The edges that an operation may choose from. -/
def usableEdges : List GraphEdge := (st.allEdges ctx.tenantId).filter (usableEdge ctx now)

/-- The person sees as many nodes as a snapshot returns at most. -/
def SnapshotFull (nodeLimit : Nat) : Prop :=
  clamp 1 2000 nodeLimit ≤ (st.nodes.values.filter fun n =>
    decide (n.tenantId = ctx.tenantId) && visibleNode ctx n).length

/-- Among the edges `edges`, sorted by `r` and cut off after `limit`, the person sees all ends. -/
def ShownWithin (r : GraphEdge → GraphEdge → Prop) [DecidableRel r] (limit : Nat)
    (edges : List GraphEdge) : Prop :=
  ∀ xs e ys, edges = xs ++ e :: ys → rowsBefore r xs e ys < limit → endsShown st ctx e

/-- What the store must hold for the edges of a query to have both ends in sight. -/
def EdgeQuery.EndsShown : EdgeQuery → Prop
  | .neighborhood _ _ => True
  | .path _ _ _ => True
  | .blockers forNodeId => ∀ e ∈ usableEdges st ctx now, isBlockEdge e = true →
      e.fromNodeId = forNodeId ∨ e.toNodeId = forNodeId → endsShown st ctx e
  | .listEdgesByType edgeType limit => ShownWithin st ctx edgeIdLe (clamp 1 500 limit)
      ((usableEdges st ctx now).filter fun e => Text.eqIgnoreAsciiCase e.edgeType edgeType)
  | .snapshot nodeLimit edgeLimit => SnapshotFull st ctx nodeLimit ∨
      ShownWithin st ctx (thenBy edgeRank newerOrSame) (clamp 1 4000 edgeLimit)
        (usableEdges st ctx now)

variable {st ctx now}

theorem closed_iff_endsShown {e : GraphEdge} (he : e ∈ usableEdges st ctx now) :
    Closed st ctx now e ↔ endsShown st ctx e := by
  have husable := List.of_mem_filter he
  simp only [usableEdge, Bool.and_eq_true] at husable
  exact ⟨Closed.ends, fun h => ⟨husable.2, husable.1, h⟩⟩

theorem shownWithin_iff {r : GraphEdge → GraphEdge → Prop} [DecidableRel r] [Std.Total r]
    [IsTrans GraphEdge r] {limit : Nat} {edges : List GraphEdge}
    (hedges : ∀ e ∈ edges, e ∈ usableEdges st ctx now) :
    (∀ e ∈ (edges.insertionSort r).take limit, Closed st ctx now e) ↔
      ShownWithin st ctx r limit edges := by
  constructor
  · intro h xs e ys hsplit hlimit
    have he : e ∈ edges := by simp [hsplit]
    exact (h e (mem_take_insertionSort.mpr ⟨xs, ys, hsplit, hlimit⟩)).ends
  · intro h e he
    obtain ⟨xs, ys, hsplit, hlimit⟩ := mem_take_insertionSort.mp he
    have hmem : e ∈ edges := by simp [hsplit]
    exact (closed_iff_endsShown (hedges e hmem)).mpr (h xs e ys hsplit hlimit)

theorem blockers_closed_iff (forNodeId : String) :
    (∀ e ∈ (EdgeQuery.blockers forNodeId).edges st now ctx, Closed st ctx now e) ↔
      (EdgeQuery.blockers forNodeId).EndsShown st ctx now := by
  have hmem : ∀ e, e ∈ (EdgeQuery.blockers forNodeId).edges st now ctx ↔
      e ∈ usableEdges st ctx now ∧ isBlockEdge e = true ∧
        (e.fromNodeId = forNodeId ∨ e.toNodeId = forNodeId) := by
    intro e
    simp [EdgeQuery.edges, InMemoryGraphStore.blockers, usableEdges, usableEdge, and_assoc]
  constructor
  · intro h e he hblock hend
    exact (h e ((hmem e).mpr ⟨he, hblock, hend⟩)).ends
  · intro h e he
    obtain ⟨husable, hblock, hend⟩ := (hmem e).mp he
    exact (closed_iff_endsShown husable).mpr (h e husable hblock hend)

theorem listEdgesByType_closed_iff (edgeType : String) (limit : Nat) :
    (∀ e ∈ (EdgeQuery.listEdgesByType edgeType limit).edges st now ctx, Closed st ctx now e) ↔
      (EdgeQuery.listEdgesByType edgeType limit).EndsShown st ctx now := by
  have hselect : ((st.allEdges ctx.tenantId).filter fun e => visibleEdge ctx e && activeEdge now e
      && Text.eqIgnoreAsciiCase e.edgeType edgeType) =
      (usableEdges st ctx now).filter fun e => Text.eqIgnoreAsciiCase e.edgeType edgeType := by
    rw [usableEdges, List.filter_filter]
    refine List.filter_congr fun e _ => ?_
    exact Bool.and_comm _ _
  simp only [EdgeQuery.edges, InMemoryGraphStore.listEdgesByType, hselect]
  exact shownWithin_iff fun e he => List.mem_of_mem_filter he

/-- The nodes of a snapshot are in sight. -/
theorem snapshotNode_shown {nodeLimit edgeLimit : Nat} {n : GraphNode}
    (hn : n ∈ (st.snapshot now ctx nodeLimit edgeLimit).1) :
    (st.getNode ctx n.nodeId).isSome = true := by
  have hsorted := List.mem_of_mem_take hn
  rw [List.mem_insertionSort, List.mem_filter, Table.mem_values] at hsorted
  obtain ⟨hget, hvisible⟩ := hsorted
  simp only [Bool.and_eq_true, decide_eq_true_eq] at hvisible
  have hkey : n.key = (ctx.tenantId, n.nodeId) := Prod.ext hvisible.1 rfl
  rw [hkey] at hget
  simp [InMemoryGraphStore.getNode, hget, Option.filter, hvisible.2]

theorem snapshot_closed_iff (nodeLimit edgeLimit : Nat) :
    (∀ e ∈ (EdgeQuery.snapshot nodeLimit edgeLimit).edges st now ctx, Closed st ctx now e) ↔
      (EdgeQuery.snapshot nodeLimit edgeLimit).EndsShown st ctx now := by
  set nodes := (st.snapshot now ctx nodeLimit edgeLimit).1 with hnodes
  have hlength : nodes.length = clamp 1 2000 nodeLimit ↔ SnapshotFull st ctx nodeLimit := by
    simp only [hnodes, InMemoryGraphStore.snapshot, SnapshotFull, List.length_take,
      List.length_insertionSort]
    omega
  by_cases hfull : nodes.length = clamp 1 2000 nodeLimit
  · refine iff_of_true (fun e he => ?_) (.inl (hlength.mp hfull))
    have hcut : (st.snapshot now ctx nodeLimit edgeLimit).2 =
        (((usableEdges st ctx now).filter fun e => nodes.any (fun n => n.nodeId = e.fromNodeId)
          && nodes.any (fun n => n.nodeId = e.toNodeId)).insertionSort
            (thenBy edgeRank newerOrSame)).take (clamp 1 4000 edgeLimit) := by
      simp only [hnodes, InMemoryGraphStore.snapshot] at hfull ⊢
      rw [if_pos hfull]
      rfl
    simp only [EdgeQuery.edges, hcut] at he
    have hmem := List.mem_of_mem_take he
    rw [List.mem_insertionSort, List.mem_filter] at hmem
    obtain ⟨husable, hends⟩ := hmem
    simp only [Bool.and_eq_true, List.any_eq_true, decide_eq_true_eq] at hends
    obtain ⟨⟨a, ha, hfrom⟩, ⟨b, hb, hto⟩⟩ := hends
    refine (closed_iff_endsShown husable).mpr ⟨?_, ?_⟩
    · rw [← hfrom]
      exact snapshotNode_shown ha
    · rw [← hto]
      exact snapshotNode_shown hb
  · have hcut : (st.snapshot now ctx nodeLimit edgeLimit).2 =
        ((usableEdges st ctx now).insertionSort (thenBy edgeRank newerOrSame)).take
          (clamp 1 4000 edgeLimit) := by
      simp only [hnodes, InMemoryGraphStore.snapshot] at hfull ⊢
      rw [if_neg hfull]
      rfl
    simp only [EdgeQuery.edges, EdgeQuery.EndsShown, hcut]
    rw [or_iff_right (hlength.not.mp hfull)]
    exact shownWithin_iff fun e he => he

/-- **When edges come with both ends**: always where the ends are looked up, and otherwise if the
store shows them. -/
theorem endpoints_closed_iff (q : EdgeQuery) :
    (∀ e ∈ q.edges st now ctx, Closed st ctx now e) ↔ q.EndsShown st ctx now := by
  cases q with
  | neighborhood rootId hops => exact iff_of_true (neighborhood_closed rootId hops) trivial
  | path fromId toId maxHops => exact iff_of_true (path_closed fromId toId maxHops) trivial
  | blockers forNodeId => exact blockers_closed_iff forNodeId
  | listEdgesByType edgeType limit => exact listEdgesByType_closed_iff edgeType limit
  | snapshot nodeLimit edgeLimit => exact snapshot_closed_iff nodeLimit edgeLimit

end Filters

/-- A public ticket that a private one blocks, by an edge that is public. -/
def blockedByPrivate : InMemoryGraphStore :=
  ((InMemoryGraphStore.new.insertNode
      ⟨"acme", "t1", "Ticket", "t1", "t1", .null, false, [], 1⟩).insertNode
      ⟨"acme", "t2", "Ticket", "t2", "t2", .null, true, ["grp_hr"], 1⟩).insertEdge
    ⟨"acme", "e1", "BLOCKS", "t2", "t1", 0, none, "ev1", .null, false, [], 1⟩

/-- An engineer asks what blocks the public ticket, and reads the id of the private one. -/
theorem blockers_reveals_hidden_end :
    ∃ e ∈ (EdgeQuery.blockers "t1").edges blockedByPrivate 5 ⟨"acme", "usr_ann", ["grp_eng"]⟩,
      e.fromNodeId = "t2" ∧ blockedByPrivate.getNode ⟨"acme", "usr_ann", ["grp_eng"]⟩ "t2" = none ∧
      ¬ Closed blockedByPrivate ⟨"acme", "usr_ann", ["grp_eng"]⟩ 5 e := by
  have hhidden : blockedByPrivate.getNode ⟨"acme", "usr_ann", ["grp_eng"]⟩ "t2" = none := by decide
  refine ⟨⟨"acme", "e1", "BLOCKS", "t2", "t1", 0, none, "ev1", .null, false, [], 1⟩, ?_, rfl,
    hhidden, fun h => ?_⟩
  · exact List.mem_cons_self
  · have hshown := h.ends.1
    rw [hhidden] at hshown
    exact Bool.noConfusion hshown

end AiManager.Graph
