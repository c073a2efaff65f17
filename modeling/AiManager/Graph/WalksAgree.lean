import AiManager.Graph.Path
import AiManager.Graph.ReadersAgree
import AiManager.Graph.StoreLocks

/-! # Two walkers of one graph

The production store walks the edges as the embedded one does, over the rows of the tenant in whatever order the
database returns them. What a walk finds does not depend on that order: the same nodes and edges around a root, and
between two nodes a way of the same length, or none (`walks_agree`). Nor does it depend on whether the calls on the
embedded store return: one that is blocked has written its nodes and edges by then. -/

namespace AiManager.Graph

open Lib

/-! ## The walks of the production store -/

namespace CrdbGraphStore
variable (db : CrdbGraphStore) (now : DateTime) (ctx : QueryContext)

/-- The rows that may be followed. -/
def followed (e : GraphEdge) : Bool := aclAllows ctx e.isPrivate e.allowedGroupIds && activeEdge now e

/-- What `load_edges` may return: there is no `ORDER BY`. -/
def Loads (tenantId : String) (rows : List GraphEdge) : Prop := rows.Perm (db.loadEdges tenantId)

section Walks
variable (rows : List GraphEdge)

def neighborhood (rootId : String) (hops : Nat) : GraphResult Neighborhood :=
  match db.getNode ctx rootId with
  | none => .error (.notFound ("node " ++ rootId))
  | some root =>
    let hops := clamp 1 6 hops
    -- the rows are those of the tenant, which is all that the walk of the embedded store asks besides
    let out := sweep ctx now (db.getNode ctx) rows hops ⟨[rootId], [root], [], [rootId]⟩
    .ok ⟨root, out.nodes, out.edges, hops⟩

def pathFuel : Nat := rows.countP (followed now ctx) + 1

def path (fromId toId : String) (maxHops : Nat) : GraphResult (Option GraphPath) :=
  let maxHops := clamp 1 6 maxHops
  if (db.getNode ctx fromId).isNone || (db.getNode ctx toId).isNone then .ok none
  else
    let start : Search := ⟨∅, (∅ : KMap String Nat).put fromId 0, [fromId]⟩
    match search ctx now (db.getNode ctx) toId maxHops rows (pathFuel now ctx rows) start with
    | none => .ok none
    | some found =>
      match walkBack found.prev fromId ((found.dist.get toId).getD 0) toId ([toId], []) with
      | none => .error (.internal "no entry found for key")
      | some (ids, edges) => .ok (some ⟨ids.filterMap (db.getNode ctx), edges⟩)

def blockers (forNodeId : String) : List GraphEdge :=
  rows.filter fun e => followed now ctx e && isBlockEdge e
    && (decide (e.fromNodeId = forNodeId) || decide (e.toNodeId = forNodeId))

def listEdgesByType (edgeType : String) (limit : Nat) : List GraphEdge :=
  let out := rows.filter fun e => followed now ctx e && Text.eqIgnoreAsciiCase e.edgeType edgeType
  (out.insertionSort edgeIdLe).take (clamp 1 500 limit)

end Walks

/-- For the rows of the tenant a reader needs no more than the access rule. -/
theorem followed_eq {db : CrdbGraphStore} {now : DateTime} {ctx : QueryContext} {e : GraphEdge}
    (he : e ∈ db.loadEdges ctx.tenantId) : followed now ctx e = usableEdge ctx now e := by
  unfold followed usableEdge visibleEdge
  rw [decide_eq_true (mem_loadEdges he).2, Bool.true_and]

end CrdbGraphStore

/-! ## Edges in another order -/

/-- An edge but for the event that it was written with. -/
def GraphEdge.sansEvent (e : GraphEdge) : GraphEdge := { e with eventId := "" }

section SansEvent
variable {ctx : QueryContext} {now : DateTime} {e e' : GraphEdge}

/-- The event of an edge is nothing that a walk looks at. -/
theorem usableEdge_sansEvent (e : GraphEdge) : usableEdge ctx now e.sansEvent = usableEdge ctx now e := rfl

theorem otherEnd_sansEvent (e : GraphEdge) (a : String) : otherEnd e.sansEvent a = otherEnd e a := rfl

theorem ends_of_sansEvent (h : e'.sansEvent = e.sansEvent) :
    e'.fromNodeId = e.fromNodeId ∧ e'.toNodeId = e.toNodeId := by
  have hfrom : e'.sansEvent.fromNodeId = e.sansEvent.fromNodeId := by rw [h]
  have hto : e'.sansEvent.toNodeId = e.sansEvent.toNodeId := by rw [h]
  exact ⟨hfrom, hto⟩

end SansEvent

/-- The same nodes, and the same edges in another order and with other events. -/
structure Reordered (ctx : QueryContext) (st st' : InMemoryGraphStore) : Prop where
  node : st.getNode ctx = st'.getNode ctx
  edges : ((st.allEdges ctx.tenantId).map GraphEdge.sansEvent).Perm
    ((st'.allEdges ctx.tenantId).map GraphEdge.sansEvent)
  once : ((st.allEdges ctx.tenantId).map GraphEdge.edgeId).Nodup

section Reordered
variable {ctx : QueryContext} {now : DateTime} {st st' : InMemoryGraphStore} {rootId fromId toId : String}
  {root : GraphNode} {n : ℕ}

theorem map_edgeId_sansEvent (es : List GraphEdge) :
    (es.map GraphEdge.sansEvent).map GraphEdge.edgeId = es.map GraphEdge.edgeId := by
  rw [List.map_map]
  rfl

theorem Reordered.symm (h : Reordered ctx st st') : Reordered ctx st' st := by
  refine ⟨h.node.symm, h.edges.symm, ?_⟩
  have hids := h.edges.map GraphEdge.edgeId
  rw [map_edgeId_sansEvent, map_edgeId_sansEvent] at hids
  exact hids.nodup_iff.mp h.once

/-- Every edge is there as well, with some event. -/
theorem Reordered.exists_edge (h : Reordered ctx st st') {e : GraphEdge} (he : e ∈ st.allEdges ctx.tenantId) :
    ∃ e' ∈ st'.allEdges ctx.tenantId, e'.sansEvent = e.sansEvent :=
  List.mem_map.mp (h.edges.mem_iff.mp (List.mem_map_of_mem he))

theorem Reordered.closed (h : Reordered ctx st st') {e e' : GraphEdge} (he : e'.sansEvent = e.sansEvent)
    (hclosed : Closed st ctx now e) : Closed st' ctx now e' := by
  obtain ⟨husable, hends⟩ := closed_iff.mp hclosed
  refine closed_iff.mpr ⟨?_, ?_⟩
  · rw [← usableEdge_sansEvent, he]
    exact husable
  · obtain ⟨hfrom, hto⟩ := ends_of_sansEvent he
    unfold endsShown
    rw [hfrom, hto, ← h.node]
    exact hends

theorem Reordered.link (h : Reordered ctx st st') {e : GraphEdge} {a b : String} (hlink : Link st ctx now e a b) :
    ∃ e', e'.sansEvent = e.sansEvent ∧ Link st' ctx now e' a b := by
  obtain ⟨he, hclosed, hother⟩ := hlink
  obtain ⟨e', he', hsame⟩ := h.exists_edge he
  refine ⟨e', hsame, he', h.closed hsame hclosed, ?_⟩
  rw [← otherEnd_sansEvent, hsame]
  exact hother

theorem Reordered.sightGraph (h : Reordered ctx st st') : sightGraph st ctx now = sightGraph st' ctx now := by
  have hle : ∀ {st st' : InMemoryGraphStore}, Reordered ctx st st' → ∀ a b,
      (AiManager.Graph.sightGraph st ctx now).Adj a b → (AiManager.Graph.sightGraph st' ctx now).Adj a b := by
    intro st st' h a b hab
    rw [sightGraph_adj] at hab ⊢
    obtain ⟨hne, e, hlink⟩ := hab
    obtain ⟨e', -, hlink'⟩ := h.link hlink
    exact ⟨hne, e', hlink'⟩
  ext a b
  exact ⟨hle h a b, hle h.symm a b⟩

/-- The nodes of a walk are those that it has seen. -/
theorem Swept.mem_nodes {s : Sweep} (hs : Swept st ctx now rootId n s) {node : GraphNode} :
    node ∈ s.nodes ↔ node.nodeId ∈ s.seen ∧ st.getNode ctx node.nodeId = some node := by
  constructor
  · exact fun hnode => ⟨hs.tidy.mem_seen_iff.mpr ⟨node, hnode, rfl⟩, hs.tidy.nodes node hnode⟩
  · rintro ⟨hid, hget⟩
    obtain ⟨node', hnode', hid'⟩ := hs.tidy.mem_seen_iff.mp hid
    have hget' := hs.tidy.nodes node' hnode'
    rw [hid', hget] at hget'
    cases hget'
    exact hnode'

theorem Swept.nodes_nodup {s : Sweep} (hs : Swept st ctx now rootId n s) : s.nodes.Nodup := by
  refine List.Nodup.of_map GraphNode.nodeId ?_
  rw [hs.tidy.ids]
  exact List.nodup_reverse.mpr hs.tidy.once

/-- What one walk took down the other did too, with some event. -/
theorem Swept.edges_sub (h : Reordered ctx st st') {s s' : Sweep} (hs : Swept st ctx now rootId n s)
    (hs' : Swept st' ctx now rootId n s') {x : GraphEdge} (hx : x ∈ s.edges.map GraphEdge.sansEvent) :
    x ∈ s'.edges.map GraphEdge.sansEvent := by
  obtain ⟨e, he, rfl⟩ := List.mem_map.mp hx
  obtain ⟨hfiled, hclosed, hwithin⟩ := (hs.edges e).mp he
  obtain ⟨e', hfiled', hsame⟩ := h.exists_edge hfiled
  refine List.mem_map.mpr ⟨e', (hs'.edges e').mpr ⟨hfiled', h.closed hsame hclosed, ?_⟩, hsame⟩
  obtain ⟨hfrom, hto⟩ := ends_of_sansEvent hsame
  unfold EndWithin at hwithin ⊢
  rw [hfrom, hto, ← h.sightGraph]
  exact hwithin

/-- Two walks from one root that have gone equally far. -/
theorem Swept.perm (h : Reordered ctx st st') {s s' : Sweep} (hs : Swept st ctx now rootId n s)
    (hs' : Swept st' ctx now rootId n s') :
    s.nodes.Perm s'.nodes ∧ (s.edges.map GraphEdge.sansEvent).Perm (s'.edges.map GraphEdge.sansEvent) := by
  have hseen : ∀ id, id ∈ s.seen ↔ id ∈ s'.seen := by
    intro id
    have hleft := hs.explored.seen id
    have hright := hs'.explored.seen id
    rw [← h.sightGraph] at hright
    exact hleft.trans hright.symm
  have honce : ∀ {es : List GraphEdge}, (es.map GraphEdge.edgeId).Nodup → (es.map GraphEdge.sansEvent).Nodup := by
    intro es hes
    rw [← map_edgeId_sansEvent] at hes
    exact hes.of_map _
  constructor
  · refine (List.perm_ext_iff_of_nodup hs.nodes_nodup hs'.nodes_nodup).mpr fun node => ?_
    rw [hs.mem_nodes, hs'.mem_nodes, hseen, h.node]
  · refine (List.perm_ext_iff_of_nodup (honce hs.edgesOnce) (honce hs'.edgesOnce)).mpr fun x => ?_
    exact ⟨hs.edges_sub h hs', hs'.edges_sub h.symm hs⟩

/-- What one finds around the root the other finds too. -/
structure Neighborhood.Alike (a b : Neighborhood) : Prop where
  root : a.root = b.root
  hops : a.hops = b.hops
  nodes : a.nodes.Perm b.nodes
  edges : (a.edges.map GraphEdge.sansEvent).Perm (b.edges.map GraphEdge.sansEvent)

/-- The same error, or the same neighborhood. -/
inductive NeighborhoodsAlike : GraphResult Neighborhood → GraphResult Neighborhood → Prop where
  | error (e : GraphError) : NeighborhoodsAlike (.error e) (.error e)
  | found (a b : Neighborhood) (halike : a.Alike b) : NeighborhoodsAlike (.ok a) (.ok b)

theorem Reordered.neighborhood (h : Reordered ctx st st') (now : DateTime) (rootId : String) (hops : ℕ) :
    NeighborhoodsAlike (st.neighborhood now ctx rootId hops) (st'.neighborhood now ctx rootId hops) := by
  unfold InMemoryGraphStore.neighborhood
  cases hroot : st.getNode ctx rootId with
  | none =>
    rw [h.node] at hroot
    rw [hroot]
    exact .error _
  | some root =>
    have hroot' : st'.getNode ctx rootId = some root := by rw [← h.node, hroot]
    rw [hroot']
    have hswept := (@swept_root _ _ now _ _ hroot).sweep h.once (clamp 1 6 hops)
    have hswept' := (@swept_root _ _ now _ _ hroot').sweep h.symm.once (clamp 1 6 hops)
    obtain ⟨hnodes, hedges⟩ := hswept.perm h hswept'
    exact .found _ _ ⟨rfl, rfl, hnodes, hedges⟩

end Reordered

/-! ## Ways -/

section Ways
variable {ctx : QueryContext} {now : DateTime} {st st' : InMemoryGraphStore} {fromId toId : String} {maxHops : ℕ}

variable (ctx now) in
/-- A target that was reached before is not come upon again. -/
theorem scanEdges_of_has (node : String → Option GraphNode) (cur : String) {d : ℕ} (es : List GraphEdge) {s : Search}
    (hto : s.dist.has toId = true) : ∃ s', scanEdges ctx now node toId cur d es s = (false, s') ∧
      s'.dist.has toId = true := by
  induction es generalizing s with
  | nil => exact ⟨s, rfl, hto⟩
  | cons e es ih =>
    simp only [scanEdges]
    split
    · exact ih hto
    · split
      · exact ih hto
      · split_ifs with hnode hseen htarget
        · exact ih hto
        · exact ih hto
        · exact absurd (htarget ▸ hto) hseen
        · exact ih (has_put hto)

theorem search_of_has {node : String → Option GraphNode} {all : List GraphEdge} (fuel : ℕ) {s : Search}
    (hto : s.dist.has toId = true) : search ctx now node toId maxHops all fuel s = none := by
  induction fuel generalizing s with
  | zero =>
    cases hq : s.queue with
    | nil => exact search_nil hq 0
    | cons cur rest => exact search_zero hq
  | succ fuel ih =>
    cases hq : s.queue with
    | nil => exact search_nil hq _
    | cons cur rest =>
      rw [search_succ hq]
      split_ifs
      · exact ih hto
      · obtain ⟨s', hscan, hto'⟩ := scanEdges_of_has ctx now node cur
          (d := (s.dist.get cur).getD 0) all (s := { s with queue := rest }) hto
        rw [hscan]
        exact ih hto'

/-- A shortest way within the hops, or none and no way. A node is not looked for from itself. -/
inductive Answered (st : InMemoryGraphStore) (ctx : QueryContext) (now : DateTime) (fromId toId : String)
    (maxHops : ℕ) : Option GraphPath → Prop where
  | way (p : GraphPath) (hne : fromId ≠ toId) (hto : (st.getNode ctx toId).isSome = true)
      (hwithin : p.edges.length ≤ clamp 1 6 maxHops) (hshortest : p.Shortest st ctx now fromId toId) :
      Answered st ctx now fromId toId maxHops (some p)
  | nothing (hnone : fromId = toId ∨ (st.getNode ctx fromId).isNone = true ∨ (st.getNode ctx toId).isNone = true ∨
      ¬ (sightGraph st ctx now).edist fromId toId ≤ clamp 1 6 maxHops) :
      Answered st ctx now fromId toId maxHops none

theorem answered_path (st : InMemoryGraphStore) (ctx : QueryContext) (now : DateTime) (fromId toId : String)
    (maxHops : ℕ) : ∃ answer, st.path now ctx fromId toId maxHops = .ok answer ∧
      Answered st ctx now fromId toId maxHops answer := by
  unfold InMemoryGraphStore.path
  dsimp only
  by_cases hshown : ((st.getNode ctx fromId).isNone || (st.getNode ctx toId).isNone) = true
  · rw [if_pos hshown]
    rw [Bool.or_eq_true] at hshown
    exact ⟨none, rfl, .nothing (.inr (hshown.imp_right .inl))⟩
  rw [if_neg hshown]
  obtain ⟨hfrom, hto⟩ := not_or.mp (mt Bool.or_eq_true_iff.mpr hshown)
  rw [Bool.not_eq_true, Option.isNone_eq_false_iff] at hfrom hto
  by_cases hne : fromId = toId
  · have hreached : (⟨∅, (∅ : KMap String ℕ).put fromId 0, [fromId]⟩ : Search).dist.has toId = true := by
      rw [← hne]
      exact KMap.has_iff.mpr ⟨0, KMap.get_put_self _ _ _⟩
    rw [search_of_has _ hreached]
    exact ⟨none, rfl, .nothing (.inl hne)⟩
  have hends : SearchEnds st ctx now fromId toId (clamp 1 6 maxHops) _ :=
    search_ends (atLevel_start hfrom hne) (roundsLeft_start st fromId)
  cases hsearch : search ctx now (st.getNode ctx) toId (clamp 1 6 maxHops) (st.allEdges ctx.tenantId)
      (st.pathFuel now ctx) ⟨∅, (∅ : KMap String ℕ).put fromId 0, [fromId]⟩ with
  | none =>
    rw [hsearch] at hends
    exact ⟨none, rfl, .nothing (.inr (.inr (.inr hends)))⟩
  | some found =>
    rw [hsearch] at hends
    obtain ⟨k, htrail, hget, hdist, hle⟩ := hends
    obtain ⟨ids, es, hback, hwalk, hlength⟩ := htrail.walkBack hget (.nil toId)
    rw [List.length_nil, Nat.add_zero] at hlength
    have hids := map_nodeId_filterMap (hwalk.shown hto)
    dsimp only
    rw [hget, Option.getD_some, hback]
    refine ⟨some _, rfl, .way _ hne hto (hlength.trans_le hle) ⟨fun n hn => ?_, ?_, ?_, ?_⟩⟩
    · obtain ⟨id, -, hid⟩ := List.mem_filterMap.mp hn
      rw [InMemoryGraphStore.nodeId_of_getNode hid, hid]
    · show EdgeWalk st ctx now fromId toId ((ids.filterMap (st.getNode ctx)).map GraphNode.nodeId) es
      rw [hids]
      exact hwalk
    · rw [← hwalk.length, ← congrArg List.length hids, List.length_map]
    · rw [hdist, hlength]

/-- A way but for the events of its edges. -/
def GraphPath.sansEvents (p : GraphPath) : GraphPath := ⟨p.nodes, p.edges.map GraphEdge.sansEvent⟩

/-- No way in either store, or a shortest one of the embedded store in both, if the events do not count. -/
inductive WaysAlike (st : InMemoryGraphStore) (ctx : QueryContext) (now : DateTime) (fromId toId : String) :
    GraphResult (Option GraphPath) → GraphResult (Option GraphPath) → Prop where
  | nothing : WaysAlike st ctx now fromId toId (.ok none) (.ok none)
  | ways (p q q' : GraphPath) (hp : p.Shortest st ctx now fromId toId) (hq : q.Shortest st ctx now fromId toId)
      (hsame : q'.sansEvents = q.sansEvents) : WaysAlike st ctx now fromId toId (.ok (some p)) (.ok (some q'))

theorem Reordered.edgeWalk (h : Reordered ctx st' st) {a b : String} {ids : List String} {es : List GraphEdge}
    (hwalk : EdgeWalk st' ctx now a b ids es) : ∃ es', es'.map GraphEdge.sansEvent = es.map GraphEdge.sansEvent ∧
      EdgeWalk st ctx now a b ids es' := by
  induction hwalk with
  | nil a => exact ⟨[], rfl, .nil a⟩
  | cons hlink hrest ih =>
    obtain ⟨e', hsame, hlink'⟩ := h.link hlink
    obtain ⟨es', hsame', hrest'⟩ := ih
    exact ⟨e' :: es', congrArg₂ List.cons hsame hsame', .cons hlink' hrest'⟩

theorem Reordered.shortest (h : Reordered ctx st' st) {p : GraphPath} (hp : p.Shortest st' ctx now fromId toId) :
    ∃ q : GraphPath, p.sansEvents = q.sansEvents ∧ q.Shortest st ctx now fromId toId := by
  obtain ⟨es, hsame, hwalk⟩ := h.edgeWalk hp.walk
  have hlength : es.length = p.edges.length := by
    rw [← es.length_map (f := GraphEdge.sansEvent), hsame, List.length_map]
  refine ⟨⟨p.nodes, es⟩, congrArg (GraphPath.mk p.nodes) hsame.symm, fun n hn => ?_, hwalk, ?_, ?_⟩
  · rw [← h.node]
    exact hp.shown n hn
  · rw [hlength]
    exact hp.length
  · rw [hlength, ← h.sightGraph]
    exact hp.shortest

theorem Answered.not_none (h : Answered st ctx now fromId toId maxHops none) {p : GraphPath} :
    ¬ Answered st ctx now fromId toId maxHops (some p) := by
  intro hway
  cases hway with
  | way p hne hto hwithin hshortest =>
  cases h with
  | nothing hnone =>
  rcases hnone with heq | hfrom | hto' | hfar
  · exact hne heq
  · have hids : ∃ ids, p.nodes.map GraphNode.nodeId = fromId :: ids := by
      have hwalk := hshortest.walk
      generalize p.nodes.map GraphNode.nodeId = ids, p.edges = es at hwalk
      cases hwalk with
      | nil => exact absurd rfl hne
      | cons hlink hrest => exact ⟨_, rfl⟩
    obtain ⟨ids, hids⟩ := hids
    obtain ⟨n, hn, hid⟩ := List.mem_map.mp (hids ▸ List.mem_cons_self (a := fromId) (l := ids))
    have hshown := hshortest.shown n hn
    rw [hid, Option.isNone_iff_eq_none.mp hfrom] at hshown
    cases hshown
  · rw [Option.isNone_iff_eq_none.mp hto'] at hto
    cases hto
  · exact hfar (hshortest.shortest.trans_le (Nat.cast_le.mpr hwithin))

/-- There is nothing to answer for one store if there is nothing for the other. -/
theorem Reordered.answered_none (h : Reordered ctx st st') (hnone : Answered st' ctx now fromId toId maxHops none) :
    Answered st ctx now fromId toId maxHops none := by
  cases hnone with
  | nothing hnone =>
    rw [← h.node, ← h.sightGraph] at hnone
    exact .nothing hnone

theorem Reordered.path (h : Reordered ctx st st') (now : DateTime) (fromId toId : String) (maxHops : ℕ) :
    WaysAlike st ctx now fromId toId (st.path now ctx fromId toId maxHops) (st'.path now ctx fromId toId maxHops) := by
  obtain ⟨answer, hpath, hanswer⟩ := answered_path st ctx now fromId toId maxHops
  obtain ⟨answer', hpath', hanswer'⟩ := answered_path st' ctx now fromId toId maxHops
  rw [hpath, hpath']
  cases answer with
  | none =>
    cases answer' with
    | none => exact .nothing
    | some q => exact absurd hanswer' (h.symm.answered_none hanswer).not_none
  | some p =>
    cases answer' with
    | none => exact absurd hanswer (h.answered_none hanswer').not_none
    | some q =>
      cases hanswer with
      | way _ _ _ _ hp =>
      cases hanswer' with
      | way _ _ _ _ hq =>
      obtain ⟨q', hsame, hq'⟩ := h.symm.shortest hq
      exact .ways p q' q hp hq' hsame

end Ways

/-! ## The production store as an embedded one -/

section Image
variable {ctx : QueryContext} {now : DateTime} {st : InMemoryGraphStore} {db : CrdbGraphStore}

theorem map_sansEvent_insertionSort (es : List GraphEdge) : (es.insertionSort edgeIdLe).map GraphEdge.sansEvent =
    (es.map GraphEdge.sansEvent).insertionSort edgeIdLe :=
  List.map_insertionSort _ _ _ es fun _ _ _ _ => Iff.rfl

/-- The stores hold the same nodes, and the same edges but for the events that they were written with. -/
structure SameGraph (st : InMemoryGraphStore) (db : CrdbGraphStore) : Prop where
  nodes : ∀ key, st.nodes.get key = db.nodes.get key
  edges : ∀ tenantId, ((st.allEdges tenantId).map GraphEdge.sansEvent).Perm
    ((db.loadEdges tenantId).map GraphEdge.sansEvent)

/-- These rows of a tenant in an embedded store. -/
def CrdbGraphStore.asMemory (db : CrdbGraphStore) (tenantId : String) (rows : List GraphEdge) : InMemoryGraphStore :=
  { InMemoryGraphStore.new with
    nodes := db.nodes
    edges := (∅ : KMap String (List GraphEdge)).put tenantId rows }

theorem allEdges_asMemory (db : CrdbGraphStore) (tenantId : String) (rows : List GraphEdge) :
    (db.asMemory tenantId rows).allEdges tenantId = rows := by
  unfold InMemoryGraphStore.allEdges CrdbGraphStore.asMemory
  dsimp only
  rw [KMap.get_put_self, Option.getD_some]

theorem getNode_asMemory (db : CrdbGraphStore) (ctx : QueryContext) (rows : List GraphEdge) :
    (db.asMemory ctx.tenantId rows).getNode ctx = db.getNode ctx := by
  funext nodeId
  unfold InMemoryGraphStore.getNode CrdbGraphStore.getNode CrdbGraphStore.asMemory
  dsimp only
  cases hrow : db.nodes.get (ctx.tenantId, nodeId) with
  | none => rfl
  | some n =>
    have htenant : n.tenantId = ctx.tenantId := congrArg Prod.fst (Table.key_of_get hrow)
    have hvisible : visibleNode ctx n = aclAllows ctx n.isPrivate n.allowedGroupIds := by
      simp [visibleNode, htenant]
    simp only [Option.filter_some, hvisible]

theorem neighborhood_asMemory (db : CrdbGraphStore) (now : DateTime) (ctx : QueryContext) (rows : List GraphEdge)
    (rootId : String) (hops : ℕ) : db.neighborhood now ctx rows rootId hops =
      (db.asMemory ctx.tenantId rows).neighborhood now ctx rootId hops := by
  have hnode := getNode_asMemory db ctx rows
  have hedges := allEdges_asMemory db ctx.tenantId rows
  cases hroot : db.getNode ctx rootId <;>
    simp only [CrdbGraphStore.neighborhood, InMemoryGraphStore.neighborhood, hnode, hedges, hroot]

section Loaded
variable {rows : List GraphEdge} (hrows : db.Loads ctx.tenantId rows)
include hrows

theorem CrdbGraphStore.Loads.followed_eq {e : GraphEdge} (he : e ∈ rows) :
    CrdbGraphStore.followed now ctx e = usableEdge ctx now e :=
  CrdbGraphStore.followed_eq (hrows.mem_iff.mp he)

variable (now) in
theorem pathFuel_asMemory :
    CrdbGraphStore.pathFuel now ctx rows = (db.asMemory ctx.tenantId rows).pathFuel now ctx := by
  unfold CrdbGraphStore.pathFuel InMemoryGraphStore.pathFuel
  rw [allEdges_asMemory]
  exact congrArg (· + 1) (List.countP_congr fun e he => by rw [hrows.followed_eq he])

variable (now) in
/-- Way by way the same, and no entry of the way back is ever missing. -/
theorem path_asMemory (fromId toId : String) (maxHops : ℕ) : db.path now ctx rows fromId toId maxHops =
      (db.asMemory ctx.tenantId rows).path now ctx fromId toId maxHops := by
  obtain ⟨answer, hpath, -⟩ := answered_path (db.asMemory ctx.tenantId rows) ctx now fromId toId maxHops
  rw [hpath]
  unfold InMemoryGraphStore.path at hpath
  unfold CrdbGraphStore.path
  rw [getNode_asMemory, allEdges_asMemory, ← pathFuel_asMemory now hrows] at hpath
  rw [← hpath]
  dsimp only
  split_ifs with hshown
  · rfl
  · rw [if_neg hshown] at hpath
    dsimp only at hpath
    cases hsearch : search ctx now (db.getNode ctx) toId (clamp 1 6 maxHops) rows
        (CrdbGraphStore.pathFuel now ctx rows) ⟨∅, (∅ : KMap String ℕ).put fromId 0, [fromId]⟩ with
    | none => rfl
    | some found =>
      rw [hsearch] at hpath
      dsimp only at hpath ⊢
      cases hback : walkBack found.prev fromId ((found.dist.get toId).getD 0) toId ([toId], []) with
      | none =>
        rw [hback] at hpath
        cases hpath
      | some way => rfl

end Loaded

theorem loadEdges_once (db : CrdbGraphStore) (tenantId : String) :
    ((db.loadEdges tenantId).map GraphEdge.edgeId).Nodup := by
  refine (List.nodup_map_iff_inj_on ((Table.values_nodup db.edges).filter _)).mpr fun a ha b hb hid => ?_
  exact edgeIdLe_antisymm ha hb hid.le hid.ge

section Loaded
variable {rows : List GraphEdge} (hrows : db.Loads ctx.tenantId rows)
include hrows

theorem SameGraph.reordered (h : SameGraph st db) : Reordered ctx st (db.asMemory ctx.tenantId rows) := by
  have hreordered : Reordered ctx (db.asMemory ctx.tenantId rows) st := by
    refine ⟨?_, ?_, ?_⟩
    · funext nodeId
      unfold InMemoryGraphStore.getNode CrdbGraphStore.asMemory
      rw [h.nodes]
    · rw [allEdges_asMemory]
      exact (hrows.map _).trans (h.edges ctx.tenantId).symm
    · rw [allEdges_asMemory, (hrows.map _).nodup_iff]
      exact loadEdges_once db ctx.tenantId
  exact hreordered.symm

/-- What is selected by the fields that both stores keep is the same in both. -/
theorem SameGraph.select (h : SameGraph st db) {p q : GraphEdge → Bool} (hp : ∀ e, p e.sansEvent = p e)
    (hpq : ∀ e ∈ rows, q e = p e) :
    (((st.allEdges ctx.tenantId).filter p).map GraphEdge.sansEvent).Perm
      ((rows.filter q).map GraphEdge.sansEvent) := by
  have hcomp : p ∘ GraphEdge.sansEvent = p := funext hp
  rw [List.filter_congr hpq, ← hcomp, ← List.filter_map, ← List.filter_map]
  exact ((h.edges ctx.tenantId).trans (hrows.map _).symm).filter p

theorem SameGraph.blockers (h : SameGraph st db) (now : DateTime) (forNodeId : String) :
    ((st.blockers now ctx forNodeId).map GraphEdge.sansEvent).Perm
      ((CrdbGraphStore.blockers now ctx rows forNodeId).map GraphEdge.sansEvent) := by
  unfold InMemoryGraphStore.blockers CrdbGraphStore.blockers
  refine h.select hrows (fun e => rfl) fun e he => ?_
  rw [hrows.followed_eq he]
  rfl

theorem SameGraph.listEdgesByType (h : SameGraph st db) (now : DateTime) (edgeType : String) (limit : ℕ) :
    (st.listEdgesByType now ctx edgeType limit).map GraphEdge.sansEvent =
      (CrdbGraphStore.listEdgesByType now ctx rows edgeType limit).map GraphEdge.sansEvent := by
  unfold InMemoryGraphStore.listEdgesByType CrdbGraphStore.listEdgesByType
  dsimp only
  rw [List.map_take, List.map_take, map_sansEvent_insertionSort, map_sansEvent_insertionSort]
  refine congrArg _ (insertionSort_congr (h.select hrows (fun e => rfl) fun e he => ?_).symm ?_).symm
  · rw [hrows.followed_eq he]
    rfl
  · intro x hx y hy hxy hyx
    obtain ⟨a, ha, rfl⟩ := List.mem_map.mp hx
    obtain ⟨b, hb, rfl⟩ := List.mem_map.mp hy
    rw [edgeIdLe_antisymm (hrows.mem_iff.mp (List.mem_of_mem_filter ha))
      (hrows.mem_iff.mp (List.mem_of_mem_filter hb)) hxy hyx]

end Loaded

end Image

/-! ## Stores that took the same mutations -/

section Run
variable (column : DateTime → DateTime)

/-- The times of the edge are as the columns keep them. -/
def TimesKept (e : GraphEdge) : Prop := column e.validFrom = e.validFrom ∧ e.validTo.map column = e.validTo

/-- Edges of one id are of one type and between the same ends. -/
def OneRelation (e e' : GraphEdge) : Prop :=
  e.key = e'.key → e.edgeType = e'.edgeType ∧ e.fromNodeId = e'.fromNodeId ∧ e.toNodeId = e'.toNodeId

/-- What the columns of the production store and its update of an edge do not lose. -/
structure EdgesKept (es : List GraphEdge) : Prop where
  times : ∀ e ∈ es, TimesKept column e
  relation : ∀ e ∈ es, ∀ e' ∈ es, OneRelation e e'

/-- The row of an edge after the statement. -/
def settleEdge (held : Option GraphEdge) (e : GraphEdge) : GraphEdge :=
  let excluded := { e with validFrom := column e.validFrom, validTo := e.validTo.map column }
  held.elim excluded (CrdbGraphStore.updateEdge · excluded)

variable {column}

theorem excluded_of_timesKept {e : GraphEdge} (h : TimesKept column e) :
    { e with validFrom := column e.validFrom, validTo := e.validTo.map column } = e := by
  rw [h.1, h.2]

variable (column) in
theorem key_settleEdge (db : CrdbGraphStore) (e : GraphEdge) :
    (settleEdge column (db.edges.get e.key) e).key = e.key := by
  unfold settleEdge
  cases hheld : db.edges.get e.key with
  | none => rfl
  | some existing =>
    have hkey : existing.key = e.key := Table.key_of_get hheld
    exact hkey

variable (column) in
theorem upsertEdge_get_self (db : CrdbGraphStore) (e : GraphEdge) :
    (db.upsertEdge column e).edges.get e.key = some (settleEdge column (db.edges.get e.key) e) := by
  show (db.edges.put (settleEdge column (db.edges.get e.key) e)).get e.key = _
  rw [Table.get_put, key_settleEdge, if_pos rfl]

variable (column) in
theorem upsertEdge_get_ne (db : CrdbGraphStore) {e : GraphEdge} {key : String × String} (hkey : e.key ≠ key) :
    (db.upsertEdge column e).edges.get key = db.edges.get key := by
  show (db.edges.put (settleEdge column (db.edges.get e.key) e)).get key = _
  rw [Table.get_put, key_settleEdge, if_neg hkey.symm]

variable (column) in
theorem applyMutation_edges_get (db : CrdbGraphStore) (m : GraphMutation) (key : String × String) :
    (db.applyMutation column m).edges.get key = register (settleEdge column) (db.edges.get key) (m.edgesAt key) := by
  have hstates : ∀ (db : CrdbGraphStore) s, (db.upsertState column s).edges = db.edges := by
    intro db s
    unfold CrdbGraphStore.upsertState
    split
    · rfl
    · split_ifs <;> rfl
  have hnodes : (m.nodes.foldl CrdbGraphStore.upsertNode db).edges = db.edges :=
    foldl_keeps CrdbGraphStore.upsertNode CrdbGraphStore.edges (fun _ _ => rfl) _ db
  unfold CrdbGraphStore.applyMutation
  rw [foldl_keeps (CrdbGraphStore.upsertState column) CrdbGraphStore.edges hstates, ← hnodes]
  refine read_foldl_filter (fun db : CrdbGraphStore => db.edges.get key) (fun e => e.key = key) ?_ ?_ m.edges _
  · intro db e he
    obtain rfl := of_decide_eq_true he
    exact upsertEdge_get_self column db e
  · intro db e he
    exact upsertEdge_get_ne column db (of_decide_eq_false he)

variable (column) in
theorem applyMutation_nodes_get (db : CrdbGraphStore) (m : GraphMutation) (key : String × String) :
    (db.applyMutation column m).nodes.get key = register (fun _ n => n) (db.nodes.get key) (m.nodesAt key) := by
  have hstates : ∀ (db : CrdbGraphStore) s, (db.upsertState column s).nodes = db.nodes := by
    intro db s
    unfold CrdbGraphStore.upsertState
    split
    · rfl
    · split_ifs <;> rfl
  unfold CrdbGraphStore.applyMutation
  rw [foldl_keeps (CrdbGraphStore.upsertState column) CrdbGraphStore.nodes hstates,
    foldl_keeps (CrdbGraphStore.upsertEdge column) CrdbGraphStore.nodes fun _ _ => rfl]
  refine read_foldl_filter (fun db : CrdbGraphStore => db.nodes.get key) (fun n => n.key = key) (fun db n hn => ?_)
    (fun db n hn => ?_) m.nodes db
  · rw [← of_decide_eq_true hn]
    exact Table.get_put_self _ _
  · exact Table.get_put_ne _ (Ne.symm (of_decide_eq_false hn))

/-- An update of an edge that was written before leaves the edge as it was last written, but for the event. -/
theorem sansEvent_settleEdge {held : Option GraphEdge} {e : GraphEdge} (htimes : TimesKept column e)
    (hheld : ∀ x ∈ held, ∃ y, y.sansEvent = x.sansEvent ∧ y.key = e.key ∧ OneRelation y e) :
    (settleEdge column held e).sansEvent = e.sansEvent := by
  unfold settleEdge
  dsimp only
  rw [excluded_of_timesKept htimes]
  cases held with
  | none => rfl
  | some x =>
    obtain ⟨y, hsame, hkey, hrelation⟩ := hheld x rfl
    obtain ⟨htype, hfrom, hto⟩ := hrelation hkey
    obtain ⟨htenant, hid⟩ := Prod.mk.inj hkey
    simp only [GraphEdge.sansEvent, GraphEdge.mk.injEq] at hsame
    simp only [Option.elim_some, CrdbGraphStore.updateEdge, GraphEdge.sansEvent, GraphEdge.mk.injEq]
    grind

/-- The writes of one edge leave the same edge in both stores, but for the event. -/
theorem register_sansEvent {es : List GraphEdge} (hkept : EdgesKept column es) {key : String × String}
    (hkey : ∀ e ∈ es, e.key = key) :
    (register (fun _ e => e) none es).map GraphEdge.sansEvent =
      (register (settleEdge column) none es).map GraphEdge.sansEvent := by
  induction es using List.reverseRecOn with
  | nil => rfl
  | append_singleton es e ih =>
    have hmem : e ∈ es ++ [e] := List.mem_append_right _ (List.mem_singleton_self e)
    have hsub : ∀ {x}, x ∈ es → x ∈ es ++ [e] := List.mem_append_left _
    have hbefore := ih ⟨fun x hx => hkept.times x (hsub hx), fun x hx y hy => hkept.relation x (hsub hx) y (hsub hy)⟩
      fun x hx => hkey x (hsub hx)
    rw [register_concat, register_concat, Option.map_some, Option.map_some,
      sansEvent_settleEdge (hkept.times e hmem) fun x hx => ?_]
    -- what the row holds, the last of the writes before left there
    rw [Option.mem_def.mp hx, register_last fun _ _ => rfl, Option.or_none, Option.map_some] at hbefore
    obtain ⟨y, hlast, hsame⟩ := Option.map_eq_some_iff.mp hbefore
    have hy : y ∈ es := List.mem_of_getLast? hlast
    exact ⟨y, hsame, (hkey y (hsub hy)).trans (hkey e hmem).symm, hkept.relation y (hsub hy) e hmem⟩

/-- The edges of a tenant, by what is filed under their ids. -/
theorem mem_map_allEdges {st : InMemoryGraphStore} (h : st.EdgesFiled) {tenantId : String} {x : GraphEdge} :
    x ∈ (st.allEdges tenantId).map GraphEdge.sansEvent ↔
      x.tenantId = tenantId ∧ (st.getEdge x.key).map GraphEdge.sansEvent = some x := by
  constructor
  · intro hx
    obtain ⟨e, he, rfl⟩ := List.mem_map.mp hx
    obtain rfl := h.tenant tenantId e he
    have hget := h.getEdge_of_mem he
    refine ⟨rfl, ?_⟩
    show (st.getEdge e.key).map _ = _
    rw [hget, Option.map_some]
  · rintro ⟨rfl, hget⟩
    obtain ⟨e, he, rfl⟩ := Option.map_eq_some_iff.mp hget
    exact List.mem_map_of_mem (List.mem_of_find?_eq_some he)

theorem mem_map_loadEdges {db : CrdbGraphStore} {tenantId : String} {x : GraphEdge} :
    x ∈ (db.loadEdges tenantId).map GraphEdge.sansEvent ↔
      x.tenantId = tenantId ∧ (db.edges.get x.key).map GraphEdge.sansEvent = some x := by
  constructor
  · intro hx
    obtain ⟨e, he, rfl⟩ := List.mem_map.mp hx
    obtain ⟨hget, rfl⟩ := mem_loadEdges he
    refine ⟨rfl, ?_⟩
    show (db.edges.get e.key).map _ = _
    exact congrArg (Option.map GraphEdge.sansEvent) hget
  · rintro ⟨rfl, hget⟩
    obtain ⟨e, he, rfl⟩ := Option.map_eq_some_iff.mp hget
    refine List.mem_map_of_mem (List.mem_filter.mpr ⟨Table.mem_values.mpr ?_, decide_eq_true rfl⟩)
    exact he

/-- The same mutations leave the same graph in both stores. -/
theorem sameGraph_run {ms : List GraphMutation} (hkept : EdgesKept column (ms.flatMap GraphMutation.edges)) :
    SameGraph (ms.foldl InMemoryGraphStore.applyMutation .new)
      (ms.foldl (CrdbGraphStore.applyMutation column) .new) := by
  have hfiled : (ms.foldl InMemoryGraphStore.applyMutation .new).EdgesFiled :=
    InMemoryGraphStore.EdgesFiled.foldl (fun m h => h.applyMutation m) ms InMemoryGraphStore.edgesFiled_new
  have hedges : ∀ key, ((ms.foldl InMemoryGraphStore.applyMutation .new).getEdge key).map GraphEdge.sansEvent =
      ((ms.foldl (CrdbGraphStore.applyMutation column) .new).edges.get key).map GraphEdge.sansEvent := by
    intro key
    have hmine : ∀ e ∈ ms.flatMap (·.edgesAt key), e ∈ ms.flatMap GraphMutation.edges ∧ e.key = key := by
      intro e he
      obtain ⟨m, hm, he⟩ := List.mem_flatMap.mp he
      obtain ⟨he, hkey⟩ := List.mem_filter.mp he
      exact ⟨List.mem_flatMap.mpr ⟨m, hm, he⟩, of_decide_eq_true hkey⟩
    rw [read_foldl (InMemoryGraphStore.getEdge · key) _
        (fun st m => InMemoryGraphStore.applyMutation_edges st m key) ms,
      read_foldl (fun db : CrdbGraphStore => db.edges.get key) _
        (fun db m => applyMutation_edges_get column db m key) ms]
    exact register_sansEvent ⟨fun e he => hkept.times e (hmine e he).1,
      fun e he e' he' => hkept.relation e (hmine e he).1 e' (hmine e' he').1⟩ fun e he => (hmine e he).2
  refine ⟨fun key => ?_, fun tenantId => ?_⟩
  · rw [read_foldl (fun st : InMemoryGraphStore => st.nodes.get key) _
        (fun st m => InMemoryGraphStore.applyMutation_nodes st m key) ms,
      read_foldl (fun db : CrdbGraphStore => db.nodes.get key) _
        (fun db m => applyMutation_nodes_get column db m key) ms]
    rfl
  · have honce := hfiled.once tenantId
    have honce' := loadEdges_once (ms.foldl (CrdbGraphStore.applyMutation column) .new) tenantId
    rw [← map_edgeId_sansEvent] at honce honce'
    refine (List.perm_ext_iff_of_nodup (honce.of_map _) (honce'.of_map _)).mpr fun x => ?_
    rw [mem_map_allEdges hfiled, mem_map_loadEdges, hedges]

end Run

/-! ## Calls that may not return -/

/-- What calls on the embedded store, one after the other, may leave there. -/
inductive AppliesAll (sh : StoreShards) (io : PersistIo) :
    InMemoryGraphStore → List GraphMutation → InMemoryGraphStore → Prop
  | nil (st : InMemoryGraphStore) : AppliesAll sh io st [] st
  | cons {st st' st'' : InMemoryGraphStore} {m : GraphMutation} {ms : List GraphMutation}
      (h : Applies sh io st m st') (hrest : AppliesAll sh io st' ms st'') : AppliesAll sh io st (m :: ms) st''

/-- Two stores with the same nodes and edges. -/
structure SameNodesEdges (st st' : InMemoryGraphStore) : Prop where
  nodes : st.nodes = st'.nodes
  edges : st.edges = st'.edges

section Calls
variable {sh : StoreShards} {io : PersistIo} {st st' st₀ : InMemoryGraphStore}

theorem SameNodesEdges.foldl {α : Type} (step : InMemoryGraphStore → α → InMemoryGraphStore)
    (hstep : ∀ st st' x, SameNodesEdges st st' → SameNodesEdges (step st x) (step st' x)) (xs : List α) :
    ∀ {st st'}, SameNodesEdges st st' → SameNodesEdges (xs.foldl step st) (xs.foldl step st') := by
  induction xs with
  | nil => exact fun h => h
  | cons x xs ih => exact fun h => ih (hstep _ _ x h)

/-- However many of the states are merged. -/
theorem SameNodesEdges.applyMutation (h : SameNodesEdges st st') (m : GraphMutation) (n : ℕ) :
    SameNodesEdges (st.applyMutation (m.upTo n)) (st'.applyMutation m) := by
  have hnodes : SameNodesEdges (m.nodes.foldl InMemoryGraphStore.insertNode st)
      (m.nodes.foldl InMemoryGraphStore.insertNode st') := by
    refine SameNodesEdges.foldl InMemoryGraphStore.insertNode (fun st st' x h => ⟨?_, h.edges⟩) _ h
    exact congrArg (·.put x) h.nodes
  have hedges : SameNodesEdges (m.edges.foldl InMemoryGraphStore.insertEdge (m.nodes.foldl InMemoryGraphStore.insertNode st))
      (m.edges.foldl InMemoryGraphStore.insertEdge (m.nodes.foldl InMemoryGraphStore.insertNode st')) := by
    refine SameNodesEdges.foldl InMemoryGraphStore.insertEdge (fun st st' x h => ⟨h.nodes, ?_⟩) _ hnodes
    unfold InMemoryGraphStore.insertEdge
    rw [h.edges]
  unfold InMemoryGraphStore.applyMutation
  constructor
  · rw [foldl_keeps InMemoryGraphStore.mergeState InMemoryGraphStore.nodes
        fun st s => (InMemoryGraphStore.mergeState_frame st s).2.1,
      foldl_keeps InMemoryGraphStore.mergeState InMemoryGraphStore.nodes
        fun st s => (InMemoryGraphStore.mergeState_frame st s).2.1]
    exact hedges.nodes
  · rw [foldl_keeps InMemoryGraphStore.mergeState InMemoryGraphStore.edges
        fun st s => (InMemoryGraphStore.mergeState_frame st s).2.2,
      foldl_keeps InMemoryGraphStore.mergeState InMemoryGraphStore.edges
        fun st s => (InMemoryGraphStore.mergeState_frame st s).2.2]
    exact hedges.edges

/-- Nodes and edges are those of calls that all return. -/
theorem AppliesAll.sameNodesEdges {ms : List GraphMutation} (h : AppliesAll sh io st ms st')
    (hsame : SameNodesEdges st st₀) :
    SameNodesEdges st' (ms.foldl InMemoryGraphStore.applyMutation st₀) := by
  induction h generalizing st₀ with
  | nil st => exact hsame
  | @cons _ _ _ m _ hcall hrest ih =>
    obtain ⟨n, d, rfl⟩ := hcall.exists_upTo
    have hstep := hsame.applyMutation m n
    exact ih ⟨hstep.nodes, hstep.edges⟩

theorem SameNodesEdges.sameGraph (h : SameNodesEdges st st₀) {db : CrdbGraphStore} (hsame : SameGraph st₀ db) :
    SameGraph st db := by
  refine ⟨fun key => ?_, fun tenantId => ?_⟩
  · rw [h.nodes]
    exact hsame.nodes key
  · have hedges : st.allEdges tenantId = st₀.allEdges tenantId := by
      unfold InMemoryGraphStore.allEdges
      rw [h.edges]
    rw [hedges]
    exact hsame.edges tenantId

end Calls

/-- **Two walkers, one graph.** After the same mutations, in whatever order the database returns the rows and whether
or not the calls on the embedded store return, the stores find the same around a root, ways of one length between two
nodes, and the same blockers and edges of a type. -/
theorem walks_agree (sh : StoreShards) (io : PersistIo) (column : DateTime → DateTime) (ms : List GraphMutation)
    (hkept : EdgesKept column (ms.flatMap GraphMutation.edges)) {st : InMemoryGraphStore}
    (hst : AppliesAll sh io .new ms st) (now : DateTime) (ctx : QueryContext) {rows : List GraphEdge}
    (hrows : (ms.foldl (CrdbGraphStore.applyMutation column) .new).Loads ctx.tenantId rows) :
    let db := ms.foldl (CrdbGraphStore.applyMutation column) .new
    (∀ rootId hops, NeighborhoodsAlike (st.neighborhood now ctx rootId hops)
        (db.neighborhood now ctx rows rootId hops)) ∧
      (∀ fromId toId maxHops, WaysAlike st ctx now fromId toId (st.path now ctx fromId toId maxHops)
        (db.path now ctx rows fromId toId maxHops)) ∧
      (∀ forNodeId, ((st.blockers now ctx forNodeId).map GraphEdge.sansEvent).Perm
        ((CrdbGraphStore.blockers now ctx rows forNodeId).map GraphEdge.sansEvent)) ∧
      ∀ edgeType limit, (st.listEdgesByType now ctx edgeType limit).map GraphEdge.sansEvent =
        (CrdbGraphStore.listEdgesByType now ctx rows edgeType limit).map GraphEdge.sansEvent := by
  intro db
  have hsame : SameGraph st db := (hst.sameNodesEdges ⟨rfl, rfl⟩).sameGraph (sameGraph_run hkept)
  have hreordered := hsame.reordered hrows
  refine ⟨fun rootId hops => ?_, fun fromId toId maxHops => ?_, hsame.blockers hrows now,
    hsame.listEdgesByType hrows now⟩
  · rw [neighborhood_asMemory]
    exact hreordered.neighborhood now rootId hops
  · rw [path_asMemory now hrows]
    exact hreordered.path now fromId toId maxHops

/-- An edge that two events write. -/
def rewrittenGraph : List GraphMutation :=
  let node (id : String) : GraphNode := ⟨"ten_1", id, "Issue", id, "", .null, false, [], 0⟩
  let edge (eventId : String) (validFrom : DateTime) : GraphEdge :=
    ⟨"ten_1", "es_1", "BLOCKS", "a", "b", validFrom, none, eventId, .null, false, [], 0⟩
  [⟨[node "a", node "b"], [edge "ev_1" 1000], []⟩, ⟨[], [edge "ev_2" 2000], []⟩]

theorem walks_agree_rewritten :
    let db := rewrittenGraph.foldl (CrdbGraphStore.applyMutation DateTime.truncMicros) .new
    let st := rewrittenGraph.foldl InMemoryGraphStore.applyMutation .new
    WaysAlike st ⟨"ten_1", "gu_1", []⟩ 5000 "a" "b" (st.path 5000 ⟨"ten_1", "gu_1", []⟩ "a" "b" 3)
      (db.path 5000 ⟨"ten_1", "gu_1", []⟩ (db.loadEdges "ten_1").reverse "a" "b" 3) := by
  let sh : StoreShards := ⟨StoreLocks.oneShard, StoreLocks.oneShard, StoreLocks.oneShard, StoreLocks.oneShard⟩
  refine (walks_agree sh ⟨0, fun _ _ => .ok ()⟩ DateTime.truncMicros rewrittenGraph ⟨?_, ?_⟩ ?_ 5000
    ⟨"ten_1", "gu_1", []⟩ (List.reverse_perm _)).2.1 "a" "b" 3
  · intro e he
    simp only [rewrittenGraph, List.flatMap_cons, List.flatMap_nil, List.append_nil, List.cons_append,
      List.nil_append, List.mem_cons, List.not_mem_nil, or_false] at he
    rcases he with rfl | rfl <;> exact ⟨by decide, rfl⟩
  · intro e he e' he' _
    simp only [rewrittenGraph, List.flatMap_cons, List.flatMap_nil, List.append_nil, List.cons_append,
      List.nil_append, List.mem_cons, List.not_mem_nil, or_false] at he he'
    rcases he with rfl | rfl <;> rcases he' with rfl | rfl <;> exact ⟨rfl, rfl, rfl⟩
  · exact .cons (.blocked 0) (.cons (.blocked 0) (.nil _))

end AiManager.Graph
