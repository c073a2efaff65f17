import AiManager.Graph.StoreCrdb
import AiManager.Lib.OrderLimit

/-! # Two readers of one graph

The embedded store selects what a person may see and cuts that off; the production store cuts off first.
`readers_agree_iff` says for which contents and arguments the answers are the same rows. -/

namespace AiManager.Graph

open Lib

/-- The stores hold the same rows. -/
structure SameContent (st : InMemoryGraphStore) (db : CrdbGraphStore) : Prop where
  nodes : ∀ key, st.nodes.get key = db.nodes.get key
  edges : ∀ tenantId, (st.allEdges tenantId).Perm (db.loadEdges tenantId)
  states : ∀ key, st.states.get key = db.states.get key

section Readers
variable (lower : String → String) (ctx : QueryContext) (st : InMemoryGraphStore) (db : CrdbGraphStore)

/-- The rows that the person may see, of those of the tenant. -/
def visibleRows : List GraphNode := (db.nodesOf ctx.tenantId).filter fun n => visibleNode ctx n

/-! ## One state -/

/-- Behind a node that cannot be seen there is no state that can. -/
def StateAlike (nodeId stateKey : String) : Prop :=
  db.getNode ctx nodeId = none →
    ∀ s ∈ db.states.get (ctx.tenantId, nodeId, stateKey), visibleState ctx s = false

variable {ctx st db}

theorem getNode_eq (h : SameContent st db) (nodeId : String) :
    st.getNode ctx nodeId = db.getNode ctx nodeId := by
  unfold InMemoryGraphStore.getNode CrdbGraphStore.getNode
  rw [h.nodes]
  cases hrow : db.nodes.get (ctx.tenantId, nodeId) with
  | none => rfl
  | some n =>
    have htenant : n.tenantId = ctx.tenantId := congrArg Prod.fst (Table.key_of_get hrow)
    have hvisible : visibleNode ctx n = aclAllows ctx n.isPrivate n.allowedGroupIds := by
      simp [visibleNode, htenant]
    simp only [Option.filter_some, hvisible]

theorem getState_eq_iff (h : SameContent st db) (nodeId stateKey : String) :
    db.getState ctx nodeId stateKey = st.getState ctx nodeId stateKey ↔
      StateAlike ctx db nodeId stateKey := by
  unfold CrdbGraphStore.getState InMemoryGraphStore.getState StateAlike
  rw [getNode_eq h, h.states]
  cases hnode : db.getNode ctx nodeId with
  | some n => exact iff_of_true rfl (fun hnone => nomatch hnone)
  | none =>
    cases hstate : db.states.get (ctx.tenantId, nodeId, stateKey) with
    | none => simp
    | some s => cases hvisible : visibleState ctx s <;> simp [hvisible, Option.filter_some]

/-! ## Nodes of a type -/

variable (ctx db)

/-- The rows of a type, as the database compares types. -/
def typedRows (nodeType : String) : List GraphNode :=
  (db.nodesOf ctx.tenantId).filter fun n => lower n.nodeType = lower nodeType

/-- Visible rows among the first ones are of the type up to ASCII case, and either all of the first ones
are visible, or no visible row of the type comes after them. -/
def ListAlike (nodeType : String) (limit : Nat) : Prop :=
  let first := AmongFirst nodeIdLe (typedRows lower ctx db nodeType) (clamp 1 500 limit)
  (∀ n, first n → visibleNode ctx n = true → Text.eqIgnoreAsciiCase n.nodeType nodeType = true) ∧
  ((∀ n ∈ visibleRows ctx db, Text.eqIgnoreAsciiCase n.nodeType nodeType = true → first n) ∨
    ∀ n, first n → visibleNode ctx n = true)

variable {lower ctx db}

theorem mem_nodesOf {n : GraphNode} {tenantId : String} : n ∈ db.nodesOf tenantId ↔
    db.nodes.get (tenantId, n.nodeId) = some n ∧ n.tenantId = tenantId := by
  unfold CrdbGraphStore.nodesOf
  rw [List.mem_filter, Table.mem_values, decide_eq_true_eq]
  constructor
  · rintro ⟨hrow, rfl⟩
    exact ⟨hrow, rfl⟩
  · rintro ⟨hrow, rfl⟩
    exact ⟨hrow, rfl⟩

theorem nodesOf_nodup (tenantId : String) : (db.nodesOf tenantId).Nodup :=
  db.nodes.values_nodup.filter _

/-- Node ids tell the rows of a tenant apart. -/
theorem row_of_nodeId {a b : GraphNode} {tenantId : String} (ha : a ∈ db.nodesOf tenantId)
    (hb : b ∈ db.nodesOf tenantId) (hid : a.nodeId = b.nodeId) : a = b := by
  have ha' := (mem_nodesOf.mp ha).1
  rw [hid, (mem_nodesOf.mp hb).1] at ha'
  exact (Option.some.inj ha').symm

theorem nodeIdLe_antisymm {a b : GraphNode} {tenantId : String} (ha : a ∈ db.nodesOf tenantId)
    (hb : b ∈ db.nodesOf tenantId) (hab : nodeIdLe a b) (hba : nodeIdLe b a) : a = b :=
  row_of_nodeId ha hb (le_antisymm hab hba)

theorem orderByNodeId_orderLimit (rows : List GraphNode) (limit : Nat) :
    OrderLimit nodeIdLe limit rows (CrdbGraphStore.orderByNodeId rows limit) :=
  OrderLimit.insertionSort limit rows

theorem mem_orderByNodeId {rows : List GraphNode} {tenantId : String} (hnodup : rows.Nodup)
    (hrows : rows ⊆ db.nodesOf tenantId) {limit : Nat} {n : GraphNode} :
    n ∈ CrdbGraphStore.orderByNodeId rows limit ↔ AmongFirst nodeIdLe rows limit n :=
  mem_take_insertionSort_iff hnodup fun _ ha _ hb => nodeIdLe_antisymm (hrows ha) (hrows hb)

/-- The visible rows of the tenant in the embedded store. -/
theorem visibleRows_perm (h : SameContent st db) (p : GraphNode → Bool) :
    (st.nodes.values.filter fun n => decide (n.tenantId = ctx.tenantId) && p n
      && visibleNode ctx n).Perm ((visibleRows ctx db).filter p) := by
  have hfilter : (visibleRows ctx db).filter p = db.nodes.values.filter fun n =>
      decide (n.tenantId = ctx.tenantId) && p n && visibleNode ctx n := by
    unfold visibleRows CrdbGraphStore.nodesOf
    rw [List.filter_filter, List.filter_filter]
    refine List.filter_congr fun n _ => ?_
    cases p n <;> cases visibleNode ctx n <;> simp
  rw [hfilter]
  exact (Table.values_perm h.nodes).filter _

theorem mem_visibleRows {n : GraphNode} : n ∈ visibleRows ctx db ↔
    n ∈ db.nodesOf ctx.tenantId ∧ visibleNode ctx n = true := List.mem_filter

theorem visibleRows_nodup : (visibleRows ctx db).Nodup := (nodesOf_nodup _).filter _

/-- For the rows of its tenant a person needs no more than the access rule. -/
theorem filter_aclAllows {rows : List GraphNode} (hrows : rows ⊆ db.nodesOf ctx.tenantId) :
    rows.filter (fun n => aclAllows ctx n.isPrivate n.allowedGroupIds) =
      rows.filter (visibleNode ctx) := by
  refine List.filter_congr fun n hn => ?_
  simp [visibleNode, (mem_nodesOf.mp (hrows hn)).2]

theorem listNodesByType_perm_iff (h : SameContent st db)
    (hlower : ∀ a b, Text.eqIgnoreAsciiCase a b = true → lower a = lower b) (nodeType : String)
    (limit : Nat) : (db.listNodesByType lower ctx nodeType limit).Perm
      (st.listNodesByType ctx nodeType limit) ↔ ListAlike lower ctx db nodeType limit := by
  have hrows : typedRows lower ctx db nodeType ⊆ db.nodesOf ctx.tenantId :=
    List.filter_sublist.subset
  have hnodup : (typedRows lower ctx db nodeType).Nodup := (nodesOf_nodup _).filter _
  let ofType : GraphNode → Bool := fun n => Text.eqIgnoreAsciiCase n.nodeType nodeType
  -- the database limits the rows of the type and filters what is left; the embedded store filters first
  have hfirst := orderByNodeId_orderLimit (typedRows lower ctx db nodeType) (clamp 1 500 limit)
  have hmemory : OrderLimit nodeIdLe (clamp 1 500 limit) ((visibleRows ctx db).filter ofType)
      (st.listNodesByType ctx nodeType limit) :=
    (OrderLimit.insertionSort _ _).congr_rows (visibleRows_perm h ofType)
  have hmatching : ∀ n, n ∈ (visibleRows ctx db).filter ofType ↔
      n ∈ visibleRows ctx db ∧ ofType n = true := fun n => List.mem_filter
  have hpass : ∀ n ∈ (visibleRows ctx db).filter ofType,
      n ∈ typedRows lower ctx db nodeType ∧ visibleNode ctx n = true := by
    intro n hn
    obtain ⟨hvisible, htype⟩ := (hmatching n).mp hn
    obtain ⟨hrow, hallowed⟩ := mem_visibleRows.mp hvisible
    exact ⟨List.mem_filter.mpr ⟨hrow, decide_eq_true (hlower _ _ htype)⟩, hallowed⟩
  have hunique : ∀ a ∈ (visibleRows ctx db).filter ofType, ∀ b ∈ (visibleRows ctx db).filter ofType,
      nodeIdLe a b → nodeIdLe b a → a = b := fun a ha b hb =>
    nodeIdLe_antisymm (hrows (hpass a ha).1) (hrows (hpass b hb).1)
  have hanswer : db.listNodesByType lower ctx nodeType limit =
      (CrdbGraphStore.orderByNodeId (typedRows lower ctx db nodeType) (clamp 1 500 limit)).filter
        (visibleNode ctx) := filter_aclAllows fun n hn => hrows (hfirst.subset hn)
  rw [hanswer, hfirst.filter_perm_iff hmemory hnodup (visibleRows_nodup.filter _) hunique hpass]
  simp only [mem_orderByNodeId hnodup hrows]
  refine and_congr ?_ (or_congr ?_ ?_)
  · refine forall₃_congr fun n hn hvisible => ?_
    rw [hmatching, mem_visibleRows]
    exact ⟨fun h => h.2, fun h => ⟨⟨hrows hn.1, hvisible⟩, h⟩⟩
  · constructor
    · intro hsub n hn htype
      exact (mem_orderByNodeId hnodup hrows).mp (hsub ((hmatching n).mpr ⟨hn, htype⟩))
    · intro hall n hn
      obtain ⟨hvisible, htype⟩ := (hmatching n).mp hn
      exact (mem_orderByNodeId hnodup hrows).mpr (hall n hvisible htype)
  · refine and_iff_left fun a ha b hb hout => ?_
    exact hfirst.left_out ((mem_orderByNodeId hnodup hrows).mpr ha) (hpass b hb).1
      fun hmem => hout ((mem_orderByNodeId hnodup hrows).mp hmem)

/-- Both answers are in the order of their node ids. -/
theorem listNodesByType_eq_iff (h : SameContent st db)
    (hlower : ∀ a b, Text.eqIgnoreAsciiCase a b = true → lower a = lower b) (nodeType : String)
    (limit : Nat) : db.listNodesByType lower ctx nodeType limit =
      st.listNodesByType ctx nodeType limit ↔ ListAlike lower ctx db nodeType limit := by
  rw [← listNodesByType_perm_iff h hlower]
  refine ⟨fun heq => heq ▸ List.Perm.refl _, fun hperm => ?_⟩
  have hfirst := orderByNodeId_orderLimit (typedRows lower ctx db nodeType) (clamp 1 500 limit)
  have hrows : ∀ n ∈ db.listNodesByType lower ctx nodeType limit, n ∈ db.nodesOf ctx.tenantId :=
    fun n hn => List.mem_of_mem_filter (hfirst.subset (List.mem_of_mem_filter hn))
  refine hperm.eq_of_pairwise (fun a b ha hb hab hba => ?_) (hfirst.pairwise.filter _)
    (OrderLimit.insertionSort _ _).pairwise
  exact nodeIdLe_antisymm (hrows a ha) (hrows b (hperm.mem_iff.mpr hb)) hab hba

/-! ## Snapshots -/

variable (ctx db) in
/-- Either no visible row comes after the first ones by node id, or all of those are visible and come first
in the order of the story too. -/
def NodesAlike (nodeLimit : Nat) : Prop :=
  let first := AmongFirst nodeIdLe (db.nodesOf ctx.tenantId) (clamp 1 2000 nodeLimit)
  (∀ n ∈ visibleRows ctx db, first n) ∨ (∀ n, first n → visibleNode ctx n = true) ∧
    ∀ a, first a → ∀ b ∈ visibleRows ctx db, ¬ first b → thenBy typeRank nodeIdLe a b

variable (ctx db) in
/-- The visible nodes among the first ones by node id. -/
def shownNodes (nodeLimit : Nat) : List GraphNode :=
  (visibleRows ctx db).filter fun n =>
    ahead nodeIdLe (db.nodesOf ctx.tenantId) n < clamp 1 2000 nodeLimit

/-- Both ends are among the nodes. -/
def between (nodes : List GraphNode) (e : GraphEdge) : Bool :=
  nodes.any (fun n => n.nodeId = e.fromNodeId) && nodes.any (fun n => n.nodeId = e.toNodeId)

/-- The edges that can be followed between shown nodes. -/
def innerEdges (now : DateTime) (ctx : QueryContext) (st : InMemoryGraphStore) (db : CrdbGraphStore)
    (nodeLimit : Nat) : List GraphEdge :=
  (st.allEdges ctx.tenantId).filter fun e =>
    usableEdge ctx now e && between (shownNodes ctx db nodeLimit) e

/-- The edges that the embedded store chooses from: it looks at the ends where the nodes fill their limit
only. -/
def candidateEdges (now : DateTime) (ctx : QueryContext) (st : InMemoryGraphStore) (db : CrdbGraphStore)
    (nodeLimit : Nat) : List GraphEdge :=
  if (shownNodes ctx db nodeLimit).length = clamp 1 2000 nodeLimit then
    innerEdges now ctx st db nodeLimit
  else (st.allEdges ctx.tenantId).filter (usableEdge ctx now)

/-- Either there are no candidates but the edges between shown nodes and the limit cuts none of those off,
or they reach the limit and the first ones by edge id come first in the order of the story too. -/
def EdgesAlike (now : DateTime) (ctx : QueryContext) (st : InMemoryGraphStore) (db : CrdbGraphStore)
    (nodeLimit edgeLimit : Nat) : Prop :=
  let inner := innerEdges now ctx st db nodeLimit
  let candidates := candidateEdges now ctx st db nodeLimit
  let limit := clamp 1 4000 edgeLimit
  (candidates ⊆ inner ∧ inner.length ≤ limit) ∨ limit ≤ inner.length ∧
    ∀ a, AmongFirst edgeIdLe inner limit a → ∀ b ∈ candidates, ¬ AmongFirst edgeIdLe inner limit b →
      StableBefore (thenBy edgeRank newerOrSame) candidates a b

theorem shownNodes_perm (nodeLimit : Nat) : (shownNodes ctx db nodeLimit).Perm
    ((CrdbGraphStore.orderByNodeId (db.nodesOf ctx.tenantId) (clamp 1 2000 nodeLimit)).filter
      (visibleNode ctx)) := by
  have hnodup : (CrdbGraphStore.orderByNodeId (db.nodesOf ctx.tenantId)
      (clamp 1 2000 nodeLimit)).Nodup := by
    refine List.Nodup.sublist (List.take_sublist _ _) ?_
    exact (List.perm_insertionSort _ _).nodup_iff.mpr (nodesOf_nodup _)
  refine (List.perm_ext_iff_of_nodup (visibleRows_nodup.filter _) (hnodup.filter _)).mpr fun n => ?_
  rw [List.mem_filter, List.mem_filter, mem_visibleRows,
    mem_orderByNodeId (nodesOf_nodup _) (List.Subset.refl _), decide_eq_true_eq, AmongFirst]
  tauto

theorem snapshot_nodes_perm_iff (h : SameContent st db) (now : DateTime) (nodeLimit edgeLimit : Nat) :
    (db.snapshot now ctx nodeLimit edgeLimit).1.Perm (st.snapshot now ctx nodeLimit edgeLimit).1 ↔
      NodesAlike ctx db nodeLimit := by
  -- one limit by id before the access rule, one by type and id after it
  have hfirst := orderByNodeId_orderLimit (db.nodesOf ctx.tenantId) (clamp 1 2000 nodeLimit)
  have hmemory : OrderLimit (thenBy typeRank nodeIdLe) (clamp 1 2000 nodeLimit) (visibleRows ctx db)
      (st.snapshot now ctx nodeLimit edgeLimit).1 := by
    have hperm : (st.nodes.values.filter fun n => decide (n.tenantId = ctx.tenantId)
        && visibleNode ctx n).Perm (visibleRows ctx db) := by
      simpa only [Bool.and_true, List.filter_true] using visibleRows_perm h fun _ => true
    exact (OrderLimit.insertionSort _ _).congr_rows hperm
  have hunique : ∀ a ∈ visibleRows ctx db, ∀ b ∈ visibleRows ctx db,
      thenBy typeRank nodeIdLe a b → thenBy typeRank nodeIdLe b a → a = b := by
    intro a ha b hb hab hba
    rcases hab with hlt | ⟨hrank, hab⟩
    · rcases hba with hlt' | ⟨hrank', -⟩
      · exact absurd hlt' hlt.not_gt
      · exact absurd hrank' hlt.ne'
    · rcases hba with hlt' | ⟨-, hba⟩
      · exact absurd hrank hlt'.ne'
      · exact nodeIdLe_antisymm (mem_visibleRows.mp ha).1 (mem_visibleRows.mp hb).1 hab hba
  have hanswer : (db.snapshot now ctx nodeLimit edgeLimit).1 =
      (CrdbGraphStore.orderByNodeId (db.nodesOf ctx.tenantId) (clamp 1 2000 nodeLimit)).filter
        (visibleNode ctx) := filter_aclAllows fun n hn => hfirst.subset hn
  have hmem : ∀ n, n ∈ CrdbGraphStore.orderByNodeId (db.nodesOf ctx.tenantId)
      (clamp 1 2000 nodeLimit) ↔
      AmongFirst nodeIdLe (db.nodesOf ctx.tenantId) (clamp 1 2000 nodeLimit) n := fun _ =>
    mem_orderByNodeId (nodesOf_nodup _) (List.Subset.refl _)
  rw [hanswer, hfirst.filter_perm_iff hmemory (nodesOf_nodup _) visibleRows_nodup hunique
    fun n hn => mem_visibleRows.mp hn]
  unfold NodesAlike
  simp only [hmem, List.subset_def]
  refine and_iff_right fun n hn hvisible => ?_
  exact mem_visibleRows.mpr ⟨hn.1, hvisible⟩

theorem between_congr {ns ns' : List GraphNode} (h : ns.Perm ns') : between ns = between ns' := by
  funext e
  unfold between
  rw [h.any_eq, h.any_eq]

theorem mem_loadEdges {e : GraphEdge} {tenantId : String} (he : e ∈ db.loadEdges tenantId) :
    db.edges.get (tenantId, e.edgeId) = some e ∧ e.tenantId = tenantId := by
  obtain ⟨hrow, htenant⟩ := List.mem_filter.mp he
  obtain rfl := of_decide_eq_true htenant
  exact ⟨Table.mem_values.mp hrow, rfl⟩

/-- Edge ids tell the rows of a tenant apart. -/
theorem edgeIdLe_antisymm {a b : GraphEdge} {tenantId : String} (ha : a ∈ db.loadEdges tenantId)
    (hb : b ∈ db.loadEdges tenantId) (hab : edgeIdLe a b) (hba : edgeIdLe b a) : a = b := by
  have hid : a.edgeId = b.edgeId := le_antisymm hab hba
  have ha' := (mem_loadEdges ha).1
  rw [hid, (mem_loadEdges hb).1] at ha'
  exact (Option.some.inj ha').symm

theorem snapshot_nodes_shown (now : DateTime) (nodeLimit edgeLimit : Nat) :
    (db.snapshot now ctx nodeLimit edgeLimit).1.Perm (shownNodes ctx db nodeLimit) := by
  have hfirst := orderByNodeId_orderLimit (db.nodesOf ctx.tenantId) (clamp 1 2000 nodeLimit)
  have hanswer : (db.snapshot now ctx nodeLimit edgeLimit).1 =
      (CrdbGraphStore.orderByNodeId (db.nodesOf ctx.tenantId) (clamp 1 2000 nodeLimit)).filter
        (visibleNode ctx) := filter_aclAllows fun n hn => hfirst.subset hn
  rw [hanswer]
  exact (shownNodes_perm nodeLimit).symm

/-- The embedded store sorts the candidates, once its nodes are the shown ones. -/
theorem snapshot_edges_memory {now : DateTime} {nodeLimit edgeLimit : Nat}
    (hnodes : (st.snapshot now ctx nodeLimit edgeLimit).1.Perm (shownNodes ctx db nodeLimit)) :
    (st.snapshot now ctx nodeLimit edgeLimit).2 =
      ((candidateEdges now ctx st db nodeLimit).insertionSort (thenBy edgeRank newerOrSame)).take
        (clamp 1 4000 edgeLimit) := by
  have hcandidates : candidateEdges now ctx st db nodeLimit =
      if (st.snapshot now ctx nodeLimit edgeLimit).1.length = clamp 1 2000 nodeLimit then
        ((st.allEdges ctx.tenantId).filter (usableEdge ctx now)).filter
          (between (st.snapshot now ctx nodeLimit edgeLimit).1)
      else (st.allEdges ctx.tenantId).filter (usableEdge ctx now) := by
    unfold candidateEdges innerEdges
    rw [between_congr hnodes, hnodes.length_eq, List.filter_filter]
    simp only [Bool.and_comm]
  rw [hcandidates]
  rfl

variable (ctx) in
/-- The production store sorts the edges between the shown nodes. -/
theorem snapshot_edges_crdb (h : SameContent st db) (now : DateTime) (nodeLimit edgeLimit : Nat) :
    ∃ rows : List GraphEdge, rows.Perm (innerEdges now ctx st db nodeLimit) ∧
      (db.snapshot now ctx nodeLimit edgeLimit).2 =
        (rows.insertionSort edgeIdLe).take (clamp 1 4000 edgeLimit) := by
  have hrows : ((db.loadEdges ctx.tenantId).filter fun e =>
      aclAllows ctx e.isPrivate e.allowedGroupIds && activeEdge now e
        && (db.snapshot now ctx nodeLimit edgeLimit).1.any (fun n => n.nodeId = e.fromNodeId)
        && (db.snapshot now ctx nodeLimit edgeLimit).1.any (fun n => n.nodeId = e.toNodeId)) =
      (db.loadEdges ctx.tenantId).filter fun e =>
        usableEdge ctx now e && between (shownNodes ctx db nodeLimit) e := by
    refine List.filter_congr fun e he => ?_
    rw [← between_congr (snapshot_nodes_shown now nodeLimit edgeLimit)]
    simp [usableEdge, visibleEdge, (mem_loadEdges he).2, between, Bool.and_assoc]
  refine ⟨_, (h.edges ctx.tenantId).symm.filter _, ?_⟩
  rw [← hrows]
  rfl

theorem snapshot_edges_perm_iff (h : SameContent st db) {now : DateTime} {nodeLimit edgeLimit : Nat}
    (hnodes : (db.snapshot now ctx nodeLimit edgeLimit).1.Perm
      (st.snapshot now ctx nodeLimit edgeLimit).1) :
    (db.snapshot now ctx nodeLimit edgeLimit).2.Perm (st.snapshot now ctx nodeLimit edgeLimit).2 ↔
      EdgesAlike now ctx st db nodeLimit edgeLimit := by
  obtain ⟨rows, hrows, hdb⟩ := snapshot_edges_crdb ctx h now nodeLimit edgeLimit
  have hedges : (st.allEdges ctx.tenantId).Nodup :=
    (h.edges ctx.tenantId).nodup_iff.mpr (db.edges.values_nodup.filter _)
  have hnodup : rows.Nodup := hrows.nodup_iff.mpr (hedges.filter _)
  -- the database needs both ends among the nodes, the embedded store may do with one
  have hinner : rows ⊆ candidateEdges now ctx st db nodeLimit := by
    intro e he
    obtain ⟨hstored, hshown⟩ := List.mem_filter.mp (hrows.mem_iff.mp he)
    unfold candidateEdges
    split_ifs
    · exact hrows.mem_iff.mp he
    · exact List.mem_filter.mpr ⟨hstored, (Bool.and_eq_true_iff.mp hshown).1⟩
  have hcandidates : (candidateEdges now ctx st db nodeLimit).Nodup := by
    unfold candidateEdges
    split_ifs <;> exact hedges.filter _
  have hmem : ∀ e, e ∈ (rows.insertionSort edgeIdLe).take (clamp 1 4000 edgeLimit) ↔
      AmongFirst edgeIdLe (innerEdges now ctx st db nodeLimit) (clamp 1 4000 edgeLimit) e := by
    intro e
    have hstored : ∀ a ∈ rows, a ∈ db.loadEdges ctx.tenantId := fun a ha =>
      (h.edges ctx.tenantId).mem_iff.mp (List.mem_of_mem_filter (hrows.mem_iff.mp ha))
    rw [mem_take_insertionSort_iff hnodup fun a ha b hb => edgeIdLe_antisymm (hstored a ha) (hstored b hb),
      AmongFirst.congr hrows]
  have hfirst : OrderLimit edgeIdLe (clamp 1 4000 edgeLimit) rows
      ((rows.insertionSort edgeIdLe).take (clamp 1 4000 edgeLimit)) := OrderLimit.insertionSort _ _
  rw [snapshot_edges_memory (hnodes.symm.trans (snapshot_nodes_shown now nodeLimit edgeLimit)), hdb,
    hfirst.first_perm_iff (OrderLimit.stable hcandidates _) hinner hnodup hcandidates
      fun _ _ _ _ => StableBefore.antisymm hcandidates]
  unfold EdgesAlike
  simp only [hmem, hrows.length_eq, List.subset_def, hrows.mem_iff]

/-- **When the readers agree.** `lower` takes texts that differ in ASCII case only to the same text. -/
theorem readers_agree_iff (h : SameContent st db)
    (hlower : ∀ a b, Text.eqIgnoreAsciiCase a b = true → lower a = lower b) (ctx : QueryContext) :
    (∀ nodeId stateKey, db.getState ctx nodeId stateKey = st.getState ctx nodeId stateKey ↔
      StateAlike ctx db nodeId stateKey) ∧
    (∀ nodeType limit, db.listNodesByType lower ctx nodeType limit =
      st.listNodesByType ctx nodeType limit ↔ ListAlike lower ctx db nodeType limit) ∧
    (∀ now nodeLimit edgeLimit,
      (db.snapshot now ctx nodeLimit edgeLimit).1.Perm (st.snapshot now ctx nodeLimit edgeLimit).1 ∧
        (db.snapshot now ctx nodeLimit edgeLimit).2.Perm
          (st.snapshot now ctx nodeLimit edgeLimit).2 ↔
      NodesAlike ctx db nodeLimit ∧ EdgesAlike now ctx st db nodeLimit edgeLimit) := by
  refine ⟨getState_eq_iff h, listNodesByType_eq_iff h hlower, fun now nodeLimit edgeLimit => ?_⟩
  constructor
  · rintro ⟨hnodes, hedges⟩
    exact ⟨(snapshot_nodes_perm_iff h now nodeLimit edgeLimit).mp hnodes,
      (snapshot_edges_perm_iff h hnodes).mp hedges⟩
  · rintro ⟨hnodes, hedges⟩
    have hperm := (snapshot_nodes_perm_iff h now nodeLimit edgeLimit).mpr hnodes
    exact ⟨hperm, (snapshot_edges_perm_iff h hperm).mpr hedges⟩

end Readers

/-! ## Stores that hold nodes only -/

theorem sameContent_nodes (ns : List GraphNode) :
    SameContent (ns.foldl InMemoryGraphStore.insertNode .new)
      (ns.foldl CrdbGraphStore.upsertNode .new) := by
  have hnodes : ∀ (st : InMemoryGraphStore) (db : CrdbGraphStore), SameContent st db →
      SameContent (ns.foldl InMemoryGraphStore.insertNode st)
        (ns.foldl CrdbGraphStore.upsertNode db) := by
    induction ns with
    | nil => intro st db h; exact h
    | cons n ns ih =>
      intro st db h
      refine ih _ _ ⟨fun key => ?_, h.edges, h.states⟩
      show (st.nodes.put n).get key = (db.nodes.put n).get key
      rw [Table.get_put, Table.get_put, h.nodes]
  exact hnodes .new .new ⟨fun _ => rfl, fun _ => .refl _, fun _ => rfl⟩

/-- An issue of tenant `t`. -/
def issueNode (nodeId : String) (isPrivate : Bool) : GraphNode :=
  { tenantId := "t", nodeId := nodeId, nodeType := "Issue", displayName := nodeId, resourceId := nodeId,
    properties := .null, isPrivate := isPrivate, allowedGroupIds := [], aclVersion := 1 }

theorem readers_agree_iff_public_issue :
    (CrdbGraphStore.new.upsertNode (issueNode "a" false)).listNodesByType Text.toAsciiLowercase
        ⟨"t", "u", []⟩ "issue" 1 =
      (InMemoryGraphStore.new.insertNode (issueNode "a" false)).listNodesByType ⟨"t", "u", []⟩ "issue" 1 := by
  refine ((readers_agree_iff (sameContent_nodes [issueNode "a" false])
    (fun _ _ h => of_decide_eq_true h) ⟨"t", "u", []⟩).2.1 "issue" 1).mpr ?_
  have hrow : ∀ n ∈ typedRows Text.toAsciiLowercase ⟨"t", "u", []⟩
      ([issueNode "a" false].foldl CrdbGraphStore.upsertNode .new) "issue", n = issueNode "a" false := by
    intro n hn
    exact List.mem_singleton.mp (List.mem_of_mem_filter (List.mem_of_mem_filter hn))
  refine ⟨fun n hn _ => ?_, .inr fun n hn => ?_⟩
  · rw [hrow n hn.1]
    decide
  · rw [hrow n hn.1]
    decide

/-- A hidden issue takes the place of a visible one. -/
theorem hidden_row_displaces_visible :
    let issues := [issueNode "a" true, issueNode "b" false]
    SameContent (issues.foldl InMemoryGraphStore.insertNode .new)
      (issues.foldl CrdbGraphStore.upsertNode .new) ∧
    ((issues.foldl CrdbGraphStore.upsertNode .new).listNodesByType Text.toAsciiLowercase
        ⟨"t", "u", []⟩ "Issue" 1).map GraphNode.nodeId = [] ∧
    ((issues.foldl InMemoryGraphStore.insertNode .new).listNodesByType ⟨"t", "u", []⟩
        "Issue" 1).map GraphNode.nodeId = ["b"] :=
  ⟨sameContent_nodes _, by decide +kernel, by decide +kernel⟩

end AiManager.Graph
