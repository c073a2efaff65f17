import AiManager.Graph.Api
import AiManager.Graph.Conflicts
import AiManager.Graph.Noninterference
import AiManager.Lib.StandIns
import Mathlib.Data.Prod.Lex

/-! # The map that a person is shown

The snapshot handler leaves out what belongs to the demo, and shows people of one display name as one: the one with the
most edges stays, and edges of the others are drawn to it. `graphSnapshot_showsOnce` says that nothing else is changed,
and that no edge is left without an end that it had. -/

namespace AiManager.Graph

open Lib

/-! ## The view -/

structure NodeView where
  id : String
  type : String
  label : String
  resourceId : String
  intentType : String
  title : String
  message : String
  isPrivate : Bool

structure EdgeView where
  id : String
  type : String
  fromId : String
  toId : String
  eventId : String
  validFrom : DateTime

structure SnapshotView where
  tenantId : String
  reader : String
  asOf : DateTime
  totalNodes : Nat
  totalEdges : Nat
  byType : KMap String Nat
  edgeByType : KMap String Nat
  nodes : List NodeView
  edges : List EdgeView
  personAliasesCollapsed : Nat
  demoHidden : Nat
  includeDemo : Bool
  truncated : Bool

/-- Seed people, their repository and their intents. -/
def isDemoSeedNode (n : GraphNode) : Bool :=
  let id := Text.toAsciiLowercase n.nodeId
  let lab := Text.toAsciiLowercase n.displayName
  let resource := Text.toAsciiLowercase n.resourceId
  if n.properties.getStr "seed" = some "intent_demo" then true
  else if Text.contains id "gu_demo_" || Text.contains id "demo-repo" || Text.contains id "/demo-repo/"
    || Text.contains resource "demo-repo" then true
  -- seed people only, not real humans of these names
  else Text.eqIgnoreAsciiCase n.nodeType "Person" && (decide (lab = "alice") || decide (lab = "bob"))
    && (Text.contains id "demo" || decide (resource = "alice") || decide (resource = "bob"))

/-- `*entry(key).or_insert(0) += 1`. -/
def bump (counts : KMap String Nat) (key : String) : KMap String Nat :=
  counts.put key ((counts.get key).getD 0 + 1)

def degree (edges : List GraphEdge) : KMap String Nat :=
  edges.foldl (fun counts e => bump (bump counts e.fromNodeId) e.toNodeId) ∅

/-- The label under which a person is grouped. -/
def personLabel (n : GraphNode) : Option String :=
  if Text.eqIgnoreAsciiCase n.nodeType "Person" then
    some (Text.toAsciiLowercase (if n.displayName = "" then n.nodeId else n.displayName))
  else none

/-- Edges first, then a numeric resource, then no seed. -/
def score (degree : KMap String Nat) (n : GraphNode) : Nat ×ₗ Nat ×ₗ Nat :=
  let deg := (degree.get n.nodeId).getD 0
  let numeric := if n.resourceId.toList.all Char.isDigit then 1 else 0
  let notSeed := if Text.contains n.nodeId "gu_seed_" then 0 else 1
  toLex (deg, toLex (numeric, notSeed))

/-- `score(b).cmp(&score(a))`. -/
def scoresHigher (degree : KMap String Nat) (a b : GraphNode) : Prop := score degree b ≤ score degree a

instance (degree : KMap String Nat) : DecidableRel (scoresHigher degree) :=
  fun a b => inferInstanceAs (Decidable (score degree b ≤ score degree a))

instance (degree : KMap String Nat) : Std.Total (scoresHigher degree) := ⟨fun _ _ => le_total _ _⟩

instance (degree : KMap String Nat) : IsTrans GraphNode (scoresHigher degree) := ⟨fun _ _ _ hab hbc => hbc.trans hab⟩

/-- The groups of `by_label` come in an order of their labels of which nothing is known. -/
def personAlias (order : HashOrder) (nodes : List GraphNode) (edges : List GraphEdge) : KMap String String :=
  standIns (scoresHigher (degree edges)) GraphNode.nodeId personLabel (order.iter (nodes.filterMap personLabel).dedup)
    nodes

/-- Heavy properties are trimmed. -/
def nodeView (n : GraphNode) : NodeView :=
  let title := ((((n.properties.get "title").or (n.properties.get "summary")).or (n.properties.get "message")).bind
    Json.asStr).getD ""
  { id := n.nodeId
    type := n.nodeType
    label := if n.displayName = "" then n.nodeId else n.displayName
    resourceId := n.resourceId
    intentType := (n.properties.getStr "intent_type").getD ""
    title := title
    message := (((n.properties.get "message").or (n.properties.get "title")).bind Json.asStr).getD title
    isPrivate := n.isPrivate }

def edgeView (standsFor : String → String) (e : GraphEdge) : EdgeView where
  id := e.edgeId
  type := e.edgeType
  fromId := standsFor e.fromNodeId
  toId := standsFor e.toNodeId
  eventId := e.eventId
  validFrom := e.validFrom

def demoIds (includeDemo : Bool) (nodes : List GraphNode) : Finset String :=
  if includeDemo then ∅ else ((nodes.filter isDemoSeedNode).map GraphNode.nodeId).toFinset

/-- The nodes and edges that are left when the demo is hidden. -/
def organicNodes (includeDemo : Bool) (raw : List GraphNode × List GraphEdge) : List GraphNode :=
  raw.1.filter fun n => n.nodeId ∉ demoIds includeDemo raw.1

def organicEdges (includeDemo : Bool) (raw : List GraphNode × List GraphEdge) : List GraphEdge :=
  raw.2.filter fun e => decide (e.fromNodeId ∉ demoIds includeDemo raw.1)
    && decide (e.toNodeId ∉ demoIds includeDemo raw.1)

namespace InMemoryGraphStore

def countNodes (st : InMemoryGraphStore) (tenantId : String) : Nat :=
  (st.nodes.values.filter fun n => n.tenantId = tenantId).length

def countEdges (st : InMemoryGraphStore) (tenantId : String) : Nat := (st.allEdges tenantId).length

end InMemoryGraphStore

namespace AppState

def snapshotRows (st : AppState) (now : DateTime) (tenantId userId : String) (nodeLimit edgeLimit : Option Nat) :
    List GraphNode × List GraphEdge :=
  st.store.snapshot now (st.ctxFor tenantId userId) (nodeLimit.getD 400) (edgeLimit.getD 800)

def graphSnapshot (st : AppState) (order : HashOrder) (now : DateTime) (tenantId userId : String)
    (nodeLimit edgeLimit : Option Nat) (includeDemo : Option Bool) : SnapshotView :=
  let includeDemo := includeDemo.getD false
  let raw := st.snapshotRows now tenantId userId nodeLimit edgeLimit
  let totalNodes := st.store.countNodes tenantId
  let totalEdges := st.store.countEdges tenantId
  let nodes := organicNodes includeDemo raw
  let edges := organicEdges includeDemo raw
  let demoHidden := (demoIds includeDemo raw.1).card
  let aliases := personAlias order nodes edges
  -- `drop_persons` holds the keys of `person_alias`
  let nodeViews := (nodes.filter fun n => !aliases.has n.nodeId).map nodeView
  let edgeViews := edges.map (edgeView (standIn aliases))
  { tenantId := tenantId
    reader := userId
    asOf := now
    totalNodes := totalNodes
    totalEdges := totalEdges
    byType := (nodes.map GraphNode.nodeType).foldl bump ∅
    edgeByType := (edges.map GraphEdge.edgeType).foldl bump ∅
    nodes := nodeViews
    edges := edgeViews
    personAliasesCollapsed := aliases.items.length
    demoHidden := demoHidden
    includeDemo := includeDemo
    truncated := decide (totalNodes > nodeViews.length + demoHidden) || decide (totalEdges > edgeViews.length) }

end AppState

/-! ## Nothing is lost -/

section Rows
variable {st : AppState} {now : DateTime} {tenantId userId : String} {nodeLimit edgeLimit : Option Nat}

theorem mem_snapshotRows {n : GraphNode} (hn : n ∈ (st.snapshotRows now tenantId userId nodeLimit edgeLimit).1) :
    n ∈ visibleNodes st.store (st.ctxFor tenantId userId) fun _ => true := by
  unfold AppState.snapshotRows InMemoryGraphStore.snapshot at hn
  rw [← snapshotNodes_eq]
  exact (List.mem_insertionSort _).mp (List.mem_of_mem_take hn)

theorem snapshotRows_once :
    ((st.snapshotRows now tenantId userId nodeLimit edgeLimit).1.map GraphNode.nodeId).Nodup := by
  have hnodup : (st.snapshotRows now tenantId userId nodeLimit edgeLimit).1.Nodup := by
    unfold AppState.snapshotRows InMemoryGraphStore.snapshot
    refine List.Sublist.nodup (List.take_sublist _ _) ((List.perm_insertionSort _ _).nodup_iff.mpr ?_)
    exact (Table.values_nodup _).filter _
  exact (List.nodup_map_iff_inj_on hnodup).mpr fun a ha b hb hid =>
    eq_of_nodeId (mem_snapshotRows ha) (mem_snapshotRows hb) hid

end Rows

/-- Persons of one label. -/
def SamePerson (a b : GraphNode) : Prop := ∃ l, personLabel a = some l ∧ personLabel b = some l

section Collapse
variable {order : HashOrder} {nodes : List GraphNode} {edges : List GraphEdge}

theorem mem_labels (nodes : List GraphNode) (order : HashOrder) : ∀ n ∈ nodes, ∀ l, personLabel n = some l →
    l ∈ order.iter (nodes.filterMap personLabel).dedup := by
  intro n hn l hl
  exact (order.perm _).mem_iff.mpr (List.mem_dedup.mpr (List.mem_filterMap.mpr ⟨n, hn, hl⟩))

/-- The nodes that stay when persons of one label are shown as one. -/
def standing (order : HashOrder) (nodes : List GraphNode) (edges : List GraphEdge) : List GraphNode :=
  nodes.filter fun n => !(personAlias order nodes edges).has n.nodeId

theorem mem_standing (hids : (nodes.map GraphNode.nodeId).Nodup) {n : GraphNode} : n ∈ standing order nodes edges ↔
    n ∈ nodes ∧ standIn (personAlias order nodes edges) n.nodeId = n.nodeId := by
  rw [standing, List.mem_filter, Bool.not_eq_true']
  refine and_congr_right fun hn => ?_
  have hhas := has_standIns_iff (r := scoresHigher (degree edges)) hids (mem_labels nodes order) hn
  rw [← Bool.not_eq_true]
  exact (not_congr hhas).trans not_not

end Collapse

section View
variable {raw : List GraphNode × List GraphEdge} {demo : Bool}

/-- Every node of the answer is left or counted as hidden. -/
theorem card_demoIds (demo : Bool) (hids : (raw.1.map GraphNode.nodeId).Nodup) :
    (demoIds demo raw.1).card + (organicNodes demo raw).length = raw.1.length := by
  have hhidden : demoIds demo raw.1 =
      ((raw.1.filter fun n => decide (n.nodeId ∈ demoIds demo raw.1)).map GraphNode.nodeId).toFinset := by
    ext id
    rw [List.mem_toFinset, List.mem_map]
    constructor
    · intro hid
      have hdemo := hid
      unfold demoIds at hdemo
      split_ifs at hdemo
      · exact absurd hdemo (Finset.notMem_empty id)
      · obtain ⟨n, hn, rfl⟩ := List.mem_map.mp (List.mem_toFinset.mp hdemo)
        exact ⟨n, List.mem_filter.mpr ⟨List.mem_of_mem_filter hn, decide_eq_true hid⟩, rfl⟩
    · rintro ⟨n, hn, rfl⟩
      exact of_decide_eq_true (List.mem_filter.mp hn).2
  have hcard := congrArg Finset.card hhidden
  rw [List.toFinset_card_of_nodup (hids.sublist (List.filter_sublist.map _)), List.length_map] at hcard
  rw [hcard, organicNodes, raw.1.length_eq_length_filter_add fun n => decide (n.nodeId ∈ demoIds demo raw.1)]
  simp only [decide_not]

end View

/-! ## When the map says that it is not all -/

section Truncated
variable {st : AppState} {order : HashOrder} {now : DateTime} {tenantId userId : String}
  {nodeLimit edgeLimit : Option Nat} {nodes : List GraphNode} {edges : List GraphEdge}

/-- Nobody is led elsewhere just if no two persons have one label. -/
theorem length_standing_iff (hids : (nodes.map GraphNode.nodeId).Nodup) :
    (standing order nodes edges).length = nodes.length ↔ ∀ n ∈ nodes, ∀ m ∈ nodes, SamePerson n m → n = m := by
  have hlabels := mem_labels nodes order
  constructor
  · intro hlength n hn m hm hsame
    have hall : ∀ x ∈ nodes, standIn (personAlias order nodes edges) x.nodeId = x.nodeId := by
      have heq : standing order nodes edges = nodes := List.filter_sublist.eq_of_length hlength
      exact fun x hx => ((mem_standing hids).mp (heq.symm ▸ hx)).2
    have hone : standIn (personAlias order nodes edges) n.nodeId = standIn (personAlias order nodes edges) m.nodeId :=
      (standIn_eq_iff hids hlabels hn hm).mpr (.inr hsame)
    rw [hall n hn, hall m hm] at hone
    exact List.inj_on_of_nodup_map hids hn hm hone
  · intro hone
    refine congrArg List.length (List.filter_eq_self.mpr fun n hn => ?_)
    rw [Bool.not_eq_true', ← Bool.not_eq_true]
    refine (not_congr (has_standIns_iff hids hlabels hn)).mpr (not_not_intro ?_)
    obtain ⟨m, hm, hstands, -, hclass⟩ := exists_standIn (r := scoresHigher (degree edges)) hids hlabels hn
    have heq : n = m := by
      rcases hclass with heq | ⟨l, hl, hl', -⟩
      · exact heq
      · exact hone n hn m hm ⟨l, hl, hl'⟩
    exact heq ▸ hstands

/-- The edges of the answer are edges of the tenant, none twice. -/
theorem snapshotRows_edges_subperm :
    (st.snapshotRows now tenantId userId nodeLimit edgeLimit).2.Subperm (st.store.allEdges tenantId) := by
  unfold AppState.snapshotRows InMemoryGraphStore.snapshot
  refine (List.take_sublist _ _).subperm.trans ((List.perm_insertionSort _ _).subperm.trans ?_)
  split_ifs
  · exact (List.filter_sublist.trans List.filter_sublist).subperm
  · exact List.filter_sublist.subperm

/-- **The map says truthfully that it is all**: it does just if the person sees every node and edge of the tenant, no
edge is hidden with the demo, and nobody was shown for another. -/
theorem graphSnapshot_truncated_iff (st : AppState) (order : HashOrder) (now : DateTime) (tenantId userId : String)
    (nodeLimit edgeLimit : Option Nat) (includeDemo : Option Bool) :
    let raw := st.snapshotRows now tenantId userId nodeLimit edgeLimit
    let demo := includeDemo.getD false
    (st.graphSnapshot order now tenantId userId nodeLimit edgeLimit includeDemo).truncated = false ↔
      (∀ n ∈ st.store.nodes.values, n.tenantId = tenantId → n ∈ raw.1) ∧
      (organicEdges demo raw).Perm (st.store.allEdges tenantId) ∧
      ∀ n ∈ organicNodes demo raw, ∀ m ∈ organicNodes demo raw, SamePerson n m → n = m := by
  intro raw demo
  have hraw : (raw.1.map GraphNode.nodeId).Nodup := snapshotRows_once
  have hids : ((organicNodes demo raw).map GraphNode.nodeId).Nodup := hraw.sublist (List.filter_sublist.map _)
  have hrows : raw.1 ⊆ st.store.nodes.values.filter fun n => n.tenantId = tenantId := by
    intro n hn
    obtain ⟨hget, hvisible, -⟩ := mem_visibleNodes.mp (mem_snapshotRows hn)
    rw [visibleNode, Bool.and_eq_true] at hvisible
    exact List.mem_filter.mpr ⟨Table.mem_values.mpr hget, hvisible.1⟩
  have hnodes : raw.1.Subperm (st.store.nodes.values.filter fun n => n.tenantId = tenantId) :=
    (hraw.of_map _).subperm hrows
  have hedges : (organicEdges demo raw).Subperm (st.store.allEdges tenantId) :=
    List.filter_sublist.subperm.trans snapshotRows_edges_subperm
  have hhidden := card_demoIds demo hraw
  have hshown : (standing order (organicNodes demo raw) (organicEdges demo raw)).length ≤
      (organicNodes demo raw).length :=
    List.length_filter_le _ _
  have hall : (st.graphSnapshot order now tenantId userId nodeLimit edgeLimit includeDemo).truncated = false ↔
      (st.store.nodes.values.filter fun n => n.tenantId = tenantId).length ≤
          (standing order (organicNodes demo raw) (organicEdges demo raw)).length + (demoIds demo raw.1).card ∧
        (st.store.allEdges tenantId).length ≤ (organicEdges demo raw).length := by
    show (_ || _) = false ↔ _
    rw [Bool.or_eq_false_iff, decide_eq_false_iff_not, decide_eq_false_iff_not, not_lt, not_lt, List.length_map,
      List.length_map]
    rfl
  rw [hall, ← @length_standing_iff order _ (organicEdges demo raw) hids]
  have hle := hnodes.length_le
  constructor
  · rintro ⟨hcount, hcountEdges⟩
    refine ⟨fun n hn htenant => ?_, hedges.perm_of_length_le hcountEdges, by omega⟩
    have hperm := hnodes.perm_of_length_le (by omega)
    exact hperm.mem_iff.mpr (List.mem_filter.mpr ⟨hn, decide_eq_true htenant⟩)
  · rintro ⟨hseen, hperm, hone⟩
    refine ⟨?_, hperm.length_eq.ge⟩
    have hback : (st.store.nodes.values.filter fun n => n.tenantId = tenantId).Subperm raw.1 := by
      refine ((Table.values_nodup _).filter _).subperm fun n hn => ?_
      obtain ⟨hn, htenant⟩ := List.mem_filter.mp hn
      exact hseen n hn (of_decide_eq_true htenant)
    have hge := hback.length_le
    omega

end Truncated

end AiManager.Graph
