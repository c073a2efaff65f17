import AiManager.Graph.Store
import AiManager.Lib.Sorting
import AiManager.Lib.Text

/-! # Queries of the embedded graph store

What a person may see is decided row by row: public rows, and private ones that a group of the person
is allowed. Two searches walk the edges, from a root outwards and between two nodes; three operations
list edges, two list nodes. All of them read the store and the clock, nothing else. -/

namespace AiManager.Graph

open Lib

structure QueryContext where
  tenantId : String
  globalUserId : String
  groupIds : List String

/-- Public, or private with an allowed group in common. -/
def aclAllows (ctx : QueryContext) (isPrivate : Bool) (allowedGroupIds : List String) : Bool :=
  if ctx.tenantId = "" then false
  else if !isPrivate then true
  else if allowedGroupIds.isEmpty then false
  else allowedGroupIds.any fun g => ctx.groupIds.any fun ug => ug = g

structure Neighborhood where
  root : GraphNode
  nodes : List GraphNode
  edges : List GraphEdge
  hops : Nat

structure GraphPath where
  nodes : List GraphNode
  edges : List GraphEdge

def visibleNode (ctx : QueryContext) (n : GraphNode) : Bool :=
  decide (n.tenantId = ctx.tenantId) && aclAllows ctx n.isPrivate n.allowedGroupIds

def visibleEdge (ctx : QueryContext) (e : GraphEdge) : Bool :=
  decide (e.tenantId = ctx.tenantId) && aclAllows ctx e.isPrivate e.allowedGroupIds

def visibleState (ctx : QueryContext) (s : EntityState) : Bool :=
  aclAllows ctx s.isPrivate s.allowedGroupIds

def activeEdge (asOf : DateTime) (e : GraphEdge) : Bool :=
  decide (e.validFrom ≤ asOf) && match e.validTo with
    | some t => decide (t > asOf)
    | none => true

/-- The edge may be followed. -/
def usableEdge (ctx : QueryContext) (now : DateTime) (e : GraphEdge) : Bool :=
  visibleEdge ctx e && activeEdge now e

/-- `n.clamp(lo, hi)` -/
def clamp (lo hi n : Nat) : Nat := max lo (min n hi)

/-- The far end of an edge, seen from a node. -/
def otherEnd (e : GraphEdge) (nid : String) : Option String :=
  if e.fromNodeId = nid then some e.toNodeId
  else if e.toNodeId = nid then some e.fromNodeId
  else none

/-! ## Outwards from a root -/

/-- What a walk has collected; `next` is the frontier of the next round. -/
structure Sweep where
  seen : List String
  nodes : List GraphNode
  edges : List GraphEdge
  next : List String

section Sweep
variable (ctx : QueryContext) (now : DateTime) (node : String → Option GraphNode)

def sweepEdge (nid : String) (s : Sweep) (e : GraphEdge) : Sweep :=
  if !usableEdge ctx now e then s
  else
    match otherEnd e nid with
    | none => s
    | some otherId =>
      -- both endpoints must be visible for the edge to appear
      match node otherId with
      | none => s
      | some otherNode =>
        let edges := if s.edges.any fun x => x.edgeId = e.edgeId then s.edges else s.edges ++ [e]
        if s.seen.contains otherId then { s with edges }
        else { seen := otherId :: s.seen, nodes := s.nodes ++ [otherNode], edges,
               next := s.next ++ [otherId] }

def sweepNode (all : List GraphEdge) (s : Sweep) (nid : String) : Sweep :=
  all.foldl (sweepEdge ctx now node nid) s

/-- As many rounds as there are hops, until a round finds nothing new. -/
def sweep (all : List GraphEdge) : Nat → Sweep → Sweep
  | 0, s => s
  | hops + 1, s =>
    let s' := s.next.foldl (sweepNode ctx now node all) { s with next := [] }
    if s'.next.isEmpty then s' else sweep all hops s'

end Sweep

/-! ## Between two nodes -/

structure Search where
  /-- the node and the edge that a node was reached by -/
  prev : KMap String (String × GraphEdge)
  dist : KMap String Nat
  queue : List String

section Search
variable (ctx : QueryContext) (now : DateTime) (node : String → Option GraphNode) (toId : String)

/-- The edges of one node. Answers whether the target was reached. -/
def scanEdges (cur : String) (d : Nat) : List GraphEdge → Search → Bool × Search
  | [], s => (false, s)
  | e :: es, s =>
    if !usableEdge ctx now e then scanEdges cur d es s
    else
      match otherEnd e cur with
      | none => scanEdges cur d es s
      | some other =>
        if (node other).isNone then scanEdges cur d es s
        else if s.dist.has other then scanEdges cur d es s
        else
          let reached : Search :=
            { s with prev := s.prev.put other (cur, e), dist := s.dist.put other (d + 1) }
          if other = toId then (true, reached)
          else scanEdges cur d es { reached with queue := reached.queue ++ [other] }

/-- The queue, up to `fuel` nodes of it. -/
def search (maxHops : Nat) (all : List GraphEdge) (fuel : Nat) (s : Search) : Option Search :=
  match s.queue, fuel with
  | [], _ => none
  | _ :: _, 0 => none
  | cur :: rest, fuel + 1 =>
    let d := (s.dist.get cur).getD 0
    if d ≥ maxHops then search maxHops all fuel { s with queue := rest }
    else
      match scanEdges ctx now node toId cur d all { s with queue := rest } with
      | (true, s') => some s'
      | (false, s') => search maxHops all fuel s'

variable {ctx now node toId} {maxHops : Nat} {all : List GraphEdge} {s : Search} {cur : String}
  {rest : List String}

theorem search_nil (h : s.queue = []) (fuel : Nat) :
    search ctx now node toId maxHops all fuel s = none := by
  rw [search.eq_def]
  simp only [h]

theorem search_zero (h : s.queue = cur :: rest) :
    search ctx now node toId maxHops all 0 s = none := by
  rw [search.eq_def]
  simp only [h]

theorem search_succ (h : s.queue = cur :: rest) (fuel : Nat) :
    search ctx now node toId maxHops all (fuel + 1) s =
      if (s.dist.get cur).getD 0 ≥ maxHops then
        search ctx now node toId maxHops all fuel { s with queue := rest }
      else
        match scanEdges ctx now node toId cur ((s.dist.get cur).getD 0) all
            { s with queue := rest } with
        | (true, s') => some s'
        | (false, s') => search ctx now node toId maxHops all fuel s' := by
  rw [search.eq_def]
  simp only [h]

end Search

/-- From the target back to the source; `none` where a node was not reached. -/
def walkBack (prev : KMap String (String × GraphEdge)) (fromId : String) :
    Nat → String → List String × List GraphEdge → Option (List String × List GraphEdge)
  | fuel, walk, (ids, edges) =>
    if walk = fromId then some (ids, edges)
    else
      match fuel, prev.get walk with
      | fuel + 1, some (p, edge) => walkBack prev fromId fuel p (p :: ids, edge :: edges)
      | _, _ => none

/-! ## Operations -/

/-- Order of two rows by a rank, then by another key. -/
def thenBy {α : Type} (rank : α → Nat) (r : α → α → Prop) (a b : α) : Prop :=
  rank a < rank b ∨ (rank a = rank b ∧ r a b)

instance {α : Type} (rank : α → Nat) (r : α → α → Prop) [DecidableRel r] :
    DecidableRel (thenBy rank r) := fun a b => by unfold thenBy; infer_instance

def nodeIdLe (a b : GraphNode) : Prop := a.nodeId ≤ b.nodeId

instance : DecidableRel nodeIdLe := fun a b => inferInstanceAs (Decidable (a.nodeId ≤ b.nodeId))

def edgeIdLe (a b : GraphEdge) : Prop := a.edgeId ≤ b.edgeId

instance : DecidableRel edgeIdLe := fun a b => inferInstanceAs (Decidable (a.edgeId ≤ b.edgeId))

/-- Newest first. -/
def newerOrSame (a b : GraphEdge) : Prop := b.validFrom ≤ a.validFrom

instance : DecidableRel newerOrSame := fun a b =>
  inferInstanceAs (Decidable ((b.validFrom : Int) ≤ a.validFrom))

instance : Std.Total nodeIdLe := ⟨fun a b => String.le_total a.nodeId b.nodeId⟩

instance : IsTrans GraphNode nodeIdLe := ⟨fun _ _ _ => String.le_trans⟩

instance : Std.Total edgeIdLe := ⟨fun a b => String.le_total a.edgeId b.edgeId⟩

instance : IsTrans GraphEdge edgeIdLe := ⟨fun _ _ _ => String.le_trans⟩

instance : Std.Total newerOrSame := ⟨fun a b => Int.le_total b.validFrom a.validFrom⟩

instance : IsTrans GraphEdge newerOrSame := ⟨fun _ _ _ hab hbc => Int.le_trans hbc hab⟩

instance {α : Type} (rank : α → Nat) (r : α → α → Prop) [Std.Total r] :
    Std.Total (thenBy rank r) := ⟨fun a b => by
  unfold thenBy
  rcases lt_trichotomy (rank a) (rank b) with h | h | h
  · exact .inl (.inl h)
  · rcases Std.Total.total (r := r) a b with hab | hba
    · exact .inl (.inr ⟨h, hab⟩)
    · exact .inr (.inr ⟨h.symm, hba⟩)
  · exact .inr (.inl h)⟩

instance {α : Type} (rank : α → Nat) (r : α → α → Prop) [IsTrans α r] :
    IsTrans α (thenBy rank r) := ⟨by
  rintro a b c (hab | ⟨hab, hr⟩) (hbc | ⟨hbc, hr'⟩)
  · exact .inl (hab.trans hbc)
  · exact .inl (hbc ▸ hab)
  · exact .inl (hab ▸ hbc)
  · exact .inr ⟨hab.trans hbc, IsTrans.trans _ _ _ hr hr'⟩⟩

/-- People, work and intents first, commits last. -/
def typeRank (n : GraphNode) : Nat :=
  match n.nodeType with
  | "Person" => 0
  | "Repo" => 1
  | "PullRequest" => 2
  | "Issue" | "Ticket" => 3
  | "Intent" => 4
  | "Team" | "Channel" => 5
  | "Commit" => 9
  | _ => 6

/-- Edges that tell the story before the bulk. -/
def edgeRank (e : GraphEdge) : Nat :=
  match e.edgeType with
  | "BLOCKS" | "BLOCKED_BY" => 0
  | "CLAIMS" | "ABOUT" => 1
  | "AUTHORED" | "ASSIGNED_TO" => 2
  | "BELONGS_TO" | "MEMBER_OF" => 3
  | "CHECKED" => 4
  | "PUSHED_TO" => 8
  | _ => 5

def isBlockEdge (e : GraphEdge) : Bool :=
  decide (e.edgeType = "BLOCKS") || decide (e.edgeType = "BLOCKED_BY")

namespace InMemoryGraphStore
variable (st : InMemoryGraphStore)

def getNode (ctx : QueryContext) (nodeId : String) : Option GraphNode :=
  (st.nodes.get (ctx.tenantId, nodeId)).filter (visibleNode ctx)

def getState (ctx : QueryContext) (nodeId stateKey : String) : Option EntityState :=
  let stored := st.states.get (ctx.tenantId, nodeId, stateKey)
  if (st.getNode ctx nodeId).isNone then
    -- fail closed
    match stored with
    | some s => if !visibleState ctx s then none else stored.filter (visibleState ctx)
    | none => none
  else stored.filter (visibleState ctx)

/-- The edges of a tenant, oldest entry first. -/
def allEdges (tenantId : String) : List GraphEdge := (st.edges.get tenantId).getD []

def neighborhood (now : DateTime) (ctx : QueryContext) (rootId : String) (hops : Nat) :
    GraphResult Neighborhood :=
  match st.getNode ctx rootId with
  | none => .error (.notFound ("node " ++ rootId))
  | some root =>
    let hops := clamp 1 6 hops
    let out := sweep ctx now (st.getNode ctx) (st.allEdges ctx.tenantId) hops
      ⟨[rootId], [root], [], [rootId]⟩
    .ok ⟨root, out.nodes, out.edges, hops⟩

/-- Every node in the queue but the first was reached by an edge that leads to no other: that bounds
the rounds of the search. -/
def pathFuel (now : DateTime) (ctx : QueryContext) : Nat :=
  (st.allEdges ctx.tenantId).countP (usableEdge ctx now) + 1

def path (now : DateTime) (ctx : QueryContext) (fromId toId : String) (maxHops : Nat) :
    GraphResult (Option GraphPath) :=
  let maxHops := clamp 1 6 maxHops
  if (st.getNode ctx fromId).isNone || (st.getNode ctx toId).isNone then .ok none
  else
    let start : Search := ⟨∅, (∅ : KMap String Nat).put fromId 0, [fromId]⟩
    match search ctx now (st.getNode ctx) toId maxHops (st.allEdges ctx.tenantId)
        (st.pathFuel now ctx) start with
    | none => .ok none
    | some found =>
      match walkBack found.prev fromId ((found.dist.get toId).getD 0) toId ([toId], []) with
      | none => .error (.internal "called `Option::unwrap()` on a `None` value")
      | some (ids, edges) => .ok (some ⟨ids.filterMap (st.getNode ctx), edges⟩)

def blockers (now : DateTime) (ctx : QueryContext) (forNodeId : String) : List GraphEdge :=
  (st.allEdges ctx.tenantId).filter fun e => visibleEdge ctx e && activeEdge now e
    && isBlockEdge e && (decide (e.fromNodeId = forNodeId) || decide (e.toNodeId = forNodeId))

def listNodesByType (ctx : QueryContext) (nodeType : String) (limit : Nat) : List GraphNode :=
  let out := st.nodes.values.filter fun n => decide (n.tenantId = ctx.tenantId)
    && Text.eqIgnoreAsciiCase n.nodeType nodeType && visibleNode ctx n
  (out.insertionSort nodeIdLe).take (clamp 1 500 limit)

def listEdgesByType (now : DateTime) (ctx : QueryContext) (edgeType : String) (limit : Nat) :
    List GraphEdge :=
  let out := (st.allEdges ctx.tenantId).filter fun e => visibleEdge ctx e && activeEdge now e
    && Text.eqIgnoreAsciiCase e.edgeType edgeType
  (out.insertionSort edgeIdLe).take (clamp 1 500 limit)

def snapshot (now : DateTime) (ctx : QueryContext) (nodeLimit edgeLimit : Nat) :
    List GraphNode × List GraphEdge :=
  let nodeLimit := clamp 1 2000 nodeLimit
  let edgeLimit := clamp 1 4000 edgeLimit
  let nodes := st.nodes.values.filter fun n => decide (n.tenantId = ctx.tenantId)
    && visibleNode ctx n
  let nodes := (nodes.insertionSort (thenBy typeRank nodeIdLe)).take nodeLimit
  let edges := (st.allEdges ctx.tenantId).filter fun e => visibleEdge ctx e && activeEdge now e
  -- prefer edges whose endpoints are in the node set when it is cut off
  let edges := if nodes.length = nodeLimit then
      edges.filter fun e => nodes.any (fun n => n.nodeId = e.fromNodeId)
        && nodes.any (fun n => n.nodeId = e.toNodeId)
    else edges
  (nodes, (edges.insertionSort (thenBy edgeRank newerOrSame)).take edgeLimit)

end InMemoryGraphStore

/-! ## Enough rounds

A node enters the queue with an edge both of whose ends are then known, and no edge does that
twice. -/

section Rounds
variable {ctx : QueryContext} {now : DateTime} {node : String → Option GraphNode} {toId : String}
  {all : List GraphEdge} {maxHops : Nat}

/-- A usable edge with an end that was not reached yet. -/
def openEdge (ctx : QueryContext) (now : DateTime) (s : Search) (e : GraphEdge) : Bool :=
  usableEdge ctx now e && !(s.dist.has e.fromNodeId && s.dist.has e.toNodeId)

/-- The rounds that are left at most. -/
def roundsLeft (ctx : QueryContext) (now : DateTime) (all : List GraphEdge) (s : Search) : ℕ :=
  s.queue.length + all.countP (openEdge ctx now s)

def QueueReached (s : Search) : Prop := ∀ id ∈ s.queue, s.dist.has id = true

theorem countP_lt_of_mem {α : Type} {p q : α → Bool} {l : List α} (himp : ∀ x ∈ l, q x → p x)
    {x : α} (hx : x ∈ l) (hp : p x = true) (hq : q x = false) : l.countP q < l.countP p := by
  obtain ⟨xs, ys, rfl⟩ := List.append_of_mem hx
  have hxs : xs.countP q ≤ xs.countP p :=
    List.countP_mono_left fun y hy => himp y (List.mem_append_left _ hy)
  have hys : ys.countP q ≤ ys.countP p :=
    List.countP_mono_left fun y hy => himp y (List.mem_append_right _ (List.mem_cons_of_mem _ hy))
  simp only [List.countP_append, List.countP_cons, hp, hq]
  simp only [Bool.false_eq_true, if_false, if_true]
  omega

theorem has_put {m : KMap String Nat} {k k' : String} {v : Nat} (h : m.has k' = true) :
    (m.put k v).has k' = true := by
  obtain ⟨w, hw⟩ := KMap.has_iff.mp h
  refine KMap.has_iff.mpr ?_
  rw [KMap.get_put]
  split_ifs
  · exact ⟨v, rfl⟩
  · exact ⟨w, hw⟩

theorem otherEnd_some {e : GraphEdge} {cur other : String} (h : otherEnd e cur = some other) :
    (e.fromNodeId = cur ∧ e.toNodeId = other) ∨ (e.toNodeId = cur ∧ e.fromNodeId = other) := by
  unfold otherEnd at h
  split_ifs at h with hfrom hto
  · exact .inl ⟨hfrom, Option.some.inj h⟩
  · exact .inr ⟨hto, Option.some.inj h⟩

/-- The edge that leads to a new node is an open one no longer. -/
theorem openEdge_reached {s : Search} {cur other : String} {d : Nat} {e : GraphEdge}
    (he : e ∈ all) (husable : usableEdge ctx now e = true) (hother : otherEnd e cur = some other)
    (hcur : s.dist.has cur = true) (hnew : s.dist.has other = false) {s' : Search}
    (hs' : s'.dist = s.dist.put other d) :
    all.countP (openEdge ctx now s') < all.countP (openEdge ctx now s) := by
  refine countP_lt_of_mem ?_ he ?_ ?_
  · intro x _ hx
    simp only [openEdge, Bool.and_eq_true, Bool.not_eq_true', Bool.and_eq_false_iff] at hx ⊢
    refine ⟨hx.1, ?_⟩
    by_contra hboth
    obtain ⟨hfrom, hto⟩ := not_or.mp hboth
    rw [Bool.not_eq_false] at hfrom hto
    rw [hs', has_put hfrom, has_put hto] at hx
    simp at hx
  · rcases otherEnd_some hother with ⟨rfl, rfl⟩ | ⟨rfl, rfl⟩ <;>
      simp [openEdge, husable, hcur, hnew]
  · have hself : (s.dist.put other d).has other = true :=
      KMap.has_iff.mpr ⟨d, KMap.get_put_self _ _ _⟩
    rcases otherEnd_some hother with ⟨rfl, rfl⟩ | ⟨rfl, rfl⟩ <;>
      simp [openEdge, hs', hself, has_put hcur]

theorem scanEdges_rounds {cur : String} {d : Nat} {es : List GraphEdge} (hes : ∀ e ∈ es, e ∈ all)
    {s s' : Search} {found : Bool} (hcur : s.dist.has cur = true) (hqueue : QueueReached s)
    (h : scanEdges ctx now node toId cur d es s = (found, s')) :
    found = true ∨ (QueueReached s' ∧ roundsLeft ctx now all s' ≤ roundsLeft ctx now all s) := by
  induction es generalizing s with
  | nil =>
    obtain ⟨-, rfl⟩ := Prod.mk.inj h
    exact .inr ⟨hqueue, le_refl _⟩
  | cons e es ih =>
    have hrest : ∀ x ∈ es, x ∈ all := fun x hx => hes x (List.mem_cons_of_mem _ hx)
    simp only [scanEdges] at h
    split at h
    · exact ih hrest hcur hqueue h
    · next husable =>
      split at h
      · exact ih hrest hcur hqueue h
      · next other hother =>
        split_ifs at h with hnode hseen htarget
        · exact ih hrest hcur hqueue h
        · exact ih hrest hcur hqueue h
        · exact .inl (Prod.mk.inj h).1.symm
        · have hnew : s.dist.has other = false := by simpa using hseen
          have hclosed : all.countP (openEdge ctx now
              ⟨s.prev.put other (cur, e), s.dist.put other (d + 1), s.queue ++ [other]⟩) <
              all.countP (openEdge ctx now s) :=
            openEdge_reached (hes e List.mem_cons_self) (by simpa using husable) hother hcur hnew rfl
          refine (ih hrest (has_put hcur) ?_ h).imp id fun hih => ⟨hih.1, hih.2.trans ?_⟩
          · intro id hid
            rcases List.mem_append.mp hid with hold | hnew'
            · exact has_put (hqueue id hold)
            · rw [List.mem_singleton.mp hnew']
              exact KMap.has_iff.mpr ⟨_, KMap.get_put_self _ _ _⟩
          · simp only [roundsLeft, List.length_append, List.length_singleton]
            omega

/-- A search that has as many rounds as `roundsLeft` says needs no more. -/
theorem search_rounds {fuel : Nat} {s : Search} (hqueue : QueueReached s)
    (hfuel : roundsLeft ctx now all s ≤ fuel) :
    search ctx now node toId maxHops all (fuel + 1) s =
      search ctx now node toId maxHops all fuel s := by
  induction fuel generalizing s with
  | zero =>
    have hempty : s.queue = [] := by
      unfold roundsLeft at hfuel
      exact List.length_eq_zero_iff.mp (by omega)
    rw [search_nil hempty, search_nil hempty]
  | succ fuel ih =>
    cases hq : s.queue with
    | nil => rw [search_nil hq, search_nil hq]
    | cons cur rest =>
      have hcur : s.dist.has cur = true := hqueue cur (by simp [hq])
      have hpopped : QueueReached { s with queue := rest } :=
        fun id hid => hqueue id (by simp [hq, List.mem_cons_of_mem _ hid])
      have hleft : roundsLeft ctx now all { s with queue := rest } ≤ fuel := by
        simp only [roundsLeft, hq, List.length_cons] at hfuel ⊢
        have hsame : all.countP (openEdge ctx now { s with queue := rest }) =
          all.countP (openEdge ctx now s) := rfl
        omega
      rw [search_succ hq, search_succ hq]
      split_ifs
      · exact ih hpopped hleft
      · rcases hscan : scanEdges ctx now node toId cur ((s.dist.get cur).getD 0) all
          { s with queue := rest } with ⟨found, s'⟩
        rcases scanEdges_rounds (s := { s with queue := rest }) (fun _ he => he) hcur hpopped hscan with rfl | ⟨hq', hle⟩
        · rfl
        · cases found with
          | true => rfl
          | false => exact ih hq' (hle.trans hleft)

theorem roundsLeft_start (st : InMemoryGraphStore) (fromId : String) :
    roundsLeft ctx now (st.allEdges ctx.tenantId) ⟨∅, (∅ : KMap String Nat).put fromId 0, [fromId]⟩ ≤
      st.pathFuel now ctx := by
  have hopen : (st.allEdges ctx.tenantId).countP (openEdge ctx now
      ⟨∅, (∅ : KMap String Nat).put fromId 0, [fromId]⟩) ≤
      (st.allEdges ctx.tenantId).countP (usableEdge ctx now) := by
    refine List.countP_mono_left fun e _ he => ?_
    simp only [openEdge, Bool.and_eq_true] at he
    exact he.1
  simp only [roundsLeft, InMemoryGraphStore.pathFuel, List.length_singleton]
  omega

/-- **The rounds of `path` are enough**: with more the search finds the same. -/
theorem path_rounds_enough (st : InMemoryGraphStore) (fromId : String) (k : Nat) :
    search ctx now node toId maxHops (st.allEdges ctx.tenantId) (st.pathFuel now ctx + k)
        ⟨∅, (∅ : KMap String Nat).put fromId 0, [fromId]⟩ =
      search ctx now node toId maxHops (st.allEdges ctx.tenantId) (st.pathFuel now ctx)
        ⟨∅, (∅ : KMap String Nat).put fromId 0, [fromId]⟩ := by
  induction k with
  | zero => rfl
  | succ k ih =>
    rw [← ih, ← Nat.add_assoc]
    refine search_rounds ?_ ?_
    · intro id hid
      rw [List.mem_singleton.mp hid]
      exact KMap.has_iff.mpr ⟨0, KMap.get_put_self _ _ _⟩
    · exact (roundsLeft_start st fromId).trans (Nat.le_add_right _ k)

end Rounds

end AiManager.Graph
