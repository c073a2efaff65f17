import AiManager.Graph.Lifecycle
import AiManager.Graph.Server
import AiManager.Twins.Digest
import AiManager.Twins.HttpV2

/-! # Finished work, from the graph to the digest

The graph files the status of a pull request under `lifecycle` and that of an issue under `status`, as the
provider spelled it. The client of the compiler asks for `lifecycle` and nothing else, and what has no
state counts as open. Besides, the graph has a node for what a work item is meant for, and the id of one about
a pull request makes it look like a pull request itself; nobody files a state for it. A finished work item is
therefore reported as finished exactly where its own node is, not that of an intent, if it is a pull request
and one of the person's identities was told its lifecycle (`finished_not_open_iff`). -/

namespace AiManager.Platform

open Lib Twins

/-! ## The way to the graph API -/

inductive V2Endpoint where
  | neighborhood (hops : Nat)
  | blockers
  | state (stateKey : String)

/-- A call by the parts of its URL. -/
structure V2Call where
  endpoint : V2Endpoint
  tenantId : String
  userId : String
  nodeId : String

/-- How the server reads the parts of a URL, what fails on the way, and the server's clock. -/
structure V2Link where
  decodePath : String → Option String
  decodeQuery : String → String
  failure : V2Call → Option HttpFailure
  statusError : V2Call → Nat → String
  clock : V2Call → DateTime

def readNode (n : Graph.GraphNode) : GraphNodeView :=
  ⟨n.nodeId, n.nodeType, n.displayName, n.resourceId, n.properties, n.isPrivate⟩

def readEdge (e : Graph.GraphEdge) : GraphEdgeView :=
  ⟨e.edgeId, e.edgeType, e.fromNodeId, e.toNodeId, e.eventId, e.properties, e.isPrivate, some e.validFrom⟩

def readState (s : Graph.EntityState) : V2State :=
  ⟨s.nodeId, s.stateKey, s.stateValue, s.eventId, some s.asOf⟩

def readNeighborhood (nb : Graph.Neighborhood) : V2Neighborhood :=
  ⟨some (readNode nb.root), nb.nodes.map readNode, nb.edges.map readEdge⟩

/-- The call for the lifecycle of a node. -/
def stateCall (twin : Twin) (sid : String) (n : GraphNodeView) : V2Call :=
  ⟨.state "lifecycle", urlencodingLite twin.tenantId, urlencodingLite sid, urlencodingLite n.nodeId⟩

namespace V2Link
variable (link : V2Link)

/-- A path that cannot be decoded is refused; an answer of the handler is read by the client. -/
def ask {α β : Type} (call : V2Call) (handler : DateTime → String → Graph.GraphResult α) (read : α → β) :
    Except HttpFailure β :=
  match link.failure call, link.decodePath call.tenantId with
  | some e, _ => .error e
  | none, none => .error (.status 400 (link.statusError call 400))
  | none, some tenantId =>
    match handler (link.clock call) tenantId with
    | .ok answer => .ok (read answer)
    | .error e => .error (.status e.status (link.statusError call e.status))

def api (sv : Graph.Server) : V2Api where
  neighborhood t u n hops := link.ask ⟨.neighborhood hops, t, u, n⟩ (fun now tenantId =>
    sv.neighborhood now tenantId (link.decodeQuery u) (link.decodeQuery n) (some hops)) readNeighborhood
  blockers t u n := link.ask ⟨.blockers, t, u, n⟩ (fun now tenantId =>
    sv.blockers now tenantId (link.decodeQuery u) (link.decodeQuery n)) (List.map readEdge)
  state t u n stateKey := link.ask ⟨.state stateKey, t, u, n⟩ (fun _ tenantId =>
    sv.stateQuery tenantId (link.decodeQuery u) (link.decodeQuery n) (some stateKey)) (Option.map readState)

/-- The tenant that the server reads. -/
def tenantOf (twin : Twin) : String :=
  (link.decodePath (urlencodingLite twin.tenantId)).getD twin.tenantId

/-- The reader that the server sees in a call for an identity. -/
def readerOf (sv : Graph.Server) (twin : Twin) (sid : String) : Graph.QueryContext :=
  sv.ctxFor (link.tenantOf twin) (link.decodeQuery (urlencodingLite sid))

/-- An identity was told the state: its neighborhood shows a node whose call for a state gets through to
the node of the state, and the store gives it the state. -/
def Tells (sv : Graph.Server) (twin : Twin) (hops : Nat) (s : Graph.EntityState) (sid : String) : Prop :=
  ∃ nb, (link.api sv).neighborhood (urlencodingLite twin.tenantId) (urlencodingLite sid)
      (urlencodingLite (personNode sid)) hops = .ok nb ∧
    ∃ n ∈ nb.shown, asksState n = true ∧ link.failure (stateCall twin sid n) = none ∧
      Graph.stateNodeId (link.decodeQuery (urlencodingLite n.nodeId)) = s.nodeId ∧
      sv.store.getState (link.readerOf sv twin sid) s.nodeId "lifecycle" = some s

end V2Link

/-! ## Statuses -/

/-- The work item that a node stands for: an intent stands for the one that it is about. -/
def workOf (node : GraphNodeView) : String :=
  if node.nodeType = "Intent" then (node.properties.getStr "about_node_id").getD node.nodeId else node.nodeId

/-- The status that the graph holds of a work item. -/
def latestStatus (reads : Graph.StoreReads) (tenantId nodeId : String) : Option Graph.EntityState :=
  (reads.stateRow (tenantId, nodeId, "lifecycle")).or (reads.stateRow (tenantId, nodeId, "status"))

def isFinishedStatus (value : String) : Bool :=
  ["closed", "done", "resolved", "merged"].contains (Text.toAsciiLowercase value)

/-- The two ways in which a summary calls an item open. -/
def DescribedOpen (node : GraphNodeView) (it : LedgerItem) : Prop :=
  it.summary = "Open " ++ it.kind ++ ": " ++ nodeTitle node ∨
    (nodeTitle node = "" ∧
      it.summary = Text.toAsciiUppercase it.kind ++ " " ++ node.resourceId ++ " (" ++ "OPEN" ++ ")")

structure ReportedFinished (view : GraphView) (node : GraphNodeView) (it : LedgerItem) : Prop where
  notOpenWork : isOpenWork view node = false
  notDescribed : ¬ DescribedOpen node it

/-- The rows of states after a history: a lifecycle is one of a pull request, a status one of an issue. -/
inductive StatusRow (s : Graph.EntityState) : Prop
  | lifecycle (res : String) (hnode : s.nodeId = Graph.prNodeId res) (hkey : s.stateKey = "lifecycle")
      (hvalue : s.stateValue ∈ Graph.lifecycleValues)
  | status (res : String) (hnode : s.nodeId = Graph.issueNodeId res) (hkey : s.stateKey = "status")

section History
variable {isAlphanumeric : Char → Bool} {ps : List Graph.V1BusPayload} {reads : Graph.StoreReads}

theorem lifecycleOf_mem (eventType : String) : Graph.lifecycleOf eventType ∈ Graph.lifecycleValues := by
  unfold Graph.lifecycleOf
  split_ifs <;> decide

theorem statusRow_of_mapEvent {s : Graph.EntityState} {event : Graph.V1CanonicalEvent}
    (h : s ∈ (Graph.mapEvent isAlphanumeric event).states) : StatusRow s := by
  rcases Graph.mapEvent_statuses isAlphanumeric event with hnone | ⟨res, hone⟩ | ⟨res, status, hone⟩
  · rw [hnone] at h
    cases h
  · rw [hone] at h
    obtain rfl := List.mem_singleton.mp h
    exact .lifecycle res rfl rfl (lifecycleOf_mem _)
  · rw [hone] at h
    obtain rfl := List.mem_singleton.mp h
    exact .status res rfl rfl

theorem statusRow_of_history (hreads : Graph.ReadsAfter (Graph.mapEvent isAlphanumeric) ps reads)
    {key : String × String × String} {s : Graph.EntityState} (h : reads.stateRow key = some s) : StatusRow s := by
  obtain ⟨p, -, t, ht, heq⟩ := hreads.rowsOf.state key s h
  have hrow : StatusRow t := by
    cases p with
    | event ev => exact statusRow_of_mapEvent ht
    | acl rev => cases ht
  rw [heq]
  cases hrow with
  | lifecycle res hnode hkey hvalue => exact .lifecycle res hnode hkey hvalue
  | status res hnode hkey => exact .status res hnode hkey

/-- An intent is named as one. -/
theorem intent_of_history (hreads : Graph.ReadsAfter (Graph.mapEvent isAlphanumeric) ps reads)
    {key : String × String} {n : Graph.GraphNode} (h : reads.nodeRow key = some n) (htype : n.nodeType = "Intent") :
    ∃ owner about, n.nodeId = Graph.intentNodeId owner about := by
  obtain ⟨p, -, hn⟩ := hreads.rowsOf.node key n h
  cases p with
  | acl rev => cases hn
  | event ev =>
    have hnode : Graph.NodeOf ev n := Graph.GraphMutation.Of.mapEvent.nodes n hn
    cases hnode with
    | own nodeId nodeType displayName resourceId properties hname => exact hname.resolve_left (not_not_intro htype)
    | shared hshared nodeId displayName resourceId properties =>
      rcases hshared with rfl | rfl
      · exact absurd (show "Person" = "Intent" from htype) (by decide)
      · exact absurd (show "Team" = "Intent" from htype) (by decide)

end History

/-! ## States of the merged view -/

section States
variable {link : V2Link} {sv : Graph.Server} {utcNow : String → DateTime} {twin : Twin} {hops : Nat}
  {sid : String} {n : GraphNodeView} {s : Graph.EntityState} {v : EntityStateView}

/-- A state as the views carry it. -/
def stateView (s : Graph.EntityState) : EntityStateView :=
  ⟨s.nodeId, s.stateKey, s.stateValue, s.eventId, s.asOf⟩

theorem ask_ok {α β : Type} {call : V2Call} {handler : DateTime → String → Graph.GraphResult α}
    {read : α → β} {b : β} : link.ask call handler read = .ok b ↔
      link.failure call = none ∧ ∃ tenantId, link.decodePath call.tenantId = some tenantId ∧
        ∃ a, handler (link.clock call) tenantId = .ok a ∧ read a = b := by
  unfold V2Link.ask
  cases hfailure : link.failure call with
  | some e => simp
  | none =>
    cases hpath : link.decodePath call.tenantId with
    | none => simp
    | some tenantId =>
      cases hanswer : handler (link.clock call) tenantId with
      | error e => simp [hanswer]
      | ok a => simp [hanswer]

theorem neighborhood_ok {t u root : String} {nb : V2Neighborhood} :
    (link.api sv).neighborhood t u root hops = .ok nb ↔ link.failure ⟨.neighborhood hops, t, u, root⟩ = none ∧
      ∃ tenantId, link.decodePath t = some tenantId ∧ ∃ found, sv.neighborhood
        (link.clock ⟨.neighborhood hops, t, u, root⟩) tenantId (link.decodeQuery u) (link.decodeQuery root) (some hops) =
          .ok found ∧ readNeighborhood found = nb := by
  show link.ask ⟨.neighborhood hops, t, u, root⟩ (fun now tenantId =>
    sv.neighborhood now tenantId (link.decodeQuery u) (link.decodeQuery root) (some hops)) readNeighborhood = .ok nb ↔ _
  exact ask_ok

theorem decoded_of_neighborhood {t u root : String} {nb : V2Neighborhood}
    (h : (link.api sv).neighborhood t u root hops = .ok nb) : ∃ tenantId, link.decodePath t = some tenantId := by
  obtain ⟨-, tenantId, hpath, -⟩ := neighborhood_ok.mp h
  exact ⟨tenantId, hpath⟩

theorem tenantOf_eq {tenantId : String} (h : link.decodePath (urlencodingLite twin.tenantId) = some tenantId) :
    link.tenantOf twin = tenantId := by
  unfold V2Link.tenantOf
  rw [h]
  rfl

/-- A state call answers what the store gives the identity of the node it gets to. -/
theorem state_ok {tenantId : String} (hpath : link.decodePath (urlencodingLite twin.tenantId) = some tenantId)
    {found : Option V2State} :
    (link.api sv).state (urlencodingLite twin.tenantId) (urlencodingLite sid) (urlencodingLite n.nodeId) "lifecycle" =
        .ok found ↔
      link.failure (stateCall twin sid n) = none ∧ (sv.store.getState (link.readerOf sv twin sid)
        (Graph.stateNodeId (link.decodeQuery (urlencodingLite n.nodeId))) "lifecycle").map readState = found := by
  show link.ask (stateCall twin sid n) (fun _ tenantId => sv.stateQuery tenantId (link.decodeQuery (urlencodingLite sid))
    (link.decodeQuery (urlencodingLite n.nodeId)) (some "lifecycle")) (Option.map readState) = .ok found ↔ _
  rw [ask_ok]
  refine and_congr_right fun _ => ?_
  show (∃ t, link.decodePath (urlencodingLite twin.tenantId) = some t ∧ _) ↔ _
  rw [hpath]
  unfold V2Link.readerOf
  rw [tenantOf_eq hpath]
  constructor
  · rintro ⟨t, ht, a, ha, rfl⟩
    obtain rfl := Option.some.inj ht
    obtain rfl := Except.ok.inj ha
    rfl
  · rintro rfl
    exact ⟨tenantId, rfl, _, rfl, rfl⟩

theorem fetchState_some {tenantId : String}
    (hpath : link.decodePath (urlencodingLite twin.tenantId) = some tenantId) (utc : DateTime) :
    fetchState (link.api sv) utc twin.tenantId sid n = some v ↔
      link.failure (stateCall twin sid n) = none ∧ ∃ s,
        sv.store.getState (link.readerOf sv twin sid)
          (Graph.stateNodeId (link.decodeQuery (urlencodingLite n.nodeId))) "lifecycle" = some s ∧ v = stateView s := by
  unfold fetchState
  split
  · next found hfound =>
    obtain ⟨hfailure, rfl⟩ := (state_ok hpath).mp hfound
    rw [Option.map_map, Option.map_eq_some_iff]
    simp only [hfailure, true_and]
    constructor
    · rintro ⟨s, hs, rfl⟩
      exact ⟨s, hs, rfl⟩
    · rintro ⟨s, hs, rfl⟩
      exact ⟨s, hs, rfl⟩
  · next e he =>
    refine iff_of_false nofun ?_
    rintro ⟨hfailure, -⟩
    cases he.symm.trans ((state_ok hpath).mpr ⟨hfailure, rfl⟩)

theorem keys_of_stored {reads : Graph.StoreReads} {tenantId nodeId stateKey : String}
    (h : reads.stateRow (tenantId, nodeId, stateKey) = some s) : s.nodeId = nodeId ∧ s.stateKey = stateKey := by
  have hkey : s.key = (tenantId, nodeId, stateKey) := reads.key_of_stateRow h
  exact Prod.mk.inj (Prod.mk.inj hkey).2

theorem mem_fetchedViews {source : GraphSource} {view : GraphView} : view ∈ fetchedViews source twin hops ↔
    ∃ sid ∈ subjectIds twin, fetchPersonView source twin hops sid = .ok view := by
  unfold fetchedViews
  rw [List.mem_filterMap]
  refine exists_congr fun sid => and_congr_right fun _ => ?_
  cases fetchPersonView source twin hops sid <;> simp [Except.toOption]

/-- A node of the merged view is one that the store holds. -/
theorem stored_of_mem (h : n ∈ (fetchViews (HttpV2GraphSource (link.api sv) utcNow) twin hops).nodes) :
    ∃ m, n = readNode m ∧ sv.store.nodeRow (link.tenantOf twin, m.nodeId) = some m := by
  rw [fetchViews_eq] at h
  obtain ⟨view, hview, hn⟩ := (mergedView_from _).nodes n h
  obtain ⟨sid, -, hfetch⟩ := mem_fetchedViews.mp hview
  rcases httpPersonView_ok hfetch with ⟨hnone, -⟩ | ⟨nb, hnb, hnodes, -⟩
  · rw [hnone] at hn
    cases hn
  rw [hnodes] at hn
  obtain ⟨-, tenantId, hpath, found, hfound, rfl⟩ := neighborhood_ok.mp hnb
  -- the root and the nodes of the answer are rows of the tenant
  have hrows : ∀ m, m = found.root ∨ m ∈ found.nodes → sv.store.nodeRow (tenantId, m.nodeId) = some m :=
    sv.store.of_neighborhood hfound
  have hshown : n = readNode found.root ∨ n ∈ found.nodes.map readNode := by
    unfold V2Neighborhood.shown readNeighborhood at hn
    dsimp only at hn
    split_ifs at hn
    · exact .inr hn
    · rcases List.mem_append.mp hn with hmem | hroot
      · exact .inr hmem
      · exact .inl (List.mem_singleton.mp hroot)
  rw [tenantOf_eq hpath]
  rcases hshown with rfl | hmem
  · exact ⟨found.root, rfl, hrows _ (.inl rfl)⟩
  · obtain ⟨m, hm, rfl⟩ := List.mem_map.mp hmem
    exact ⟨m, rfl, hrows m (.inr hm)⟩

/-- A state of the merged view is a lifecycle that an identity was told. -/
theorem told_of_mem (h : v ∈ (fetchViews (HttpV2GraphSource (link.api sv) utcNow) twin hops).states) :
    ∃ s, sv.store.stateRow (link.tenantOf twin, s.nodeId, "lifecycle") = some s ∧ v = stateView s ∧
      ∃ sid ∈ subjectIds twin, link.Tells sv twin hops s sid := by
  rw [fetchViews_eq] at h
  obtain ⟨view, hview, hv⟩ := (mergedView_from _).states v h
  obtain ⟨sid, hsid, hfetch⟩ := mem_fetchedViews.mp hview
  rcases httpPersonView_ok hfetch with ⟨-, hnone⟩ | ⟨nb, hnb, -, hstates⟩
  · rw [hnone] at hv
    cases hv
  · rw [hstates] at hv
    obtain ⟨n, hn, hfound⟩ := List.mem_filterMap.mp hv
    obtain ⟨hshown, hasks⟩ := List.mem_filter.mp hn
    obtain ⟨tenantId, hpath⟩ := decoded_of_neighborhood hnb
    obtain ⟨hfailure, s, hs, rfl⟩ := (fetchState_some hpath _).mp hfound
    have hstored := sv.store.of_getState hs
    have hnode := (keys_of_stored hstored).1
    rw [← hnode] at hs hstored
    exact ⟨s, hstored, rfl, sid, hsid, nb, hnb, n, hshown, hasks, hfailure, hnode.symm, hs⟩

variable (utcNow) in
/-- What an identity was told is in the merged view. -/
theorem mem_of_told (hsid : sid ∈ subjectIds twin) (htold : link.Tells sv twin hops s sid) :
    ∃ v ∈ (fetchViews (HttpV2GraphSource (link.api sv) utcNow) twin hops).states,
      v.nodeId = s.nodeId ∧ v.stateKey = "lifecycle" := by
  obtain ⟨nb, hnb, n, hshown, hasks, hfailure, hnode, hs⟩ := htold
  obtain ⟨view, hview, hstates⟩ := exists_httpPersonView (utcNow sid) hnb
  obtain ⟨tenantId, hpath⟩ := decoded_of_neighborhood hnb
  have hkey := (keys_of_stored (sv.store.of_getState hs)).2
  rw [← hnode] at hs
  have hfound := (fetchState_some hpath (utcNow sid)).mpr ⟨hfailure, s, hs, rfl⟩
  have hmem : stateView s ∈ view.states := by
    rw [hstates]
    exact List.mem_filterMap.mpr ⟨n, List.mem_filter.mpr ⟨hshown, hasks⟩, hfound⟩
  have hfetched : view ∈ fetchedViews (HttpV2GraphSource (link.api sv) utcNow) twin hops :=
    mem_fetchedViews.mpr ⟨sid, hsid, hview⟩
  obtain ⟨v, hv, hlike⟩ := exists_mergedView
    (fun x s => x.nodeId == s.nodeId && x.stateKey == s.stateKey) GraphView.states (fun x => by simp)
    (fun _ _ => rfl) hfetched hmem
  rw [← fetchViews_eq] at hv
  simp only [Bool.and_eq_true, beq_iff_eq] at hlike
  exact ⟨v, hv, hlike.1, hlike.2.trans hkey⟩

variable (utcNow) in
/-- The state of a node in the merged view is the stored lifecycle, if an identity was told it. -/
theorem nodeState_told (hs : sv.store.stateRow (link.tenantOf twin, s.nodeId, "lifecycle") = some s)
    (htold : ∃ sid ∈ subjectIds twin, link.Tells sv twin hops s sid) :
    nodeState (fetchViews (HttpV2GraphSource (link.api sv) utcNow) twin hops).states s.nodeId =
      some (stateView s) := by
  obtain ⟨sid, hsid, htells⟩ := htold
  obtain ⟨v, hv, hnode, hkey⟩ := mem_of_told utcNow hsid htells
  have hsome : (nodeState (fetchViews (HttpV2GraphSource (link.api sv) utcNow) twin hops).states
      s.nodeId).isSome = true := by
    unfold nodeState
    rw [Option.isSome_or, Bool.or_eq_true, List.find?_isSome]
    exact .inl ⟨v, hv, by rw [hnode, hkey, beq_self_eq_true, beq_self_eq_true]; rfl⟩
  obtain ⟨w, hw⟩ := Option.isSome_iff_exists.mp hsome
  obtain ⟨hmem, hnode⟩ := nodeState_mem hw
  obtain ⟨t, ht, rfl, -⟩ := told_of_mem hmem
  -- both are the state stored under one key
  have hsame : t.nodeId = s.nodeId := hnode
  rw [hsame, hs] at ht
  rw [hw, Option.some.inj ht]

variable (utcNow) in
theorem nodeState_untold {nodeId : String}
    (h : ∀ s, sv.store.stateRow (link.tenantOf twin, nodeId, "lifecycle") = some s →
      ¬ ∃ sid ∈ subjectIds twin, link.Tells sv twin hops s sid) :
    nodeState (fetchViews (HttpV2GraphSource (link.api sv) utcNow) twin hops).states nodeId = none := by
  rw [Option.eq_none_iff_forall_ne_some]
  intro w hw
  obtain ⟨hmem, hnode⟩ := nodeState_mem hw
  obtain ⟨t, ht, rfl, htold⟩ := told_of_mem hmem
  have hsame : t.nodeId = nodeId := hnode
  rw [hsame] at ht
  exact h t ht htold

end States

/-! ## What the digest makes of a status -/

section Report
variable {persons : List String} {view : GraphView} {node : GraphNodeView}

theorem isFinished_of_lifecycle {value : String} (hvalue : value ∈ Graph.lifecycleValues)
    (hfinished : isFinishedStatus value = true) : isFinished value = true := by
  simp only [Graph.lifecycleValues, List.mem_cons, List.not_mem_nil, or_false] at hvalue
  rcases hvalue with rfl | rfl | rfl
  · exact absurd hfinished (by decide)
  · decide
  · decide

/-- Texts that differ in a character differ. -/
theorem append_ne_append {a b x y : String} {c d : Char} (common : List Char) {as bs : List Char}
    (ha : a.toList = common ++ c :: as) (hb : b.toList = common ++ d :: bs) (hne : c ≠ d) :
    a ++ x ≠ b ++ y := by
  intro h
  have hchars := congrArg String.toList h
  rw [String.toList_append, String.toList_append, ha, hb, List.append_assoc, List.append_assoc] at hchars
  exact hne (List.cons.inj (List.append_cancel_left hchars)).1

/-- The beginnings of a summary that does not mention the lifecycle. -/
def plainBeginnings : List String := ["Commit ", "Commit: ", "Pushed to ", "CI/activity on ", "Active on "]

variable (node) in
theorem summaryOf_finished (w : WorkShape) (signals : Signals) {lifecycle : String}
    (hfinished : isFinished lifecycle = true) :
    (∃ a ∈ plainBeginnings, ∃ x, summaryOf w node signals lifecycle = a ++ x) ∨
    summaryOf w node signals lifecycle =
      Text.toAsciiUppercase w.kind ++ " " ++ node.resourceId ++ " (" ++ lifecycle ++ ")" ∨
    summaryOf w node signals lifecycle = lifecycle ++ (" " ++ w.kind ++ ": " ++ nodeTitle node) := by
  unfold summaryOf
  dsimp only
  split_ifs
  · exact .inl ⟨"Commit ", by decide, _, rfl⟩
  · exact .inl ⟨"Commit: ", by decide, _, rfl⟩
  · exact .inl ⟨"Pushed to ", by decide, _, rfl⟩
  · exact .inl ⟨"Pushed to ", by decide, _, rfl⟩
  · exact .inl ⟨"CI/activity on ", by decide, _, rfl⟩
  · exact .inl ⟨"CI/activity on ", by decide, _, rfl⟩
  · exact .inl ⟨"Active on ", by decide, _, rfl⟩
  · exact .inl ⟨"Active on ", by decide, _, rfl⟩
  · exact .inr (.inl rfl)
  · refine .inr (.inr ?_)
    simp only [String.append_assoc]

theorem plain_ne {a : String} (ha : a ∈ plainBeginnings) (x y : String) :
    a ++ x ≠ "Open " ++ y ∧ a ++ x ≠ "PR " ++ y := by
  simp only [plainBeginnings, List.mem_cons, List.not_mem_nil, or_false] at ha
  rcases ha with rfl | rfl | rfl | rfl | rfl
  · exact ⟨append_ne_append [] rfl rfl (by decide), append_ne_append [] rfl rfl (by decide)⟩
  · exact ⟨append_ne_append [] rfl rfl (by decide), append_ne_append [] rfl rfl (by decide)⟩
  · exact ⟨append_ne_append [] rfl rfl (by decide), append_ne_append ['P'] rfl rfl (by decide)⟩
  · exact ⟨append_ne_append [] rfl rfl (by decide), append_ne_append [] rfl rfl (by decide)⟩
  · exact ⟨append_ne_append [] rfl rfl (by decide), append_ne_append [] rfl rfl (by decide)⟩

theorem finished_ne {lifecycle : String} (h : isFinished lifecycle = true) (x y : String) :
    lifecycle ++ x ≠ "Open " ++ y ∧ lifecycle ++ x ≠ "PR " ++ y := by
  simp only [isFinished, List.contains_eq_mem, List.mem_cons, List.not_mem_nil, or_false,
    decide_eq_true_eq] at h
  rcases h with rfl | rfl | rfl <;>
    exact ⟨append_ne_append [] rfl rfl (by decide), append_ne_append [] rfl rfl (by decide)⟩

/-- A finished pull request is not described as open, whatever else its node looks like. -/
theorem not_describedOpen (hpr : (workShape node).isPr = true)
    (hfinished : isFinished (lifecycleOf view node.nodeId) = true) :
    ¬ DescribedOpen node (itemOf persons view node) := by
  have hkind : (workShape node).kind = "pr" := by
    unfold WorkShape.kind
    rw [if_pos hpr]
  have hitem : (itemOf persons view node).kind = "pr" := hkind
  have hupper : ∀ y, Text.toAsciiUppercase "pr" ++ " " ++ node.resourceId ++ " (" ++ y ++ ")" =
      "PR " ++ (node.resourceId ++ " (" ++ y ++ ")") := by
    intro y
    have hword : Text.toAsciiUppercase "pr" ++ " " = "PR " := by decide
    rw [hword]
    simp only [String.append_assoc]
  have hopenWord : "Open " ++ "pr" ++ ": " ++ nodeTitle node = "Open " ++ ("pr: " ++ nodeTitle node) := by
    have hword : "pr: " = "pr" ++ ": " := rfl
    rw [hword]
    simp only [String.append_assoc]
  have hsummary := summaryOf_finished node (workShape node)
    (signals persons view.edges node.nodeId) hfinished
  unfold DescribedOpen
  rw [hitem, hopenWord, hupper]
  show ¬ (summaryOf (workShape node) node (signals persons view.edges node.nodeId)
      (lifecycleOf view node.nodeId) = _ ∨ _ ∧ summaryOf (workShape node) node
        (signals persons view.edges node.nodeId) (lifecycleOf view node.nodeId) = _)
  rcases hsummary with ⟨a, ha, x, hx⟩ | hx | hx
  · rw [hx]
    rintro (hopen | ⟨-, hopen⟩)
    · exact (plain_ne ha x _).1 hopen
    · exact (plain_ne ha x _).2 hopen
  · rw [hx, hkind, hupper]
    rintro (hopen | ⟨-, hopen⟩)
    · exact append_ne_append [] rfl rfl (by decide) hopen
    · have hword := (String.append_left_inj _).mp ((String.append_right_inj _).mp hopen)
      rw [(String.append_right_inj _).mp hword] at hfinished
      exact absurd hfinished (by decide)
  · rw [hx]
    rintro (hopen | ⟨-, hopen⟩)
    · exact (finished_ne hfinished _ _).1 hopen
    · exact (finished_ne hfinished _ _).2 hopen

/-- Work without a state counts as open. -/
theorem isOpenWork_stateless (hwork : (workShape node).isPr = true ∨ (workShape node).isIssue = true)
    (hnone : nodeState view.states node.nodeId = none) : isOpenWork view node = true := by
  have hlifecycle : lifecycleOf view node.nodeId = "OPEN" := by
    unfold lifecycleOf
    rw [hnone]
    rfl
  unfold isOpenWork
  rw [hlifecycle, Bool.and_eq_true, Bool.or_eq_true]
  exact ⟨hwork, by decide⟩

theorem shape_of_pr {res : String} (h : node.nodeId = Graph.prNodeId res) : (workShape node).isPr = true := by
  show (_ || Text.startsWith node.nodeId "pr:" || _) = true
  rw [h, Graph.prNodeId, Text.startsWith_append, Bool.or_true, Bool.true_or]

theorem shape_of_issue {res : String} (h : node.nodeId = Graph.issueNodeId res) :
    (workShape node).isIssue = true := by
  show (_ || Text.startsWith node.nodeId "issue:" || _) = true
  rw [h, Graph.issueNodeId, Text.startsWith_append, Bool.or_true, Bool.true_or]

/-- An intent that looks like work looks like a pull request. -/
theorem shape_of_intent {owner about : String} (h : node.nodeId = Graph.intentNodeId owner about)
    (htype : node.nodeType = "Intent") (hwork : (workShape node).any = true) : (workShape node).isPr = true := by
  have hbeginnings : ∀ part ∈ ["issue:", "ticket:", "commit:", "repo:"],
      Text.startsWith (Graph.intentNodeId owner about) part = false := by
    simp [Graph.intentNodeId, Text.startsWith, String.toList_append, List.isPrefixOf]
  have htypes : ∀ ty ∈ ["Issue", "Ticket", "Commit", "Repo"], Text.eqIgnoreAsciiCase "Intent" ty = false := by decide
  simp only [List.mem_cons, List.not_mem_nil, or_false, forall_eq_or_imp, forall_eq] at hbeginnings htypes
  obtain ⟨hissue, hticket, hcommit, hrepo⟩ := hbeginnings
  obtain ⟨hissue', hticket', hcommit', hrepo'⟩ := htypes
  have hother : (workShape node).isIssue = false ∧ (workShape node).isCommit = false ∧
      (workShape node).isRepo = false := by
    simp only [workShape, h, htype, hissue, hticket, hcommit, hrepo, hissue', hticket', hcommit', hrepo',
      Bool.or_self, and_self]
  simpa [WorkShape.any, hother] using hwork

end Report

section Finished
variable {isAlphanumeric : Char → Bool} {ps : List Graph.V1BusPayload} {sv : Graph.Server} {link : V2Link}
  {utcNow : String → DateTime} {twin : Twin} {hops : ℕ} {node : GraphNodeView} {s : Graph.EntityState}

theorem workOf_of_status (hs : latestStatus sv.store (link.tenantOf twin) (workOf node) = some s) :
    s.nodeId = workOf node := by
  rcases Option.or_eq_some_iff.mp hs with hs | ⟨-, hs⟩
  · exact (keys_of_stored hs).1
  · exact (keys_of_stored hs).1

/-- What counts as open is not reported as finished. -/
theorem not_reportedFinished {view : GraphView} {it : LedgerItem} (h : isOpenWork view node = true) :
    ¬ ReportedFinished view node it := fun hreported => Bool.false_ne_true (hreported.notOpenWork.symm.trans h)

variable (utcNow) in
/-- Work of whose lifecycle nobody was told counts as open. -/
theorem isOpenWork_untold (hwork : (workShape node).isPr = true ∨ (workShape node).isIssue = true)
    (h : ∀ t, sv.store.stateRow (link.tenantOf twin, node.nodeId, "lifecycle") = some t →
      ¬ ∃ sid ∈ subjectIds twin, link.Tells sv twin hops t sid) :
    isOpenWork (fetchViews (HttpV2GraphSource (link.api sv) utcNow) twin hops) node = true :=
  isOpenWork_stateless hwork (nodeState_untold utcNow h)

/-- A finished pull request is reported so if it has a state in the merged view. -/
theorem reportedFinished_pr_iff {persons : List String}
    (hs : sv.store.stateRow (link.tenantOf twin, s.nodeId, "lifecycle") = some s) (hnode : s.nodeId = node.nodeId)
    (hpr : (workShape node).isPr = true) (hword : isFinished s.stateValue = true) :
    let view := fetchViews (HttpV2GraphSource (link.api sv) utcNow) twin hops
    ReportedFinished view node (itemOf persons view node) ↔ ∃ sid ∈ subjectIds twin, link.Tells sv twin hops s sid := by
  intro view
  constructor
  · intro h
    by_contra huntold
    refine not_reportedFinished (isOpenWork_untold utcNow (.inl hpr) fun t ht => ?_) h
    rw [← hnode, hs] at ht
    rwa [← Option.some.inj ht]
  · intro htold
    have hlifecycle : lifecycleOf view node.nodeId = s.stateValue := by
      unfold lifecycleOf
      rw [← hnode, nodeState_told utcNow hs htold]
      rfl
    rw [← hlifecycle] at hword
    refine ⟨?_, not_describedOpen hpr hword⟩
    unfold isOpenWork
    rw [hword]
    exact Bool.and_false _

/-- The item of the work's own node. -/
theorem reportedFinished_own_iff (hreads : Graph.ReadsAfter (Graph.mapEvent isAlphanumeric) ps sv.store)
    {persons : List String} (hs : latestStatus sv.store (link.tenantOf twin) node.nodeId = some s)
    (hfinished : isFinishedStatus s.stateValue = true) :
    let view := fetchViews (HttpV2GraphSource (link.api sv) utcNow) twin hops
    ReportedFinished view node (itemOf persons view node) ↔
      s.stateKey = "lifecycle" ∧ ∃ sid ∈ subjectIds twin, link.Tells sv twin hops s sid := by
  intro view
  rcases Option.or_eq_some_iff.mp hs with hs | ⟨hnone, hs⟩
  · obtain ⟨hsnode, hskey⟩ := keys_of_stored hs
    cases statusRow_of_history hreads hs with
    | status res hres hkey =>
      rw [hkey] at hskey
      exact absurd hskey (by decide)
    | lifecycle res hres hkey hvalue =>
      rw [← hsnode] at hs
      rw [hkey, eq_self_iff_true, true_and]
      exact reportedFinished_pr_iff hs hsnode (shape_of_pr (hsnode.symm.trans hres))
        (isFinished_of_lifecycle hvalue hfinished)
  · -- an issue: nobody asks for its status
    obtain ⟨hsnode, hskey⟩ := keys_of_stored hs
    cases statusRow_of_history hreads hs with
    | lifecycle res hres hkey hvalue =>
      rw [hkey] at hskey
      exact absurd hskey (by decide)
    | status res hres hkey =>
      have hissue : (workShape node).isIssue = true := shape_of_issue (hsnode.symm.trans hres)
      refine iff_of_false (not_reportedFinished (isOpenWork_untold utcNow (.inr hissue) fun t ht => ?_)) ?_
      · cases hnone.symm.trans ht
      · rw [hkey]
        exact fun h => absurd h.1 (by decide)

variable (utcNow) in
/-- An intent has no state in any view, so that one that looks like work counts as open. -/
theorem isOpenWork_intent (hreads : Graph.ReadsAfter (Graph.mapEvent isAlphanumeric) ps sv.store)
    (hnode : node ∈ (fetchViews (HttpV2GraphSource (link.api sv) utcNow) twin hops).nodes)
    (htype : node.nodeType = "Intent") (hwork : (workShape node).any = true) :
    isOpenWork (fetchViews (HttpV2GraphSource (link.api sv) utcNow) twin hops) node = true := by
  obtain ⟨m, rfl, hrow⟩ := stored_of_mem hnode
  obtain ⟨owner, about, hid⟩ := intent_of_history hreads hrow htype
  refine isOpenWork_untold utcNow (.inl (shape_of_intent hid htype hwork)) fun t ht => ?_
  have hname : t.nodeId = Graph.intentNodeId owner about := (keys_of_stored ht).1.trans hid
  -- states are those of pull requests and issues
  cases statusRow_of_history hreads ht with
  | lifecycle res hres _ _ =>
    rw [hres] at hname
    simp only [Graph.prNodeId, Graph.intentNodeId, String.append_assoc] at hname
    exact absurd hname (append_ne_append [] rfl rfl (by decide))
  | status res hres _ =>
    rw [hres] at hname
    simp only [Graph.issueNodeId, Graph.intentNodeId, String.append_assoc] at hname
    exact absurd hname (append_ne_append ['i'] rfl rfl (by decide))

end Finished

/-- **Finished work is reported as finished** exactly in the item of its own node, if it is a pull request whose
lifecycle some identity of the person was told: after every history, over either store. -/
theorem finished_not_open_iff (isAlphanumeric : Char → Bool) (ps : List Graph.V1BusPayload) {sv : Graph.Server}
    (hreads : Graph.ReadsAfter (Graph.mapEvent isAlphanumeric) ps sv.store) (link : V2Link)
    (utcNow : String → DateTime) (r : CompileReadings) (twin : Twin) (opts : CompileOpts) :
    let source := HttpV2GraphSource (link.api sv) utcNow
    let view := fetchViews source twin opts.hops
    ∀ it ∈ (compiledLedger source r twin opts).ledger.items, ∀ node ∈ view.nodes, node.nodeId = it.nodeId →
      ∀ s, latestStatus sv.store (link.tenantOf twin) (workOf node) = some s →
        isFinishedStatus s.stateValue = true →
        (ReportedFinished view node it ↔ node.nodeId = s.nodeId ∧
          s.stateKey = "lifecycle" ∧ ∃ sid ∈ subjectIds twin, link.Tells sv twin opts.hops s sid) := by
  intro source view it hit node hnode hid s hs hfinished
  obtain ⟨node', hnode', hcounts, rfl⟩ := exists_node_of_mem_compiledItems hit
  have hnodup : (view.nodes.map GraphNodeView.nodeId).Nodup := by
    show ((fetchViews source twin opts.hops).nodes.map GraphNodeView.nodeId).Nodup
    rw [fetchViews_eq]
    exact mergedView_nodes_nodup
  obtain rfl : node = node' := List.inj_on_of_nodup_map hnodup hnode hnode' hid
  have hwork := workOf_of_status hs
  by_cases hown : workOf node = node.nodeId
  · rw [hown] at hs
    rw [hwork, hown, eq_self_iff_true, true_and]
    exact reportedFinished_own_iff hreads hs hfinished
  · have htype : node.nodeType = "Intent" := by
      by_contra hno
      exact hown (if_neg hno)
    have hshape : (workShape node).any = true := by
      simp only [counts, Bool.and_eq_true] at hcounts
      exact hcounts.1.1.2
    have hopen := isOpenWork_intent utcNow hreads hnode htype hshape
    exact iff_of_false (not_reportedFinished hopen) fun h => hown (hwork.symm.trans h.1.symm)

/-! ### A merged pull request and a finished issue -/

def percentDecoded : List Char → List Char
  | '%' :: hi :: lo :: cs =>
    Char.ofNat ("0123456789ABCDEF".toList.idxOf hi * 16 + "0123456789ABCDEF".toList.idxOf lo) ::
      percentDecoded cs
  | c :: cs => c :: percentDecoded cs
  | [] => []

/-- Every call gets through, with plain characters in its URL. -/
def plainLink : V2Link where
  decodePath s := some (String.ofList (percentDecoded s.toList))
  decodeQuery s := String.ofList (percentDecoded s.toList)
  failure _ := none
  statusError _ _ := ""
  clock _ := 100

/-- An event of Alice about one piece of work. -/
def aliceEvent (eventId eventType resourceId : String) (time : DateTime) (attributes : Json) :
    Graph.V1CanonicalEvent :=
  { eventId := eventId, tenantId := "t", category := "code", eventType := eventType,
    resourceId := resourceId, parentResourceId := "a/b", eventTimestamp := time, ingestedAt := time,
    actor := { globalUserId := "gu_alice" }, attributes := attributes }

/-- A pull request that is opened and merged. -/
def mergedPr (resourceId : String) : List Graph.V1CanonicalEvent :=
  [aliceEvent "v" "merge_request.opened" resourceId 5 (.obj [("title", .str "Fix the login")]),
    aliceEvent "w" "merge_request.merged" resourceId 10 (.obj [("title", .str "Fix the login")])]

def doneIssue : List Graph.V1CanonicalEvent :=
  [aliceEvent "v" "issue.updated" "a/b/3" 10 (.obj [("title", .str "Fix the login"), ("status", .str "Done")])]

/-- The production store after these events. -/
def storeAfter (events : List Graph.V1CanonicalEvent) : Graph.CrdbGraphStore :=
  (events.map Graph.V1BusPayload.event).foldl (Graph.projectCrdb (Graph.mapEvent Char.isAlphanum) DateTime.truncMicros)
    .new

/-- The graph API over it. -/
def serverAfter (events : List Graph.V1CanonicalEvent) : Graph.Server where
  store := .production (storeAfter events) fun _ ctx => (storeAfter events).loadEdges ctx.tenantId
  groups _ _ := []
  maxHops := 6
  defaultHops := 3

def sourceAfter (events : List Graph.V1CanonicalEvent) : GraphSource :=
  HttpV2GraphSource (plainLink.api (serverAfter events)) fun _ => 100

/-- The ledger of Alice, and the view that it is made of. -/
def ledgerAfter (events : List Graph.V1CanonicalEvent) : List LedgerItem :=
  (compiledLedger (sourceAfter events) ⟨"a", 1, 1, 1, 1⟩ aliceTwin aliceOpts).ledger.items

def viewAfter (events : List Graph.V1CanonicalEvent) : GraphView :=
  fetchViews (sourceAfter events) aliceTwin aliceOpts.hops

/-- The pull request was told to Alice, and all that her ledger says of it is that it is merged. -/
theorem finished_not_open_iff_merged :
    ∃ it, ledgerAfter (mergedPr "a/b/mr/7") = [it] ∧ it.summary = "MERGED pr: Fix the login" ∧
      ∃ node ∈ (viewAfter (mergedPr "a/b/mr/7")).nodes, ReportedFinished (viewAfter (mergedPr "a/b/mr/7")) node it := by
  have hitems : (ledgerAfter (mergedPr "a/b/mr/7")).map (fun it => (it.nodeId, it.summary)) =
      [("pr:a/b/mr/7", "MERGED pr: Fix the login")] := by decide +kernel
  have hnodes : ("pr:a/b/mr/7", "pr:a/b/mr/7") ∈ (viewAfter (mergedPr "a/b/mr/7")).nodes.map
      fun n => (n.nodeId, workOf n) := by decide +kernel
  have hstatus : (latestStatus (serverAfter (mergedPr "a/b/mr/7")).store "t" "pr:a/b/mr/7").map (fun s =>
      (s.nodeId, s.stateKey, s.stateValue)) = some ("pr:a/b/mr/7", "lifecycle", "MERGED") := by decide +kernel
  have hshown : ((plainLink.api (serverAfter (mergedPr "a/b/mr/7"))).neighborhood (urlencodingLite "t")
      (urlencodingLite "gu_alice") (urlencodingLite (personNode "gu_alice")) aliceOpts.hops).toOption.map
        (fun nb => nb.shown.map GraphNodeView.nodeId) =
          some ["person:gu_alice", "intent:person:gu_alice:pr:a/b/mr/7", "pr:a/b/mr/7", "repo:a/b"] := by
    decide +kernel
  have hgiven : (serverAfter (mergedPr "a/b/mr/7")).store.getState
      (plainLink.readerOf (serverAfter (mergedPr "a/b/mr/7")) aliceTwin "gu_alice") "pr:a/b/mr/7" "lifecycle" =
        latestStatus (serverAfter (mergedPr "a/b/mr/7")).store "t" "pr:a/b/mr/7" := by decide +kernel
  obtain ⟨it, hledger, hitem⟩ := List.map_eq_singleton_iff.mp hitems
  obtain ⟨node, hnode, hid⟩ := List.mem_map.mp hnodes
  obtain ⟨s, hs, hrow⟩ := Option.map_eq_some_iff.mp hstatus
  simp only [Prod.mk.injEq] at hrow hid hitem
  obtain ⟨hsnode, hskey, hsvalue⟩ := hrow
  refine ⟨it, hledger, hitem.2, node, hnode, ?_⟩
  have hit : it ∈ ledgerAfter (mergedPr "a/b/mr/7") := by
    rw [hledger]
    exact List.mem_singleton_self it
  refine (finished_not_open_iff Char.isAlphanum ((mergedPr "a/b/mr/7").map .event)
    (.production DateTime.truncMicros _ fun _ _ => List.Perm.refl _) plainLink (fun _ => 100) ⟨"a", 1, 1, 1, 1⟩
    aliceTwin aliceOpts it hit node hnode (hid.1.trans hitem.1.symm) s ?_ ?_).mpr ?_
  · rw [hid.2]
    exact hs
  · rw [hsvalue]
    decide
  · obtain ⟨nb, hnb, hids⟩ := Option.map_eq_some_iff.mp hshown
    have hpr : "pr:a/b/mr/7" ∈ nb.shown.map GraphNodeView.nodeId := by
      rw [hids]
      decide
    obtain ⟨n, hn, hnid⟩ := List.mem_map.mp hpr
    refine ⟨hid.1.trans hsnode.symm, hskey, "gu_alice", List.mem_cons_self, nb, ?_, n, hn, ?_, rfl, ?_, ?_⟩
    · cases hanswer : (plainLink.api (serverAfter (mergedPr "a/b/mr/7"))).neighborhood (urlencodingLite "t")
          (urlencodingLite "gu_alice") (urlencodingLite (personNode "gu_alice")) aliceOpts.hops with
      | error e =>
        rw [hanswer] at hnb
        cases hnb
      | ok nb' =>
        rw [hanswer] at hnb
        exact hanswer.trans (congrArg _ (Option.some.inj hnb))
    · unfold asksState
      rw [hnid]
      rfl
    · rw [hnid, hsnode]
      decide +kernel
    · rw [hsnode]
      exact hgiven.trans hs

/-- An item about finished work is open work and described as open. -/
def ShownOpen (events : List Graph.V1CanonicalEvent) : Prop :=
  ∃ it ∈ ledgerAfter events, ∃ node ∈ (viewAfter events).nodes, node.nodeId = it.nodeId ∧
    ((latestStatus (serverAfter events).store "t" (workOf node)).map Graph.EntityState.stateValue).any
      isFinishedStatus = true ∧
    isOpenWork (viewAfter events) node = true ∧ DescribedOpen node it

theorem shownOpen_of {events : List Graph.V1CanonicalEvent} (nodeId kind title : String)
    (hitem : (nodeId, kind, "Open " ++ kind ++ ": " ++ title) ∈
      (ledgerAfter events).map fun it => (it.nodeId, it.kind, it.summary))
    (hnode : (nodeId, title, true, true) ∈ (viewAfter events).nodes.map fun n =>
      (n.nodeId, nodeTitle n, isOpenWork (viewAfter events) n,
        ((latestStatus (serverAfter events).store "t" (workOf n)).map Graph.EntityState.stateValue).any
          isFinishedStatus)) : ShownOpen events := by
  obtain ⟨it, hit, hrow⟩ := List.mem_map.mp hitem
  obtain ⟨node, hmem, htold⟩ := List.mem_map.mp hnode
  simp only [Prod.mk.injEq] at hrow htold
  obtain ⟨hid, hkind, hsummary⟩ := hrow
  obtain ⟨hnid, htitle, hopen, hfinished⟩ := htold
  refine ⟨it, hit, node, hmem, hnid.trans hid.symm, hfinished, hopen, .inl ?_⟩
  rw [hsummary, hkind, htitle]

/-- An issue is done, and Alice's ledger calls it open. A pull request is merged, and the ledger calls it open where its
intent stands, beside the item that calls it merged. -/
theorem done_issue_open : ShownOpen doneIssue ∧ ShownOpen (mergedPr "a/b/pr/7") :=
  ⟨shownOpen_of "issue:a/b/3" "issue" "Fix the login" (by decide +kernel) (by decide +kernel),
    shownOpen_of "intent:person:gu_alice:pr:a/b/pr/7" "pr" "FIX: Fix the login" (by decide +kernel)
      (by decide +kernel)⟩

end AiManager.Platform
