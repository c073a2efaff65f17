import AiManager.Twins.Compiler

/-! # The client of the graph API

A person's view comes from several calls: the neighborhood of the person, the blockers, and one state for
each pull request and issue. Only the first call can fail the fetch. -/

namespace AiManager.Twins

open Lib

/-! ## Calls and answers -/

/-- What keeps a call from an answer that can be read. -/
inductive HttpFailure where
  | send (error : String)
  | status (code : Nat) (error : String)
  | json (error : String)

structure V2Neighborhood where
  root : Option GraphNodeView
  nodes : List GraphNodeView
  edges : List GraphEdgeView

structure V2State where
  nodeId : String
  stateKey : String
  stateValue : String
  eventId : String
  asOf : Option DateTime

/-- The calls, by the parts of their URLs: tenant, user, node, and the number of hops or the state key. -/
structure V2Api where
  neighborhood : String → String → String → Nat → Except HttpFailure V2Neighborhood
  blockers : String → String → String → Except HttpFailure (List GraphEdgeView)
  state : String → String → String → String → Except HttpFailure (Option V2State)

/-! ## URLs -/

def hexDigit (n : Nat) : Char := "0123456789ABCDEF".toList.getD n '0'

/-- A character outside the first 256 loses its upper bits. -/
def encodeChar (c : Char) : List Char :=
  if c.isAlphanum || ['-', '_', '.', '~'].contains c then [c]
  else ['%', hexDigit (c.toNat % 256 / 16), hexDigit (c.toNat % 16)]

/-- Minimal encoding for path and query segments. -/
def urlencodingLite (s : String) : String := String.ofList (s.toList.flatMap encodeChar)

example : urlencodingLite "pr:acme/app/pr/7" = "pr%3Aacme%2Fapp%2Fpr%2F7" := by decide

/-! ## Fetching a view -/

/-- The root is among the nodes. -/
def V2Neighborhood.shown (nb : V2Neighborhood) : List GraphNodeView :=
  match nb.root with
  | some root => if nb.nodes.any fun n => n.nodeId = root.nodeId then nb.nodes else nb.nodes ++ [root]
  | none => nb.nodes

def asksState (n : GraphNodeView) : Bool :=
  Text.startsWith n.nodeId "pr:" || Text.eqIgnoreAsciiCase n.nodeType "PullRequest"
    || Text.startsWith n.nodeId "issue:"

def V2State.view (utcNow : DateTime) (s : V2State) : EntityStateView :=
  ⟨s.nodeId, s.stateKey, s.stateValue, s.eventId, s.asOf.getD utcNow⟩

section Fetch
variable (api : V2Api) (utcNow : DateTime) (tenantId globalUserId : String)

/-- The lifecycle of a node; a call that fails is skipped. -/
def fetchState (n : GraphNodeView) : Option EntityStateView :=
  match api.state (urlencodingLite tenantId) (urlencodingLite globalUserId) (urlencodingLite n.nodeId)
      "lifecycle" with
  | .ok s => s.map (V2State.view utcNow)
  | .error _ => none

/-- Without an answer the blocking edges of the neighborhood stand in. -/
def fetchBlockers (personNodeId : String) (edges : List GraphEdgeView) : List GraphEdgeView :=
  match api.blockers (urlencodingLite tenantId) (urlencodingLite globalUserId)
      (urlencodingLite personNodeId) with
  | .ok blockers => blockers
  | .error (.json _) => []
  | .error _ => edges.filter isBlockEdge

/-- An unknown person has an empty view. -/
def httpPersonView (personNodeId : String) (hops : Nat) : TwinResult GraphView :=
  match api.neighborhood (urlencodingLite tenantId) (urlencodingLite globalUserId)
      (urlencodingLite personNodeId) hops with
  | .error (.send e) => .error (.upstream ("v2 neighborhood: " ++ e))
  | .error (.status code e) =>
    if code = 404 then .ok { graphAsOf := some utcNow }
    else .error (.upstream ("v2 neighborhood status: " ++ e))
  | .error (.json e) => .error (.upstream ("v2 neighborhood json: " ++ e))
  | .ok nb => .ok {
      nodes := nb.shown
      edges := nb.edges
      states := (nb.shown.filter asksState).filterMap (fetchState api utcNow tenantId globalUserId)
      blockers := fetchBlockers api tenantId globalUserId personNodeId nb.edges
      graphAsOf := some utcNow }

end Fetch

/-- The clock is read once a view, at any time. -/
def HttpV2GraphSource (api : V2Api) (utcNow : String → DateTime) : GraphSource :=
  fun tenantId globalUserId personNodeId hops =>
    httpPersonView api (utcNow globalUserId) tenantId globalUserId personNodeId hops

section Views
variable {api : V2Api} {utcNow : DateTime} {tenantId globalUserId personNodeId : String} {hops : Nat}
  {view : GraphView}

/-- Nodes and states of a view come from an answered neighborhood. -/
theorem httpPersonView_ok (h : httpPersonView api utcNow tenantId globalUserId personNodeId hops = .ok view) :
    (view.nodes = [] ∧ view.states = []) ∨
      ∃ nb, api.neighborhood (urlencodingLite tenantId) (urlencodingLite globalUserId)
          (urlencodingLite personNodeId) hops = .ok nb ∧ view.nodes = nb.shown ∧
        view.states = (nb.shown.filter asksState).filterMap
          (fetchState api utcNow tenantId globalUserId) := by
  unfold httpPersonView at h
  split at h
  · cases h
  · split at h
    · obtain rfl := Except.ok.inj h
      exact .inl ⟨rfl, rfl⟩
    · cases h
  · cases h
  · next nb hnb =>
    obtain rfl := Except.ok.inj h
    exact .inr ⟨nb, hnb, rfl, rfl⟩

variable (utcNow) in
theorem exists_httpPersonView {nb : V2Neighborhood} (h : api.neighborhood (urlencodingLite tenantId)
    (urlencodingLite globalUserId) (urlencodingLite personNodeId) hops = .ok nb) :
    ∃ view, httpPersonView api utcNow tenantId globalUserId personNodeId hops = .ok view ∧
      view.states = (nb.shown.filter asksState).filterMap
        (fetchState api utcNow tenantId globalUserId) := by
  unfold httpPersonView
  rw [h]
  exact ⟨_, rfl, rfl⟩

end Views

end AiManager.Twins
