import AiManager.Lib.DateTime
import AiManager.Lib.Json
import AiManager.Lib.Text

/-! # Graph views

What a person may see of the context graph, as the compiler gets it: one view for each identity of the
person, merged into one. Rows that come from demos and seeds are recognised here, so that they stay
out of a digest. -/

namespace AiManager.Twins

open Lib

structure GraphNodeView where
  nodeId : String
  nodeType : String
  displayName : String
  resourceId : String
  properties : Json
  isPrivate : Bool
  deriving Inhabited

structure GraphEdgeView where
  edgeId : String
  edgeType : String
  fromNodeId : String
  toNodeId : String
  eventId : String
  properties : Json
  isPrivate : Bool
  validFrom : Option DateTime
  deriving Inhabited

structure EntityStateView where
  nodeId : String
  stateKey : String
  stateValue : String
  eventId : String
  asOf : DateTime
  deriving Inhabited

/-- Graph inputs of the compiler, filtered by access already. -/
structure GraphView where
  nodes : List GraphNodeView := []
  edges : List GraphEdgeView := []
  states : List EntityStateView := []
  blockers : List GraphEdgeView := []
  graphAsOf : Option DateTime := none
  deriving Inhabited

/-! ## Merging -/

/-- The rows of `part` that are not in `into` yet, added at its end one by one. -/
def pushNew {α : Type} (same : α → α → Bool) (into part : List α) : List α :=
  part.foldl (fun rows x => if rows.any fun y => same y x then rows else rows ++ [x]) into

def mergeGraphView (into part : GraphView) : GraphView where
  nodes := pushNew (fun x n => x.nodeId == n.nodeId) into.nodes part.nodes
  edges := pushNew (fun x e => x.edgeId == e.edgeId) into.edges part.edges
  states := pushNew (fun x s => x.nodeId == s.nodeId && x.stateKey == s.stateKey) into.states
    part.states
  blockers := pushNew (fun x b => x.edgeId == b.edgeId) into.blockers part.blockers
  graphAsOf := into.graphAsOf.or part.graphAsOf

/-- A view with nothing in it adds nothing. -/
@[simp] theorem mergeGraphView_empty (into : GraphView) : mergeGraphView into {} = into := by
  simp [mergeGraphView, pushNew]

/-! ## Demo and seed rows -/

/-- The id of known demo or seed theater. -/
def nodeIdIsDemoSeed (id : String) : Bool :=
  let l := Text.toAsciiLowercase id
  Text.contains l "/pr/story-1" || Text.contains l "pr:neeljoshi18/ai-manager/pr/story-1"
    || Text.contains l "gu_demo_" || Text.contains l "demo-repo" || Text.contains l "intent_demo"
    || Text.contains l ":story-1"

def isDemo (properties : Json) : Bool := (properties.get "is_demo").bind Json.asBool == some true

/-- What the seed of a row, in lower case, says about it. -/
def seedIs (test : String → Bool) (properties : Json) : Bool :=
  match properties.getStr "seed" with
  | some seed => test (Text.toAsciiLowercase seed)
  | none => false

def seedIsDemo : Json → Bool :=
  seedIs fun s => Text.contains s "graph_story" || Text.contains s "intent_demo"
    || Text.contains s "demo"

/-- Full check of a node: its ids, its properties, and names that seed stories left behind. -/
def nodeViewIsDemoSeed (n : GraphNodeView) : Bool :=
  let lab := Text.toAsciiLowercase n.displayName
  nodeIdIsDemoSeed n.nodeId || nodeIdIsDemoSeed n.resourceId || isDemo n.properties
    || seedIsDemo n.properties || Text.contains lab "hold merge until demo"
    || (Text.contains lab "ready for pilot" && Text.contains n.nodeId "story-1")
    || (Text.contains lab "waiting on partner review" && Text.contains n.nodeId "story-1")

/-- An endpoint of an edge is a seed, by its id or by the node it names. -/
def endpointIsDemoSeed (nodes : List GraphNodeView) (nid : String) : Bool :=
  nodeIdIsDemoSeed nid ||
    match nodes.find? fun n => n.nodeId == nid with
    | some n => isDemo n.properties
        || seedIs (fun s => Text.contains s "graph_story" || Text.contains s "intent_demo"
            || s == "seed") n.properties
    | none => false

/-- Edges that come from seed theater. -/
def edgeIsDemoSeed (edge : GraphEdgeView) (nodes : List GraphNodeView) : Bool :=
  let eid := Text.toAsciiLowercase edge.eventId
  Text.contains eid "story:blocks" || Text.contains eid "seed:" || Text.contains eid "intent_demo"
    || Text.contains eid "graph_story" || Text.startsWith eid "seed"
    || isDemo edge.properties || seedIsDemo edge.properties
    || endpointIsDemoSeed nodes edge.fromNodeId || endpointIsDemoSeed nodes edge.toNodeId

example : nodeIdIsDemoSeed "pr:neeljoshi18/AI-Manager/pr/story-1" = true := by decide

end AiManager.Twins
