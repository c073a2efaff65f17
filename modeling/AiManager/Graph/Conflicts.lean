import AiManager.Graph.Intent
import AiManager.Graph.Query
import AiManager.Lib.Place
import Mathlib.Data.List.Destutter

/-! # Conflicts

Cards for what does not go together: intents of several owners on one work item, a freeze against a release, entities
that block one another, work that does not get on. Hash maps and sets are iterated in some order, of which nothing is
known. -/

namespace AiManager.Graph

open Lib

/-! ## Cards -/

inductive ConflictKind where
  /-- two BLOCKS edges -/
  | dualBlocks
  /-- SHIP against FREEZE on one work item -/
  | shipVsFreeze
  /-- several owners of one work item -/
  | dualOwners
  /-- an explicit BLOCKED intent -/
  | openBlocker
  | mergeFriction
  | staleReview
  /-- a failing check while the intent is SHIP -/
  | ciBlocked
  deriving DecidableEq, Repr

inductive ConflictSeverity where
  | high
  | medium
  | low
  deriving DecidableEq, Repr

structure ConflictCard where
  conflictId : String
  kind : ConflictKind
  summary : String
  severity : ConflictSeverity
  nodeIds : List String
  ownerNodeIds : List String
  intentTypes : List String
  evidence : List String
  isDemo : Bool
  deriving DecidableEq

/-- An order in which the elements of a hash set come. -/
structure HashOrder where
  iter : List String → List String
  perm : ∀ l, (iter l).Perm l

/-- What the date library makes of a text. -/
structure DateParsers where
  rfc3339 : String → Option DateTime
  naiveDateTime : String → String → Option DateTime
  naiveDate : String → String → Option DateTime

/-! ## Demo and seed -/

def nodeIsDemo (n : GraphNode) : Bool :=
  if ((n.properties.get "is_demo").bind Json.asBool).getD false then true
  else if ((n.properties.getStr "seed").getD "") ≠ "" then true
  else
    let id := Text.toAsciiLowercase n.nodeId
    let resource := Text.toAsciiLowercase n.resourceId
    Text.contains id "gu_demo_" || Text.contains id "demo-repo" || Text.contains resource "demo-repo"

/-- Without intents nothing is a demo. -/
def intentsAllDemo (intentNodes : List GraphNode) : Bool := !intentNodes.isEmpty && intentNodes.all nodeIsDemo

/-- Organic and seed intents on one card. -/
def noteMixedSeed (evidence : List String) (intentNodes : List GraphNode) : List String :=
  if intentNodes.any nodeIsDemo && !intentsAllDemo intentNodes then evidence ++ ["includes_seed_intent"] else evidence

/-! ## Signals of a work item -/

def workLabels (work : GraphNode) : List String :=
  let labels := (((work.properties.get "labels").bind Json.asArray).getD []).filterMap labelName
  (labels ++ (work.properties.getStr "label").toList).map Text.toAsciiLowercase

def workTextHay (work : GraphNode) : String :=
  let props := work.properties
  let title := (((props.get "title").or (props.get "summary")).bind Json.asStr).getD work.displayName
  let body := (((props.get "body").or (props.get "description")).bind Json.asStr).getD ""
  Text.toAsciiLowercase (title ++ " " ++ body)

def parsePropDatetime (chrono : DateParsers) (s : String) : Option DateTime :=
  (((chrono.rfc3339 s).or (chrono.naiveDateTime s "%Y-%m-%dT%H:%M:%SZ")).or
    (chrono.naiveDateTime s "%Y-%m-%dT%H:%M:%S")).or (chrono.naiveDate s "%Y-%m-%d")

def noneIfEmpty (evidence : List String) : Option (List String) := if evidence.isEmpty then none else some evidence

def detectMergeFriction (work : GraphNode) : Option (List String) :=
  let props := work.properties
  let mergeable := if (props.get "mergeable").bind Json.asBool = some false then ["mergeable:false"] else []
  let state := (((props.get "mergeable_state").or (props.get "mergeableState")).bind Json.asStr).map Text.toAsciiLowercase
  let state := (state.filter fun ms => ["dirty", "conflicted", "unstable", "blocked"].contains ms).map
    ("mergeable_state:" ++ ·)
  let hay := workTextHay work
  let text := (["merge conflict", "has conflicts", "conflicting files", "resolve conflicts", "fix merge conflicts",
    "conflicts with"].find? fun pat => Text.contains hay pat).map ("text:" ++ ·)
  noneIfEmpty (mergeable ++ state.toList ++ text.toList)

/-- Whole days, rounded towards zero. -/
def numDays (nanos : Int) : Int := nanos.tdiv DateTime.nanosPerDay

def detectStaleReview (chrono : DateParsers) (work : GraphNode) (asOf : DateTime) : Option (List String) :=
  let nt := Text.toAsciiLowercase work.nodeType
  let isPr := Text.contains nt "pull" || Text.contains nt "merge_request" || Text.startsWith work.nodeId "pr:"
  let props := work.properties
  let state := Text.toAsciiLowercase
    (((((props.get "state").or (props.get "status")).or (props.get "lifecycle")).bind Json.asStr).getD "open")
  if ["closed", "merged", "done", "resolved", "declined"].contains state then none
  else
    let label := if (workLabels work).any fun l => l = "stale" || Text.contains l "stale" then ["label:stale"] else []
    let age := ["updated_at", "updatedAt", "last_activity_at", "pushed_at", "review_requested_at"].findSome? fun key =>
      ((props.getStr key).bind (parsePropDatetime chrono)).bind fun dt =>
        if numDays (asOf - dt) ≥ 7 then some (key ++ "_age_days:" ++ toString (numDays (asOf - dt))) else none
    let evidence := label ++ age.toList
    let requested := match (props.get "requested_reviewers").or (props.get "requestedReviewers") with
      | some v => ((v.asArray.map fun a => !a.isEmpty).or (v.asStr.map fun s => s ≠ "")).getD false
      | none => false
    -- only where there is an age already
    let evidence := if requested && evidence.any fun e => Text.contains e "_age_days:" then
        evidence ++ ["review_requested_stall"] else evidence
    -- an issue needs the label
    if !isPr && !evidence.any fun e => Text.startsWith e "label:stale" then none
    else noneIfEmpty evidence

def detectCiFailure (work : GraphNode) : Option (List String) :=
  let props := work.properties
  let states := [("check_conclusion", "failure"), ("check_conclusion", "cancelled"), ("ci_status", "failure"),
    ("ci_status", "failed"), ("ci_status", "error"), ("status", "failure"), ("conclusion", "failure"),
    ("checks_state", "failure"), ("checks_state", "failing")].filterMap fun (key, bad) =>
      ((props.getStr key).filter fun s => Text.eqIgnoreAsciiCase s bad).map fun s => key ++ ":" ++ s
  let failed := if (props.get "ci_failed").bind Json.asBool = some true then ["ci_failed:true"] else []
  let passing := if (props.get "checks_passing").bind Json.asBool = some false then ["checks_passing:false"] else []
  let labels := ((workLabels work).filter fun l => l = "ci-fail" || l = "ci-failure" || l = "checks-fail" ||
    l = "ci-failed" || Text.contains l "ci-fail").map ("label:" ++ ·)
  noneIfEmpty (states ++ failed ++ passing ++ labels)

def intentTypeOf (n : GraphNode) : String := (n.properties.getStr "intent_type").getD ""

def ownerOf (n : GraphNode) : Option String := n.properties.getStr "owner_node_id"

/-! ## Work items and their intents -/

def isIntent (n : GraphNode) : Bool := Text.eqIgnoreAsciiCase n.nodeType "Intent"

/-- By work item, the intents about it. -/
abbrev AboutWork := KMap String (List GraphNode)

/-- An active ABOUT edge of an intent that is there. -/
def indexEdge (intents : List GraphNode) (about : AboutWork) (e : GraphEdge) : AboutWork :=
  if Text.eqIgnoreAsciiCase e.edgeType "ABOUT" then
    match intents.find? fun i => i.nodeId = e.fromNodeId with
    | some intent => about.put e.toNodeId ((about.get e.toNodeId).getD [] ++ [intent])
    | none => about
  else about

/-- Intents by `about_node_id`, where the edge is missing. -/
def indexProperty (about : AboutWork) (intent : GraphNode) : AboutWork :=
  match intent.properties.getStr "about_node_id" with
  | some work => about.put work (addBy GraphNode.nodeId ((about.get work).getD []) intent)
  | none => about

def aboutWork (intents : List GraphNode) (active : List GraphEdge) : AboutWork :=
  intents.foldl indexProperty (active.foldl (indexEdge intents) ∅)

def intentsOf (nodes : List GraphNode) : List GraphNode := nodes.filter isIntent

def aboutOf (nodes : List GraphNode) (edges : List GraphEdge) (asOf : DateTime) : AboutWork :=
  aboutWork (intentsOf nodes) (edges.filter (activeEdge asOf))

/-- The active BLOCKS edges. -/
def blocksOf (edges : List GraphEdge) (asOf : DateTime) : List GraphEdge :=
  (edges.filter (activeEdge asOf)).filter fun e => Text.eqIgnoreAsciiCase e.edgeType "BLOCKS"

/-- The types of the intents, in order, each once. -/
def typesOf (intents : List GraphNode) : List String :=
  (((intents.map intentTypeOf).filter fun t => t ≠ "").insertionSort (· ≤ ·)).destutter (· ≠ ·)

/-! ## Detection -/

section Detection
variable (order : HashOrder) (chrono : DateParsers) (tenantId : String)

/-- What the id of a card begins with. -/
def cardId (tenantId rest : String) : String := "cfl_" ++ tenantId ++ "_" ++ rest

/-- Dual owners and competing intents on one work item. -/
def ownersCard (workId : String) (list : List GraphNode) : Option ConflictCard :=
  if list.length < 2 then none
  else
    let types := typesOf list
    let owners := list.filterMap ownerOf
    let uniqueOwners := order.iter owners.dedup
    let evidence := noteMixedSeed (list.map GraphNode.displayName) list
    let nodeIds := workId :: list.map GraphNode.nodeId
    let shipAndFreeze := types.contains "SHIP" && types.contains "FREEZE"
    if uniqueOwners.length > 1 then
      some {
        conflictId := cardId tenantId (workId ++ "_owners")
        kind := if shipAndFreeze then .shipVsFreeze else .dualOwners
        severity := if shipAndFreeze then .high else .medium
        summary := if shipAndFreeze then "SHIP vs FREEZE on " ++ workId
          else "Multiple owners claim intents on " ++ workId ++ ": " ++ Text.join ", " types
        nodeIds
        ownerNodeIds := uniqueOwners
        intentTypes := types
        evidence
        isDemo := intentsAllDemo list }
    else if shipAndFreeze then
      some {
        conflictId := cardId tenantId (workId ++ "_ship_freeze")
        kind := .shipVsFreeze
        severity := .high
        summary := "SHIP vs FREEZE on " ++ workId
        nodeIds
        ownerNodeIds := owners
        intentTypes := types
        evidence
        isDemo := intentsAllDemo list }
    else none

/-- The pairs of a list, the one that comes first in front. -/
def pairs {α : Type} : List α → List (α × α)
  | [] => []
  | x :: xs => xs.map (x, ·) ++ pairs xs

def mutualId (tenantId : String) (a : GraphEdge) : String :=
  cardId tenantId ("mutual_" ++ (a.fromNodeId ++ "_" ++ a.toNodeId))

/-- Two edges that lead back and forth. -/
def Opposed (a b : GraphEdge) : Prop := a.fromNodeId = b.toNodeId ∧ a.toNodeId = b.fromNodeId

instance : DecidableRel Opposed := fun a b =>
  inferInstanceAs (Decidable (a.fromNodeId = b.toNodeId ∧ a.toNodeId = b.fromNodeId))

def mutualCard (about : AboutWork) (pair : GraphEdge × GraphEdge) : Option ConflictCard :=
  let (a, b) := pair
  if Opposed a b then
    let inv := (about.get a.fromNodeId).getD [] ++ (about.get a.toNodeId).getD []
    some {
      conflictId := mutualId tenantId a
      kind := .dualBlocks
      summary := "Mutual BLOCKS between " ++ a.fromNodeId ++ " and " ++ a.toNodeId
      severity := .high
      nodeIds := [a.fromNodeId, a.toNodeId]
      ownerNodeIds := []
      intentTypes := ["BLOCKED"]
      evidence := [a.edgeId, b.edgeId]
      isDemo := intentsAllDemo inv }
  else none

def blockedCard (intent : GraphNode) : Option ConflictCard :=
  if intentTypeOf intent = "BLOCKED" then
    let about := (intent.properties.getStr "about_node_id").getD ""
    let evidence := (((intent.properties.get "evidence").bind Json.asArray).getD []).filterMap Json.asStr
    some {
      conflictId := cardId tenantId ("blocked_" ++ intent.nodeId)
      kind := .openBlocker
      summary := intent.displayName
      severity := .medium
      nodeIds := [intent.nodeId, about].filter fun s => s ≠ ""
      ownerNodeIds := (ownerOf intent).toList
      intentTypes := ["BLOCKED"]
      evidence := noteMixedSeed evidence [intent]
      isDemo := intentsAllDemo [intent] }
  else none

/-- A SHIP intent is the target of a BLOCKS edge. -/
def blocksShipCard (about : AboutWork) (e : GraphEdge) : Option ConflictCard :=
  (about.get e.toNodeId).bind fun list =>
    if list.any fun i => intentTypeOf i = "SHIP" then
      some {
        conflictId := cardId tenantId ("blocks_ship_" ++ (e.fromNodeId ++ "_" ++ e.toNodeId))
        kind := .dualBlocks
        summary := e.fromNodeId ++ " blocks SHIP target " ++ e.toNodeId
        severity := .high
        nodeIds := [e.fromNodeId, e.toNodeId]
        ownerNodeIds := []
        intentTypes := ["SHIP", "BLOCKED"]
        evidence := noteMixedSeed [e.edgeId] list
        isDemo := intentsAllDemo list }
    else none

def isWorkNode (n : GraphNode) : Bool :=
  let t := Text.toAsciiLowercase n.nodeType
  Text.contains t "pull" || t = "issue" || Text.contains t "merge_request" || Text.startsWith n.nodeId "pr:" ||
    Text.startsWith n.nodeId "issue:"

/-- Cards of one work item, for what its node says. -/
def frictionCards (asOf : DateTime) (nodes : List GraphNode) (about : AboutWork) (workId : String) : List ConflictCard :=
  match nodes.reverse.find? fun n => n.nodeId = workId with
  | none => []
  | some work =>
    let inv := (about.get workId).getD []
    let card (name : String) (kind : ConflictKind) (summary : String) (severity : ConflictSeverity)
        (intentTypes evidence : List String) (isDemo : Bool) : ConflictCard :=
      { conflictId := cardId tenantId (name ++ workId)
        kind
        summary := summary ++ workId
        severity
        nodeIds := workId :: inv.map GraphNode.nodeId
        ownerNodeIds := inv.filterMap ownerOf
        intentTypes
        evidence := noteMixedSeed evidence inv
        isDemo }
    let isDemo := intentsAllDemo inv || (inv.isEmpty && nodeIsDemo work)
    let friction := (detectMergeFriction work).map fun ev =>
      card "merge_friction_" .mergeFriction "Merge friction on " .high (typesOf inv) ev isDemo
    let stale := (detectStaleReview chrono work asOf).map fun ev =>
      card "stale_review_" .staleReview "Stale / stalled review on " .medium (typesOf inv) ev isDemo
    let ci := if inv.any fun i => intentTypeOf i = "SHIP" then
        (detectCiFailure work).map fun ev =>
          card "ci_blocked_" .ciBlocked "CI blocked SHIP on " .high ["SHIP"] ev (intentsAllDemo inv)
      else none
    friction.toList ++ stale.toList ++ ci.toList

def severityRank : ConflictSeverity → Nat
  | .high => 3
  | .medium => 2
  | .low => 1

/-- Severest first, then by id. -/
def cardLe (a b : ConflictCard) : Prop :=
  severityRank b.severity < severityRank a.severity ∨
    (severityRank a.severity = severityRank b.severity ∧ a.conflictId ≤ b.conflictId)

instance : DecidableRel cardLe := fun a b => by unfold cardLe; infer_instance

def ownerCards (about : AboutWork) : List ConflictCard :=
  (order.iter (about.items.map Prod.fst)).filterMap fun w => ownersCard order tenantId w ((about.get w).getD [])

def mutualCards (about : AboutWork) (blocks : List GraphEdge) : List ConflictCard :=
  (pairs blocks).filterMap (mutualCard tenantId about)

/-- The work items: those of an intent, and what looks like one. -/
def workIds (nodes : List GraphNode) (about : AboutWork) : List String :=
  (about.items.map Prod.fst ++ (nodes.filter isWorkNode).map GraphNode.nodeId).dedup

def otherCards (nodes : List GraphNode) (about : AboutWork) (blocks : List GraphEdge) (asOf : DateTime) :
    List ConflictCard :=
  (intentsOf nodes).filterMap (blockedCard tenantId) ++ blocks.filterMap (blocksShipCard tenantId about) ++
    (order.iter (workIds nodes about)).flatMap (frictionCards chrono tenantId asOf nodes about)

/-- The cards in the order in which they are found. -/
def foundCards (nodes : List GraphNode) (edges : List GraphEdge) (asOf : DateTime) : List ConflictCard :=
  let about := aboutOf nodes edges asOf
  let blocks := blocksOf edges asOf
  ownerCards order tenantId about ++
    (mutualCards tenantId about blocks ++ otherCards order chrono tenantId nodes about blocks asOf)

/-- The first card of each id, in order. -/
def detectConflicts (nodes : List GraphNode) (edges : List GraphEdge) (asOf : DateTime) : List ConflictCard :=
  ((foundCards order chrono tenantId nodes edges asOf).foldl (addBy ConflictCard.conflictId) []).insertionSort cardLe

end Detection

end AiManager.Graph
