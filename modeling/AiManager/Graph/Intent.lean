import AiManager.Graph.Ids
import AiManager.Graph.Project

/-! # Intents

What a work item is meant for, by rules on its labels, title and body. A classified work item gets a
node for the claim, an edge from the owner to it and one from it to the item. A confidence is given in
hundredths; `isAlphanumeric` is the character class of that name. -/

namespace AiManager.Graph

open Lib

inductive IntentType where
  | ship
  | blocked
  | fix
  | explore
  | review
  | freeze
  | other
  deriving DecidableEq, Repr

namespace IntentType

def asStr : IntentType → String
  | ship => "SHIP"
  | blocked => "BLOCKED"
  | fix => "FIX"
  | explore => "EXPLORE"
  | review => "REVIEW"
  | freeze => "FREEZE"
  | other => "OTHER"

def parse (s : String) : Option IntentType :=
  match Text.toAsciiUppercase (Text.trim s) with
  | "SHIP" | "SHIPPING" | "RELEASE" => some .ship
  | "BLOCKED" | "BLOCKER" | "BLOCKING" => some .blocked
  | "FIX" | "BUGFIX" | "HOTFIX" => some .fix
  | "EXPLORE" | "SPIKE" | "POC" | "RESEARCH" => some .explore
  | "REVIEW" | "RFC" => some .review
  | "FREEZE" | "HOLD" | "PAUSE" => some .freeze
  | "OTHER" => some .other
  | _ => none

end IntentType

/-- Where a claim was found. -/
def inferIntentSource (event : V1CanonicalEvent) (about : GraphNode) : String :=
  let nt := Text.toAsciiLowercase about.nodeType
  let et := Text.toAsciiLowercase event.eventType
  let provider := Text.toAsciiLowercase event.provider
  if Text.contains nt "pull" || Text.contains nt "merge_request" || Text.contains et "pull_request" ||
      Text.contains et "merge_request" then
    if Text.contains provider "gitlab" then "gitlab_mr" else "github_pr"
  else if Text.contains nt "issue" || Text.contains et "issue" then
    if Text.contains provider "jira" then "jira_issue"
    else if Text.contains provider "linear" then "linear_issue"
    else "github_issue"
  else "work_item"

/-- The label of an entry of `labels`: a string, or an object with a name. -/
def labelName (l : Json) : Option String := l.asStr.or (l.getStr "name")

/-- Title, labels and body of an event. -/
def extractTextFromEvent (event : V1CanonicalEvent) : String × List String × String :=
  let attrs := event.attributes
  let title := ((((attrs.get "title").or (attrs.get "summary")).or (attrs.get "name")).bind
    Json.asStr).getD ""
  let body := ((((attrs.get "body").or (attrs.get "description")).or (attrs.get "body_preview")).bind
    Json.asStr).getD ""
  let labels := (((attrs.get "labels").bind Json.asArray).getD []).filterMap labelName
  let labels := labels ++ (attrs.getStr "label").toList
  let labels := if ((attrs.get "draft").bind Json.asBool).getD false then labels ++ ["draft"] else labels
  (title, labels, body)

/-! ## Rules -/

structure Classification where
  intentType : IntentType
  /-- in hundredths -/
  confidence : Nat
  evidence : List String
  deriving DecidableEq, Repr

/-- An explicit label wins. -/
def classifyLabel (l : String) : Option Classification :=
  let evidence := ["label:" ++ l]
  match (IntentType.parse l).filter fun t => t ≠ .other with
  | some t => some ⟨t, 95, evidence⟩
  | none =>
    if Text.contains l "blocked" || l = "blocker" || l = "wip-blocked" then
      some ⟨.blocked, 95, evidence⟩
    else if Text.contains l "freeze" || l = "do-not-merge" || l = "hold" then
      some ⟨.freeze, 90, evidence⟩
    else if l = "bug" ∨ l = "fix" ∨ l = "hotfix" then some ⟨.fix, 90, evidence⟩
    else if l = "spike" ∨ l = "exploration" ∨ l = "rfc" then
      some ⟨if l = "rfc" then .review else .explore, 85, evidence⟩
    else none

/-- Title and body patterns, blocked and freeze before ship. -/
def intentPatterns : List (String × IntentType × Nat) :=
  [("blocked by", .blocked, 90),
    ("blocked on", .blocked, 90),
    ("waiting on", .blocked, 80),
    ("blocked:", .blocked, 85),
    ("[blocked]", .blocked, 90),
    ("code freeze", .freeze, 90),
    ("do not merge", .freeze, 90),
    ("donotmerge", .freeze, 90),
    ("hold merge", .freeze, 80),
    ("freeze ", .freeze, 75),
    ("hotfix", .fix, 85),
    ("bugfix", .fix, 85),
    ("fix:", .fix, 80),
    ("fix(", .fix, 75),
    ("fix ", .fix, 70),
    ("spike:", .explore, 85),
    ("spike ", .explore, 80),
    ("poc:", .explore, 80),
    ("explore ", .explore, 70),
    ("research ", .explore, 70),
    ("rfc:", .review, 85),
    ("wip:", .explore, 60),
    ("[wip]", .explore, 65),
    ("ready to ship", .ship, 90),
    ("ship ", .ship, 75),
    ("release ", .ship, 75),
    ("deploy ", .ship, 70),
    ("launch ", .ship, 70),
    ("merge to main", .ship, 75),
    ("feat:", .ship, 65),
    ("feature:", .ship, 65),
    (" impl ", .ship, 55)]

section Rules
variable (isAlphanumeric : Char → Bool)

/-- The title says nothing. -/
def titleIsWeakNoise (title : String) : Bool :=
  let t := Text.trim title
  t = "" || Text.byteLength t ≤ 3 || !t.toList.any isAlphanumeric ||
    ["wip", "tmp", "temp", "test", "asdf", "foo", "bar", "pr", "update", "..."].contains
      (Text.toAsciiLowercase t)

def classifyIntent (title : String) (labels : List String) (body : String) : Classification :=
  let labels := labels.map Text.toAsciiLowercase
  let hay := Text.toAsciiLowercase title ++ " " ++ Text.join " " labels ++ " "
    ++ Text.toAsciiLowercase body
  match labels.findSome? classifyLabel with
  | some c => c
  | none =>
    -- a draft is not ready to ship
    if labels.contains "draft" then ⟨.freeze, 80, ["label:draft"]⟩
    else if labels.contains "wip" then ⟨.explore, 70, ["label:wip"]⟩
    else
      match intentPatterns.find? fun (pat, _, _) => Text.contains hay pat with
      | some (pat, ty, conf) => ⟨ty, conf, ["text:" ++ pat]⟩
      | none =>
        if titleIsWeakNoise isAlphanumeric title then
          if Text.contains hay "pull_request" || Text.contains hay "pullrequest" then
            ⟨.ship, 35, ["default:open_pr_weak"]⟩
          else ⟨.other, 25, ["default:other"]⟩
        else if Text.contains hay "pull_request" || Text.byteLength (Text.trim title) > 3 then
          ⟨.ship, 40, ["default:work_item"]⟩
        else ⟨.other, 30, ["default:other"]⟩

/-! ## The claim in the graph -/

/-- A node with the access of its event. -/
def eventNode (event : V1CanonicalEvent) (nodeId nodeType displayName resourceId : String)
    (properties : Json) : GraphNode where
  tenantId := event.tenantId
  nodeId := nodeId
  nodeType := nodeType
  displayName := displayName
  resourceId := resourceId
  properties := properties
  isPrivate := event.acl.isPrivate
  allowedGroupIds := event.acl.allowedGroupIds
  aclVersion := event.acl.aclVersion

/-- An edge with the access of its event, from its time on. -/
def eventEdge (event : V1CanonicalEvent) (edgeId edgeType fromNodeId toNodeId : String)
    (properties : Json) : GraphEdge where
  tenantId := event.tenantId
  edgeId := edgeId
  edgeType := edgeType
  fromNodeId := fromNodeId
  toNodeId := toNodeId
  validFrom := event.eventTimestamp
  validTo := none
  eventId := event.eventId
  properties := properties
  isPrivate := event.acl.isPrivate
  allowedGroupIds := event.acl.allowedGroupIds
  aclVersion := event.acl.aclVersion

/-- The edge of a relation that lives on. -/
def stableEdge (event : V1CanonicalEvent) (edgeType fromNodeId toNodeId : String)
    (properties : Json) : GraphEdge :=
  eventEdge event (stableEdgeId event.tenantId edgeType fromNodeId toNodeId) edgeType fromNodeId
    toNodeId properties

/-- The edge that an event has of its own. -/
def ownEdge (event : V1CanonicalEvent) (edgeType fromNodeId toNodeId : String)
    (properties : Json) : GraphEdge :=
  eventEdge event (edgeId event.tenantId edgeType fromNodeId toNodeId event.eventId) edgeType
    fromNodeId toNodeId properties

def attachIntentMutation (event : V1CanonicalEvent) (aboutNode : GraphNode)
    (ownerPersonNodeId title : String) (labels : List String) (body : String) : GraphMutation :=
  -- commits are facts, not claims of purpose
  if Text.eqIgnoreAsciiCase aboutNode.nodeType "Commit" then {}
  else
    let c := classifyIntent isAlphanumeric title labels body
    let iid := intentNodeId ownerPersonNodeId aboutNode.nodeId
    let summary :=
      if title = "" then c.intentType.asStr ++ " on " ++ aboutNode.resourceId
      else c.intentType.asStr ++ ": " ++ title
    let intent := eventNode event iid "Intent" summary aboutNode.resourceId
      (.obj [("intent_type", .str c.intentType.asStr), ("confidence", .num c.confidence 2),
        ("evidence", .ofStrings c.evidence), ("about_node_id", .str aboutNode.nodeId),
        ("owner_node_id", .str ownerPersonNodeId), ("classified_by", .str "rules_v0"),
        ("source", .str (inferIntentSource event aboutNode)), ("is_demo", .bool false),
        ("event_id", .str event.eventId)])
    { nodes := [intent]
      edges :=
        [stableEdge event "CLAIMS" ownerPersonNodeId iid
            (.obj [("intent_type", .str c.intentType.asStr)]),
          stableEdge event "ABOUT" iid aboutNode.nodeId (.obj [])] }

/-- The intent of the work item is added to the mutation. -/
def mergeIntentInto (base : GraphMutation) (event : V1CanonicalEvent) (aboutNodeId : String) :
    GraphMutation :=
  match base.nodes.find? fun n => n.nodeId = aboutNodeId with
  | none => base
  | some about =>
    if Text.eqIgnoreAsciiCase about.nodeType "Commit" then base
    else
      let owner := ((base.nodes.find? fun n => n.nodeType = "Person").map GraphNode.nodeId).getD
        (if event.actor.globalUserId = "" then "person:prov:" ++ event.actor.providerUserId
          else personNodeId event.actor.globalUserId)
      let (title, labels, body) := extractTextFromEvent event
      let intent := attachIntentMutation isAlphanumeric event about owner title labels body
      { base with nodes := base.nodes ++ intent.nodes, edges := base.edges ++ intent.edges }

variable {isAlphanumeric}

/-- Intents are no states. -/
@[simp] theorem mergeIntentInto_states (base : GraphMutation) (event : V1CanonicalEvent)
    (aboutNodeId : String) :
    (mergeIntentInto isAlphanumeric base event aboutNodeId).states = base.states := by
  unfold mergeIntentInto
  split
  · rfl
  · split_ifs <;> rfl

end Rules

end AiManager.Graph
