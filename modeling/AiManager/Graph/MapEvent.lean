import AiManager.Graph.Intent

/-! # What an event maps to

`mapEvent` sends an event to one of the mappers by its type. Every node, edge and state that a mapper
makes carries the access of its event, except that a person and a team are never private. -/

namespace AiManager.Graph

open Lib

/-! ## People -/

/-- The key of the actor. -/
def personKey (event : V1CanonicalEvent) : String :=
  if event.actor.globalUserId ≠ "" then event.actor.globalUserId
  else if event.actor.providerUserId ≠ "" then "prov:" ++ event.actor.providerUserId
  else "unknown"

/-- A node that everybody of the tenant may see. -/
def publicNode (event : V1CanonicalEvent) (nodeId nodeType displayName resourceId : String)
    (properties : Json) : GraphNode :=
  { eventNode event nodeId nodeType displayName resourceId properties with isPrivate := false }

def personNode (event : V1CanonicalEvent) : GraphNode :=
  let key := personKey event
  let nid :=
    if Text.startsWith key "prov:" then personFromProvider (Text.trimStartMatches key "prov:")
    else personNodeId key
  publicNode event nid "Person"
    (if event.actor.displayName = "" then event.actor.providerUserId else event.actor.displayName)
    event.actor.providerUserId
    (.obj [("email", .str event.actor.email),
      ("provider_user_id", .str event.actor.providerUserId)])

/-- The person of a key that the attributes name. -/
def personNodeForKey (event : V1CanonicalEvent) (key : String) : GraphNode :=
  let nid :=
    if Text.startsWith key "gu_" || Text.contains key "@" then personNodeId key
    else if Text.startsWith key "person:" then key
    else personFromProvider key
  publicNode event nid "Person" key key (.obj [("assignee_key", .str key)])

/-- The assignee, in the shapes of the providers. -/
def extractAssigneeKey (event : V1CanonicalEvent) : Option String :=
  let attrs := event.attributes
  let nested := (attrs.get "assignee").bind fun obj =>
    ["global_user_id", "id", "login", "accountId", "account_id", "name"].findSome? fun k =>
      (obj.getStr k).filter fun s => s ≠ ""
  let flat :=
    ["assignee", "assignee_id", "assignee_account_id", "assignee_login",
      "assignee_global_user_id"].findSome? fun k =>
      (attrs.getStr k).filter fun s => s ≠ "" ∧ s ≠ "null"
  nested.or flat

/-! ## Pull requests -/

/-- The first two segments of a resource. -/
def firstTwo (resourceId : String) : String := Text.join "/" ((Text.split resourceId '/').take 2)

def repoNode (event : V1CanonicalEvent) (repoRes : String) : GraphNode :=
  eventNode event (repoNodeId repoRes) "Repo" repoRes repoRes (.obj [])

/-- The repository of a pull request. -/
def pullRequestRepo (event : V1CanonicalEvent) : String :=
  if event.parentResourceId = "" then firstTwo event.resourceId else event.parentResourceId

def pullRequestResource (event : V1CanonicalEvent) : String :=
  if event.resourceId = "" then pullRequestRepo event ++ "/pr/unknown" else event.resourceId

/-- The lifecycle value, read off the type of the event. -/
def lifecycleOf (eventType : String) : String :=
  if Text.contains eventType "merged" then "MERGED"
  else if Text.contains eventType "closed" then "CLOSED"
  else if Text.contains eventType "reopened" || Text.contains eventType "opened" then "OPEN"
  else "OPEN"

/-- A state at the time of the event. -/
def eventState (event : V1CanonicalEvent) (nodeId stateKey stateValue : String) : EntityState where
  tenantId := event.tenantId
  nodeId := nodeId
  stateKey := stateKey
  stateValue := stateValue
  asOf := event.eventTimestamp
  eventId := event.eventId
  isPrivate := event.acl.isPrivate
  allowedGroupIds := event.acl.allowedGroupIds

/-- What a pull request blocks. -/
def blocksTarget (target : String) : String :=
  if Text.contains target "/pr/" then prNodeId target else issueNodeId target

section Mappers
variable (isAlphanumeric : Char → Bool) (event : V1CanonicalEvent)

def mapPullRequest : GraphMutation :=
  let repoRes := pullRequestRepo event
  let prRes := pullRequestResource event
  let person := personNode event
  let repo := repoNode event repoRes
  let title := (event.attributes.getStr "title").getD ""
  let pr := eventNode event (prNodeId prRes) "PullRequest" (if title = "" then prRes else title) prRes
    event.attributes
  let authored := ownEdge event "AUTHORED" person.nodeId pr.nodeId (.obj [])
  let belongs := stableEdge event "BELONGS_TO" pr.nodeId repo.nodeId (.obj [])
  let blocks := (((event.attributes.get "blocks").bind Json.asArray).getD []).filterMap fun b =>
    b.asStr.map fun target => ownEdge event "BLOCKS" pr.nodeId (blocksTarget target) (.obj [])
  let base : GraphMutation :=
    { nodes := [person, repo, pr]
      edges := [authored, belongs] ++ blocks
      states := [eventState event pr.nodeId "lifecycle" (lifecycleOf event.eventType)] }
  mergeIntentInto isAlphanumeric base event pr.nodeId

/-! ## Issues -/

/-- The assignee of an issue, and the edge to it. -/
def assignedTo (issueNodeId : String) : List GraphNode × List GraphEdge :=
  match extractAssigneeKey event with
  | some akey =>
    let assignee := personNodeForKey event akey
    ([assignee], [stableEdge event "ASSIGNED_TO" issueNodeId assignee.nodeId
      (.obj [("assignee_key", .str akey)])])
  | none =>
    -- an assignment without an assignee is one to the actor
    if Text.contains (Text.toAsciiLowercase event.eventType) "assign" then
      ([], [stableEdge event "ASSIGNED_TO" issueNodeId (personNode event).nodeId (.obj [])])
    else ([], [])

def mapIssue : GraphMutation :=
  let attrs := event.attributes
  let parent := if event.parentResourceId = "" then "project" else event.parentResourceId
  let res := if event.resourceId = "" then parent ++ "/issue/unknown" else event.resourceId
  let person := personNode event
  let issue := eventNode event (issueNodeId res) "Issue"
    ((((attrs.get "summary").or (attrs.get "title")).bind Json.asStr).getD res) res attrs
  let authored := ownEdge event "AUTHORED" person.nodeId issue.nodeId (.obj [])
  let status := (((attrs.get "status").or (attrs.get "state")).bind Json.asStr).getD "unknown"
  let assigned := assignedTo event issue.nodeId
  let base : GraphMutation :=
    { nodes := [person, issue] ++ assigned.1
      edges := authored :: assigned.2
      states := [eventState event issue.nodeId "status" status] }
  mergeIntentInto isAlphanumeric base event issue.nodeId

/-! ## Teams, pushes, checks, messages -/

/-- A person joins a team; leaving leaves no trace here. -/
def mapTeamMembership : GraphMutation :=
  let attrs := event.attributes
  let team := ((((((attrs.get "team").or (attrs.get "group_name")).or (attrs.get "group_id")).or
    (attrs.get "channel")).or (attrs.get "org")).bind Json.asStr).getD ""
  let et := Text.toAsciiLowercase event.eventType
  if team = "" then {}
  else if Text.contains et "remove" || Text.contains et "left" || Text.contains et "deleted" then {}
  else
    let person := personNode event
    let teamNode := publicNode event (teamNodeId team) "Team" team team (.obj [])
    { nodes := [person, teamNode]
      edges := [stableEdge event "MEMBER_OF" person.nodeId teamNode.nodeId
        (.obj [("team", .str team)])] }

/-- The node and the edge of a commit of a push. -/
def pushedCommit (repoRes personNodeId : String) (c : Json) : Option (GraphNode × GraphEdge) :=
  let sha := (c.getStr "id").getD ""
  if sha = "" then none
  else
    let cid := commitNodeId repoRes sha
    let msg := Text.take 240 (Text.trim (Text.firstLine ((c.getStr "message").getD "")))
    some (eventNode event cid "Commit" (Text.take 7 sha) sha
        (.obj [("message", .str msg), ("title", .str msg), ("sha", .str sha)]),
      eventEdge event
        (edgeId event.tenantId "AUTHORED" personNodeId cid (event.eventId ++ ":" ++ sha))
        "AUTHORED" personNodeId cid (.obj []))

/-- The repository of a push. -/
def pushRepo : String :=
  if event.parentResourceId = "" then
    -- often `org/repo/ref/refs/heads/main`
    (Text.before event.resourceId "/ref/").getD (firstTwo event.resourceId)
  else event.parentResourceId

def mapPush : GraphMutation :=
  let repoRes := pushRepo event
  if repoRes = "" then {}
  else
    let person := personNode event
    let repo := repoNode event repoRes
    let commits := ((((event.attributes.get "commits").bind Json.asArray).getD []).take 20).filterMap
      (pushedCommit event repoRes person.nodeId)
    { nodes := [person, repo] ++ commits.map Prod.fst
      edges := ownEdge event "PUSHED_TO" person.nodeId repo.nodeId
          (.obj [("ref", .str ((event.attributes.getStr "ref").getD "")),
            ("commit_count", (event.attributes.get "commit_count").getD .null)])
        :: commits.map Prod.snd }

def mapCheckActivity : GraphMutation :=
  let repoRes :=
    if event.parentResourceId ≠ "" then event.parentResourceId else firstTwo event.resourceId
  if repoRes = "" ∨ repoRes = event.resourceId ∧ !Text.contains event.resourceId "/" then {}
  else
    let person := personNode event
    let repo := repoNode event repoRes
    { nodes := [person, repo]
      edges := [ownEdge event "CHECKED" person.nodeId repo.nodeId
        (.obj [("event_type", .str event.eventType)])] }

def mapCommunication : GraphMutation :=
  let attrs := event.attributes
  let channel := (((attrs.get "channel").or (attrs.get "conversation_id")).bind Json.asStr).getD
    "unknown"
  let person := personNode event
  let ch := eventNode event (channelNodeId channel) "Channel" channel channel (.obj [])
  { nodes := [person, ch]
    edges := [ownEdge event "DISCUSSED_IN" person.nodeId ch.nodeId
      (.obj [("preview", (attrs.get "text_preview").getD (.str ""))])] }

/-- One resource blocks another; the nodes are not touched. -/
def mapBlockerHint : GraphMutation :=
  match event.attributes.getStr "from_resource_id", event.attributes.getStr "to_resource_id" with
  | some f, some t => { edges := [ownEdge event "BLOCKS" (prNodeId f) (prNodeId t) (.obj [])] }
  | _, _ => {}

/-! ## Dispatch -/

def isPullRequestEvent (eventType : String) : Bool :=
  Text.startsWith eventType "pull_request." || Text.contains eventType "merge_request."

def isTeamEvent : Bool :=
  let et := Text.toAsciiLowercase event.eventType
  Text.eqIgnoreAsciiCase event.category "identity" || Text.contains et "identity" ||
    (Text.contains et "member" && !Text.contains et "comment")

def isIssueEvent (eventType : String) : Bool :=
  let et := Text.toAsciiLowercase eventType
  Text.startsWith eventType "issue." || Text.contains et "jira:" ||
    Text.startsWith eventType "linear." || Text.contains et "issue.assigned" ||
    Text.contains et "issue_assigned"

def isCheckEvent (eventType : String) : Bool :=
  Text.startsWith eventType "check_suite." || Text.startsWith eventType "check_run." ||
    Text.startsWith eventType "status." || Text.startsWith eventType "workflow_run." ||
    Text.startsWith eventType "deployment." || Text.startsWith eventType "branch."

/-- The mappers behind pull requests and team memberships. -/
def mapOther : GraphMutation :=
  let et := event.eventType
  if isIssueEvent et then mapIssue isAlphanumeric event
  else if Text.startsWith et "push" then mapPush event
  else if isCheckEvent et then mapCheckActivity event
  else if Text.startsWith et "slack." || Text.startsWith et "teams." then mapCommunication event
  else if Text.contains (Text.toAsciiLowercase et) "block" then mapBlockerHint event
  else {}

def mapEvent : GraphMutation :=
  if isPullRequestEvent event.eventType then mapPullRequest isAlphanumeric event
  else if isTeamEvent event then
    let m := mapTeamMembership event
    -- an identity event that names no team may still be something else
    if !m.nodes.isEmpty || !m.edges.isEmpty then m else mapOther isAlphanumeric event
  else mapOther isAlphanumeric event

/-! ## States of a mutation

An event has one state to report at most. -/

variable {isAlphanumeric event}

@[simp] theorem mapPullRequest_states : (mapPullRequest isAlphanumeric event).states =
    [eventState event (prNodeId (pullRequestResource event)) "lifecycle"
      (lifecycleOf event.eventType)] := by
  unfold mapPullRequest
  rw [mergeIntentInto_states]
  rfl

theorem mapEvent_states_of_pullRequest (h : isPullRequestEvent event.eventType = true) :
    (mapEvent isAlphanumeric event).states =
      [eventState event (prNodeId (pullRequestResource event)) "lifecycle"
        (lifecycleOf event.eventType)] := by
  unfold mapEvent
  rw [if_pos h, mapPullRequest_states]

theorem mapIssue_states : ∃ res status, (mapIssue isAlphanumeric event).states =
    [eventState event (issueNodeId res) "status" status] := by
  unfold mapIssue
  rw [mergeIntentInto_states]
  exact ⟨_, _, rfl⟩

theorem mapTeamMembership_states : (mapTeamMembership event).states = [] := by
  unfold mapTeamMembership
  dsimp only
  split_ifs <;> rfl

theorem mapOther_states : (mapOther isAlphanumeric event).states = [] ∨
    ∃ res status, (mapOther isAlphanumeric event).states =
      [eventState event (issueNodeId res) "status" status] := by
  unfold mapOther
  dsimp only
  split_ifs
  · exact .inr mapIssue_states
  · unfold mapPush
    dsimp only
    split_ifs <;> exact .inl rfl
  · unfold mapCheckActivity
    dsimp only
    split_ifs <;> exact .inl rfl
  · exact .inl rfl
  · unfold mapBlockerHint
    split <;> exact .inl rfl
  · exact .inl rfl

variable (isAlphanumeric event) in
/-- A pull request reports its lifecycle, an issue its status. -/
theorem mapEvent_statuses : (mapEvent isAlphanumeric event).states = [] ∨
    (∃ res, (mapEvent isAlphanumeric event).states =
      [eventState event (prNodeId res) "lifecycle" (lifecycleOf event.eventType)]) ∨
    ∃ res status, (mapEvent isAlphanumeric event).states =
      [eventState event (issueNodeId res) "status" status] := by
  unfold mapEvent
  dsimp only
  split_ifs
  · exact .inr (.inl ⟨_, mapPullRequest_states⟩)
  · exact .inl mapTeamMembership_states
  · exact mapOther_states.imp_right .inr
  · exact mapOther_states.imp_right .inr

variable (isAlphanumeric event) in
theorem mapEvent_states : (mapEvent isAlphanumeric event).states = [] ∨
    ∃ nodeId stateKey stateValue, (mapEvent isAlphanumeric event).states =
      [eventState event nodeId stateKey stateValue] := by
  rcases mapEvent_statuses isAlphanumeric event with
    hnone | ⟨res, hone⟩ | ⟨res, status, hone⟩
  · exact .inl hnone
  · exact .inr ⟨_, _, _, hone⟩
  · exact .inr ⟨_, _, _, hone⟩

theorem of_mem_mapEvent_states {s : EntityState} (h : s ∈ (mapEvent isAlphanumeric event).states) :
    (mapEvent isAlphanumeric event).states = [s] ∧
      ∃ nodeId stateKey stateValue, s = eventState event nodeId stateKey stateValue := by
  rcases mapEvent_states isAlphanumeric event with hnone | ⟨n, k, v, hone⟩
  · rw [hnone] at h
    cases h
  · rw [hone] at h ⊢
    obtain rfl := List.mem_singleton.mp h
    exact ⟨rfl, n, k, v, rfl⟩

/-! ## Rows of a mutation

Whatever an event maps to, each node and edge is one of its own. -/

/-- The node carries the access of the event, or is a person or a team. An `Intent` is named as one. -/
inductive NodeOf (event : V1CanonicalEvent) : GraphNode → Prop
  | own (nodeId nodeType displayName resourceId : String) (properties : Json)
      (hname : nodeType ≠ "Intent" ∨ ∃ owner about, nodeId = intentNodeId owner about) :
      NodeOf event (eventNode event nodeId nodeType displayName resourceId properties)
  | shared {nodeType : String} (h : nodeType = "Person" ∨ nodeType = "Team")
      (nodeId displayName resourceId : String) (properties : Json) :
      NodeOf event (publicNode event nodeId nodeType displayName resourceId properties)

inductive EdgeOf (event : V1CanonicalEvent) : GraphEdge → Prop
  | own (edgeId edgeType fromNodeId toNodeId : String) (properties : Json) :
      EdgeOf event (eventEdge event edgeId edgeType fromNodeId toNodeId properties)

structure GraphMutation.Of (event : V1CanonicalEvent) (m : GraphMutation) : Prop where
  nodes : ∀ n ∈ m.nodes, NodeOf event n
  edges : ∀ e ∈ m.edges, EdgeOf event e

theorem personNode_of : NodeOf event (personNode event) := .shared (.inl rfl) _ _ _ _

theorem personNodeForKey_of (key : String) : NodeOf event (personNodeForKey event key) :=
  .shared (.inl rfl) _ _ _ _

namespace GraphMutation.Of

variable {m base : GraphMutation}

theorem empty : GraphMutation.Of event {} :=
  ⟨fun _ h => absurd h List.not_mem_nil, fun _ h => absurd h List.not_mem_nil⟩

variable (isAlphanumeric event) in
theorem attachIntentMutation (about : GraphNode) (owner title : String) (labels : List String)
    (body : String) :
    GraphMutation.Of event (attachIntentMutation isAlphanumeric event about owner title labels body) := by
  unfold AiManager.Graph.attachIntentMutation
  split
  · exact empty
  · refine ⟨fun n hn => ?_, fun e he => ?_⟩
    · obtain rfl := List.mem_singleton.mp hn
      exact .own _ _ _ _ _ (.inr ⟨_, _, rfl⟩)
    · rcases List.mem_pair.mp he with rfl | rfl <;> exact .own _ _ _ _ _

theorem mergeIntentInto (h : GraphMutation.Of event base) (aboutNodeId : String) :
    GraphMutation.Of event (mergeIntentInto isAlphanumeric base event aboutNodeId) := by
  unfold AiManager.Graph.mergeIntentInto
  split
  · exact h
  · next about _ =>
    split
    · exact h
    · have hintent := fun owner title labels body =>
        attachIntentMutation isAlphanumeric event about owner title labels body
      refine ⟨fun n hn => ?_, fun e he => ?_⟩
      · rcases List.mem_append.mp hn with hn | hn
        · exact h.nodes n hn
        · exact (hintent _ _ _ _).nodes n hn
      · rcases List.mem_append.mp he with he | he
        · exact h.edges e he
        · exact (hintent _ _ _ _).edges e he

theorem mapPullRequest : GraphMutation.Of event (mapPullRequest isAlphanumeric event) := by
  refine mergeIntentInto ⟨fun n hn => ?_, fun e he => ?_⟩ _
  · simp only [List.mem_cons, List.not_mem_nil, or_false] at hn
    rcases hn with rfl | rfl | rfl
    · exact personNode_of
    · exact .own _ _ _ _ _ (.inl (by decide))
    · exact .own _ _ _ _ _ (.inl (by decide))
  · rcases List.mem_append.mp he with he | he
    · rcases List.mem_pair.mp he with rfl | rfl <;> exact .own _ _ _ _ _
    · obtain ⟨b, -, hb⟩ := List.mem_filterMap.mp he
      obtain ⟨target, -, rfl⟩ := Option.map_eq_some_iff.mp hb
      exact .own _ _ _ _ _

theorem assignedTo (issueNodeId : String) :
    (∀ n ∈ (assignedTo event issueNodeId).1, NodeOf event n) ∧
      ∀ e ∈ (assignedTo event issueNodeId).2, EdgeOf event e := by
  unfold AiManager.Graph.assignedTo
  split
  · refine ⟨fun n hn => ?_, fun e he => ?_⟩
    · obtain rfl := List.mem_singleton.mp hn
      exact personNodeForKey_of _
    · obtain rfl := List.mem_singleton.mp he
      exact .own _ _ _ _ _
  · split
    · refine ⟨fun _ h => absurd h List.not_mem_nil, fun e he => ?_⟩
      obtain rfl := List.mem_singleton.mp he
      exact .own _ _ _ _ _
    · exact ⟨fun _ h => absurd h List.not_mem_nil, fun _ h => absurd h List.not_mem_nil⟩

theorem mapIssue : GraphMutation.Of event (mapIssue isAlphanumeric event) := by
  refine mergeIntentInto ⟨fun n hn => ?_, fun e he => ?_⟩ _
  · rcases List.mem_append.mp hn with hn | hn
    · rcases List.mem_pair.mp hn with rfl | rfl
      · exact personNode_of
      · exact .own _ _ _ _ _ (.inl (by decide))
    · exact (assignedTo _).1 n hn
  · rcases List.mem_cons.mp he with rfl | he
    · exact .own _ _ _ _ _
    · exact (assignedTo _).2 e he

theorem mapTeamMembership : GraphMutation.Of event (mapTeamMembership event) := by
  unfold AiManager.Graph.mapTeamMembership
  dsimp only
  split_ifs
  · exact empty
  · exact empty
  · refine ⟨fun n hn => ?_, fun e he => ?_⟩
    · rcases List.mem_pair.mp hn with rfl | rfl
      · exact personNode_of
      · exact .shared (.inr rfl) _ _ _ _
    · obtain rfl := List.mem_singleton.mp he
      exact .own _ _ _ _ _

theorem pushedCommit {repoRes personNodeId : String} {c : Json} {row : GraphNode × GraphEdge}
    (h : pushedCommit event repoRes personNodeId c = some row) :
    NodeOf event row.1 ∧ EdgeOf event row.2 := by
  unfold AiManager.Graph.pushedCommit at h
  dsimp only at h
  split_ifs at h
  obtain rfl := Option.some.inj h
  exact ⟨.own _ _ _ _ _ (.inl (by decide)), .own _ _ _ _ _⟩

theorem mapPush : GraphMutation.Of event (mapPush event) := by
  unfold AiManager.Graph.mapPush
  dsimp only
  split_ifs
  · exact empty
  · refine ⟨fun n hn => ?_, fun e he => ?_⟩
    · rcases List.mem_append.mp hn with hn | hn
      · rcases List.mem_pair.mp hn with rfl | rfl
        · exact personNode_of
        · exact .own _ _ _ _ _ (.inl (by decide))
      · obtain ⟨row, hrow, rfl⟩ := List.mem_map.mp hn
        obtain ⟨c, -, hc⟩ := List.mem_filterMap.mp hrow
        exact (pushedCommit hc).1
    · rcases List.mem_cons.mp he with rfl | he
      · exact .own _ _ _ _ _
      · obtain ⟨row, hrow, rfl⟩ := List.mem_map.mp he
        obtain ⟨c, -, hc⟩ := List.mem_filterMap.mp hrow
        exact (pushedCommit hc).2

/-- A person, a node and an edge. -/
theorem person_and {n : GraphNode} {e : GraphEdge} (hn : NodeOf event n) (he : EdgeOf event e) :
    GraphMutation.Of event { nodes := [personNode event, n], edges := [e] } := by
  refine ⟨fun x hx => ?_, fun x hx => ?_⟩
  · rcases List.mem_pair.mp hx with rfl | rfl
    · exact personNode_of
    · exact hn
  · rwa [List.mem_singleton.mp hx]

theorem mapCheckActivity : GraphMutation.Of event (mapCheckActivity event) := by
  unfold AiManager.Graph.mapCheckActivity
  dsimp only
  split_ifs
  · exact empty
  · exact person_and (.own _ _ _ _ _ (.inl (by decide))) (.own _ _ _ _ _)
  · exact empty
  · exact person_and (.own _ _ _ _ _ (.inl (by decide))) (.own _ _ _ _ _)

theorem mapBlockerHint : GraphMutation.Of event (mapBlockerHint event) := by
  unfold AiManager.Graph.mapBlockerHint
  split
  · refine ⟨fun _ h => absurd h List.not_mem_nil, fun e he => ?_⟩
    obtain rfl := List.mem_singleton.mp he
    exact .own _ _ _ _ _
  · exact empty

theorem mapOther : GraphMutation.Of event (mapOther isAlphanumeric event) := by
  unfold AiManager.Graph.mapOther
  dsimp only
  split_ifs
  · exact mapIssue
  · exact mapPush
  · exact mapCheckActivity
  · exact person_and (.own _ _ _ _ _ (.inl (by decide))) (.own _ _ _ _ _)
  · exact mapBlockerHint
  · exact empty

theorem mapEvent : GraphMutation.Of event (mapEvent isAlphanumeric event) := by
  unfold AiManager.Graph.mapEvent
  dsimp only
  split_ifs
  · exact mapPullRequest
  · exact mapTeamMembership
  · exact mapOther
  · exact mapOther

end GraphMutation.Of

/-! ## Access of a mutation -/

/-- Tenant and access of every row are those of the event, except that people and teams are seen by everybody. -/
structure GraphMutation.CarriesAccess (event : V1CanonicalEvent) (m : GraphMutation) : Prop where
  nodes : ∀ n ∈ m.nodes, n.nodeType ≠ "Person" → n.nodeType ≠ "Team" →
    n.tenantId = event.tenantId ∧ n.isPrivate = event.acl.isPrivate ∧
      n.allowedGroupIds = event.acl.allowedGroupIds ∧ n.aclVersion = event.acl.aclVersion
  edges : ∀ e ∈ m.edges, e.tenantId = event.tenantId ∧ e.isPrivate = event.acl.isPrivate ∧
    e.allowedGroupIds = event.acl.allowedGroupIds ∧ e.aclVersion = event.acl.aclVersion
  states : ∀ s ∈ m.states, s.tenantId = event.tenantId ∧ s.isPrivate = event.acl.isPrivate ∧
    s.allowedGroupIds = event.acl.allowedGroupIds

variable (isAlphanumeric event) in
/-- **Access.** What an event maps to is as private as the event, in every branch of the mappers. -/
theorem mapEvent_carriesAccess : (mapEvent isAlphanumeric event).CarriesAccess event where
  nodes n hn hperson hteam := by
    have hnode : NodeOf event n := GraphMutation.Of.mapEvent.nodes n hn
    cases hnode with
    | own nodeId nodeType displayName resourceId properties hname => exact ⟨rfl, rfl, rfl, rfl⟩
    | shared h nodeId displayName resourceId properties => exact (h.elim hperson hteam).elim
  edges e he := by
    have hedge : EdgeOf event e := GraphMutation.Of.mapEvent.edges e he
    cases hedge with
    | own edgeId edgeType fromNodeId toNodeId properties => exact ⟨rfl, rfl, rfl, rfl⟩
  states s hs := by
    obtain ⟨-, nodeId, stateKey, stateValue, rfl⟩ := of_mem_mapEvent_states hs
    exact ⟨rfl, rfl, rfl⟩

end Mappers

end AiManager.Graph
