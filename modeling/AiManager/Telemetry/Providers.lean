import AiManager.Telemetry.Github

/-! # The other providers

Which event a webhook of each provider becomes, next to those of GitHub and to the identity webhooks. -/

namespace AiManager.Telemetry

open Lib

/-- An integer field, or none. -/
def i64Field (v : Json) (field : String) : Option Int := (v.get field).bind Json.asI64

section Providers
variable (chrono : Chrono) (v : Json) (ctx : NormalizeContext) (fresh : Fresh)

/-- When the object says that it was changed. -/
def updatedAt (object : Json) : DateTime :=
  ((object.get "updated_at").map (parseTimestamp chrono fresh.now)).getD fresh.now

/-! ## GitLab -/

def gitlabProject : String := (v.nestedStr ["project", "path_with_namespace"]).getD "unknown"

def normalizeGitlabMr : CoreResult CanonicalEventRecord :=
  match v.get "object_attributes" with
  | none => .error (.normalization "missing object_attributes")
  | some attrs =>
    let project := gitlabProject v
    let iid := (i64Field attrs "iid").getD 0
    let action := (attrs.getStr "action").getD "update"
    .ok (baseEvent ctx fresh .code ("merge_request." ++ action) (changedAt chrono fresh attrs) (actorAt v ctx "user")
      (resourceId [project, "mr", toString iid]) project
      (.obj [("title", .str ((attrs.getStr "title").getD "")), ("state", .str ((attrs.getStr "state").getD "")),
        ("source_branch", .str ((attrs.getStr "source_branch").getD "")),
        ("target_branch", .str ((attrs.getStr "target_branch").getD "")),
        ("url", .str ((attrs.getStr "url").getD ""))]))

def normalizeGitlabPush (kind : String) : CanonicalEventRecord :=
  let project := gitlabProject v
  let actor : ActorIdentity := {
    globalUserId := ctx.actorGlobalUserId
    providerUserId := ((i64Field v "user_id").map toString).getD ""
    email := (v.getStr "user_email").getD ""
    displayName := (v.getStr "user_name").getD "" }
  let commits := (((v.get "commits").bind Json.asArray).map List.length).getD 0
  baseEvent ctx fresh .code kind fresh.now actor
    (resourceId [project, "ref", (v.getStr "ref").getD "unknown"]) project
    (.obj [("ref", .str ((v.getStr "ref").getD "")), ("checkout_sha", .str ((v.getStr "checkout_sha").getD "")),
      ("commit_count", .num commits 0),
      ("total_commits_count", .num ((i64Field v "total_commits_count").getD 0) 0)])

/-- What a GitLab webhook is about, or the webhook itself. -/
def gitlabAttrs : Json := (v.get "object_attributes").getD v

def normalizeGitlabIssue : CanonicalEventRecord :=
  let attrs := gitlabAttrs v
  let project := gitlabProject v
  let iid := (i64Field attrs "iid").getD 0
  let action := (attrs.getStr "action").getD "update"
  baseEvent ctx fresh .workItem ("issue." ++ action) (updatedAt chrono fresh attrs) (actorAt v ctx "user")
    (resourceId [project, "issue", toString iid]) project
    (.obj [("title", .str ((attrs.getStr "title").getD "")), ("state", .str ((attrs.getStr "state").getD ""))])

def normalizeGitlabNote : CanonicalEventRecord :=
  let attrs := gitlabAttrs v
  let project := gitlabProject v
  baseEvent ctx fresh .communication "note.created" fresh.now (actorAt v ctx "user")
    (resourceId [project, "note", toString ((i64Field attrs "id").getD 0)]) project
    (.obj [("body_preview", .str (Text.take 280 ((attrs.getStr "note").getD ""))),
      ("noteable_type", .str ((attrs.getStr "noteable_type").getD ""))])

/-- A pipeline has no actor. -/
def normalizeGitlabPipeline (kind : String) : CanonicalEventRecord :=
  let attrs := gitlabAttrs v
  let project := gitlabProject v
  baseEvent ctx fresh .code (kind ++ "." ++ (attrs.getStr "status").getD "updated") fresh.now {}
    (resourceId [project, kind, toString ((i64Field attrs "id").getD 0)]) project
    (.obj [("status", .str ((attrs.getStr "status").getD "")), ("ref", .str ((attrs.getStr "ref").getD ""))])

/-- Whatever else GitLab sends. -/
def normalizeGitlabOther (kind : String) : CanonicalEventRecord :=
  let project := ((v.nestedStr ["project", "path_with_namespace"]).or (v.nestedStr ["project", "name"])).getD "unknown"
  baseEvent ctx fresh .code ("gitlab." ++ kind) fresh.now (actorAt v ctx "user") project project
    (.obj [("object_kind", .str kind), ("project", .str project)])

def gitlabKind : String := ((v.getStr "object_kind").or (v.getStr "event_name")).getD "event"

def normalizeGitlab : CoreResult CanonicalEventRecord :=
  let kind := gitlabKind v
  if kind = "merge_request" then normalizeGitlabMr chrono v ctx fresh
  else if kind = "push" ∨ kind = "tag_push" then .ok (normalizeGitlabPush v ctx fresh kind)
  else if kind = "issue" then .ok (normalizeGitlabIssue chrono v ctx fresh)
  else if kind = "note" ∨ kind = "comment" then .ok (normalizeGitlabNote v ctx fresh)
  else if kind = "pipeline" ∨ kind = "build" then .ok (normalizeGitlabPipeline v ctx fresh kind)
  else if kind = "member" ∨ kind = "user_add_to_group" ∨ kind = "user_remove_from_group" then
    .ok (normalizeGitlabIdentity v ctx fresh kind)
  else .ok (normalizeGitlabOther v ctx fresh kind)

/-! ## Jira -/

def changelogItem (item : Json) : Json :=
  .obj [("field", .str ((item.getStr "field").getD "")), ("from", .str ((item.getStr "fromString").getD "")),
    ("to", .str ((item.getStr "toString").getD ""))]

/-- At most 20 changes. -/
def extractChangelog : List Json :=
  ((((((v.get "changelog").bind fun c => c.get "items").bind Json.asArray).getD []).take 20)).map changelogItem

def jiraEvent : String := ((v.getStr "webhookEvent").or (v.getStr "issue_event_type_name")).getD "jira:event"

def isJiraIdentity (event : String) : Bool := Text.contains event "user" || Text.contains event "permission"

def normalizeJira : CoreResult CanonicalEventRecord :=
  let event := jiraEvent v
  if isJiraIdentity event then .ok (normalizeJiraIdentity v ctx fresh event)
  else
    let issue := v.get "issue"
    let key := (issue.bind fun i => i.getStr "key").getD "UNKNOWN-0"
    let fields := issue.bind fun i => i.get "fields"
    let projectKey := (fields.bind fun f => f.nestedStr ["project", "key"]).getD "PROJ"
    let actor := (((v.get "user").or (v.nested ["comment", "author"])).map (actorFromUser ctx.actorGlobalUserId)).getD {}
    let ts := (((fields.bind fun f => f.get "updated").or (fields.bind fun f => f.get "created")).map
      (parseTimestamp chrono fresh.now)).getD fresh.now
    let category := if Text.contains event "comment" then EventCategory.communication else .workItem
    .ok (baseEvent ctx fresh category event ts actor (resourceId [projectKey, key]) projectKey
      (.obj [("key", .str key), ("summary", .str ((fields.bind fun f => f.getStr "summary").getD "")),
        ("status", .str ((fields.bind fun f => f.nestedStr ["status", "name"]).getD "")),
        ("issue_type", .str ((fields.bind fun f => f.nestedStr ["issuetype", "name"]).getD "")),
        ("assignee_account_id", .str ((fields.bind fun f => f.nestedStr ["assignee", "accountId"]).getD "")),
        ("comment_preview", .str (((v.get "comment").bind fun c => (c.getStr "body").map (Text.take 280)).getD "")),
        ("changelog_items", .arr (extractChangelog v))]))

/-! ## Linear -/

def linearAction : String := ((v.getStr "action").or (v.getStr "type")).getD "update"

/-- The data of a Linear webhook, or the webhook itself. -/
def linearData : Json := (v.get "data").getD v

def linearType : String := ((v.getStr "type").or ((linearData v).getStr "type")).getD "Issue"

def isLinearIdentity : Bool :=
  Text.eqIgnoreAsciiCase (linearType v) "User" || Text.contains (linearAction v) "member"

def normalizeLinear : CoreResult CanonicalEventRecord :=
  let action := linearAction v
  let data := linearData v
  let typeName := linearType v
  if isLinearIdentity v then .ok (normalizeLinearIdentity v ctx fresh action)
  else
    let identifier := ((data.getStr "identifier").or (data.getStr "id")).getD "unknown"
    let teamKey := ((data.nestedStr ["team", "key"]).or (data.getStr "teamId")).getD "TEAM"
    let actor := (((v.get "actor").or (data.get "creator")).map (actorFromUser ctx.actorGlobalUserId)).getD {}
    let ts := (((((v.get "webhookTimestamp").or (data.get "updatedAt")).or (data.get "createdAt")).or
      (v.get "createdAt")).map (parseTimestamp chrono fresh.now)).getD fresh.now
    let category := if Text.eqIgnoreAsciiCase typeName "Comment" then EventCategory.communication else .workItem
    .ok (baseEvent ctx fresh category ("linear." ++ Text.toAsciiLowercase typeName ++ "." ++ action) ts actor
      (resourceId [teamKey, identifier]) teamKey
      (.obj [("identifier", .str identifier), ("title", .str ((data.getStr "title").getD "")),
        ("state", .str ((data.nestedStr ["state", "name"]).getD "")),
        ("priority", .num ((i64Field data "priority").getD 0) 0), ("url", .str ((data.getStr "url").getD "")),
        ("assignee_id", .str ((data.nestedStr ["assignee", "id"]).getD ""))]))

/-! ## Slack -/

def isSlackIdentity (eventType : String) : Bool :=
  eventType = "member_joined_channel" || eventType = "member_left_channel" || eventType = "team_join" ||
  eventType = "user_change" || eventType = "subteam_members_changed"

/-- `parseF64` takes a text to the integer of 64 bits that its double truncates to. -/
def normalizeSlack (parseF64 : String → Option Int) : CoreResult CanonicalEventRecord :=
  if v.getStr "type" = some "url_verification" then
    .error (.validation "url_verification must be handled by HTTP layer")
  else
    let event := (v.get "event").getD v
    let eventType := (event.getStr "type").getD "message"
    let team := ((v.getStr "team_id").or (event.getStr "team")).getD "unknown"
    let channel := (event.getStr "channel").getD "unknown"
    let tsStr := (event.getStr "ts").or (event.getStr "event_ts")
    let ts := ((tsStr.bind parseF64).map fun secs => (chrono.timestampOpt secs).getD fresh.now).getD fresh.now
    if isSlackIdentity eventType then .ok (normalizeSlackIdentity event ctx fresh eventType team)
    else
      let actor : ActorIdentity := {
        globalUserId := ctx.actorGlobalUserId
        providerUserId := (event.getStr "user").getD "" }
      .ok (baseEvent ctx fresh .communication ("slack." ++ eventType) ts actor
        (resourceId [team, channel, tsStr.getD "0"]) (resourceId [team, channel])
        (.obj [("channel", .str channel), ("team_id", .str team),
          ("thread_ts", .str ((event.getStr "thread_ts").getD "")),
          ("text_preview", .str (Text.take 280 ((event.getStr "text").getD ""))),
          ("subtype", .str ((event.getStr "subtype").getD ""))]))

/-! ## Teams -/

def teamsActivity : String :=
  (v.getStr "type").getD (((v.getStr "type").or (v.nestedStr ["eventType"])).getD "message")

def isTeamsIdentity (activity : String) : Bool :=
  Text.contains activity "conversationUpdate" || Text.contains activity "membersAdded" ||
  Text.contains activity "membersRemoved"

def normalizeTeams : CoreResult CanonicalEventRecord :=
  let activity := teamsActivity v
  if isTeamsIdentity activity then .ok (normalizeTeamsIdentity v ctx fresh activity)
  else
    let conversationId := (v.nestedStr ["conversation", "id"]).getD "unknown"
    let ts := (((v.get "timestamp").or (v.get "localTimestamp")).map
      (parseTimestamp chrono fresh.now)).getD fresh.now
    let actor : ActorIdentity := {
      globalUserId := ctx.actorGlobalUserId
      providerUserId := (v.nestedStr ["from", "id"]).getD ""
      displayName := (v.nestedStr ["from", "name"]).getD "" }
    .ok (baseEvent ctx fresh .communication ("teams." ++ activity) ts actor
      (resourceId [conversationId, (v.getStr "id").getD "0"]) conversationId
      (.obj [("conversation_id", .str conversationId),
        ("text_preview", .str (Text.take 280 ((v.getStr "text").getD ""))),
        ("channel_id", .str ((v.nestedStr ["channelData", "channel", "id"]).getD "")),
        ("team_id", .str ((v.nestedStr ["channelData", "team", "id"]).getD ""))]))

/-! ## Zendesk -/

def digitsValue (cs : List Char) : Option Nat :=
  if cs.isEmpty || !cs.all Char.isDigit then none
  else some (cs.foldl (fun n c => n * 10 + (c.toNat - '0'.toNat)) 0)

/-- `s.parse::<i64>()` -/
def parseI64 (s : String) : Option Int :=
  let n : Option Int :=
    match s.toList with
    | '-' :: cs => (digitsValue cs).map fun n => -(n : Int)
    | '+' :: cs => (digitsValue cs).map fun n => (n : Int)
    | cs => (digitsValue cs).map fun n => (n : Int)
  n.filter fun n => -(2 ^ 63) ≤ n && n < 2 ^ 63

/-- Ticket fields stand under `detail`, under `ticket`, or at the top. -/
def zendeskDetail : Json := ((v.get "detail").or (v.get "ticket")).getD v

def zendeskUser : Option Json :=
  (((zendeskDetail v).get "requester").or ((zendeskDetail v).get "assignee")).or (v.get "actor")

def normalizeZendesk : CoreResult CanonicalEventRecord :=
  let detail := zendeskDetail v
  let ticketId := (((i64Field detail "id").or ((detail.getStr "id").bind parseI64)).or (i64Field v "id")).getD 0
  let eventType := ((v.getStr "type").or (v.getStr "event_type")).getD "ticket.updated"
  let actor := ((zendeskUser v).map (actorFromUser ctx.actorGlobalUserId)).getD {}
  .ok (baseEvent ctx fresh .workItem eventType (changedAt chrono fresh detail) actor
    (resourceId ["zendesk", "ticket", toString ticketId]) "zendesk"
    (.obj [("ticket_id", .num ticketId 0),
      ("subject", .str (((detail.getStr "subject").or (detail.getStr "title")).getD "")),
      ("status", .str ((detail.getStr "status").getD "")), ("priority", .str ((detail.getStr "priority").getD "")),
      ("assignee_id", .num ((i64Field detail "assignee_id").getD 0) 0),
      ("requester_id", .num ((i64Field detail "requester_id").getD 0) 0), ("tags", (detail.get "tags").getD (.arr []))]))

/-! ## All of them -/

/-- Normalize a webhook of any provider. -/
def normalize (parseF64 : String → Option Int) : CoreResult CanonicalEventRecord :=
  match ctx.provider with
  | .github => normalizeGithub chrono v ctx fresh
  | .gitlab => normalizeGitlab chrono v ctx fresh
  | .jira => normalizeJira chrono v ctx fresh
  | .linear => normalizeLinear chrono v ctx fresh
  | .slack => normalizeSlack chrono v ctx fresh parseF64
  | .teams => normalizeTeams chrono v ctx fresh
  | .zendesk => normalizeZendesk chrono v ctx fresh
  | .unspecified => .error (.normalization "unspecified provider")

end Providers

section Identity
variable {chrono : Chrono} {v : Json} {ctx : NormalizeContext} {fresh : Fresh}

/-- An identity webhook becomes the identity event. -/
theorem normalize_of_identity {parseF64 : String → Option Int} {event : CanonicalEventRecord}
    (h : normalizeIdentity v ctx fresh ctx.provider = some event) :
    normalize chrono v ctx fresh parseF64 = .ok event := by
  unfold normalize
  cases hprovider : ctx.provider with
  | github =>
    rw [hprovider] at h
    exact normalizeGithub_identity h
  | gitlab =>
    rw [hprovider] at h
    simp only [normalizeIdentity] at h
    split at h
    · next hkind =>
      cases h
      unfold normalizeGitlab gitlabKind
      rcases hkind with hkind | hkind | hkind <;> simp [hkind]
    · cases h
  | jira =>
    rw [hprovider] at h
    simp only [normalizeIdentity] at h
    split at h
    · next hevent =>
      cases h
      unfold normalizeJira jiraEvent isJiraIdentity
      dsimp only
      rw [if_pos hevent]
    · cases h
  | linear =>
    rw [hprovider] at h
    simp only [normalizeIdentity] at h
    split at h
    · next htype =>
      cases h
      unfold normalizeLinear isLinearIdentity linearType linearAction linearData
      dsimp only
      rw [if_pos htype]
    · cases h
  | slack =>
    rw [hprovider] at h
    simp only [normalizeIdentity] at h
    split at h
    · cases h
    · next hchallenge =>
      split at h
      · next htype =>
        cases h
        unfold normalizeSlack isSlackIdentity
        dsimp only
        rw [if_neg hchallenge, if_pos (by simpa [or_assoc] using htype)]
      · cases h
  | teams =>
    rw [hprovider] at h
    simp only [normalizeIdentity] at h
    split at h
    · next hactivity =>
      cases h
      unfold normalizeTeams isTeamsIdentity teamsActivity
      dsimp only
      rw [if_pos hactivity]
    · cases h
  | zendesk =>
    rw [hprovider] at h
    cases h
  | unspecified =>
    rw [hprovider] at h
    cases h

end Identity

end AiManager.Telemetry
