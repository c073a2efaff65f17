import AiManager.Lib.Text
import AiManager.Telemetry.Acl

/-! # Identity webhooks

How the identity and membership webhooks of the providers become events. The event's actor is the user
whom the payload names as its sender, already mapped to a global id. -/

namespace AiManager.Telemetry

open Lib

/-- What a normalizer knows besides the payload. -/
structure NormalizeContext where
  tenantId : String
  provider : SourceProvider
  deliveryId : Option String
  eventName : Option String
  rawPayloadS3Uri : String
  defaultGroupIds : List String
  actorGlobalUserId : String
  aclVersion : Nat
  allowedGroupIds : List String
  isPrivate : Bool

/-- The identifier and the clock readings at hand. -/
structure Fresh where
  eventId : String
  now : DateTime
  ingestedAt : DateTime

/-- Build a partially filled event. -/
def baseEvent (ctx : NormalizeContext) (fresh : Fresh) (category : EventCategory) (eventType : String)
    (timestamp : DateTime) (actor : ActorIdentity) (resourceId parentResourceId : String)
    (attributes : Json) : CanonicalEventRecord where
  eventId := (ctx.deliveryId.filter fun s => s ≠ "").getD fresh.eventId
  tenantId := ctx.tenantId
  provider := ctx.provider
  category := category
  eventType := eventType
  eventTimestamp := timestamp
  ingestedAt := fresh.ingestedAt
  actor := { actor with
    globalUserId := if actor.globalUserId = "" then ctx.actorGlobalUserId else actor.globalUserId }
  acl := {
    tenantId := ctx.tenantId
    allowedGroupIds := if ctx.allowedGroupIds = [] then ctx.defaultGroupIds else ctx.allowedGroupIds
    isPrivate := ctx.isPrivate
    aclVersion := ctx.aclVersion }
  resourceId := resourceId
  parentResourceId := parentResourceId
  attributes := attributes
  rawPayloadS3Uri := ctx.rawPayloadS3Uri
  eventSequenceNumber := (timestamp / 1000000).toNat

def resourceId (parts : List String) : String := Text.join "/" parts

def actorFromUser (globalUserId : String) (user : Json) : ActorIdentity where
  globalUserId := globalUserId
  providerUserId :=
    ((((user.getStr "id").or (((user.get "id").bind Json.asI64).map toString)).or
      (user.getStr "login")).or (user.getStr "accountId")).getD ""
  email := (user.getStr "email").getD ""
  displayName :=
    ((((user.getStr "name").or (user.getStr "login")).or (user.getStr "displayName")).or
      (user.getStr "real_name")).getD ""

/-! ## The providers -/

section Providers
variable (v : Json) (ctx : NormalizeContext) (fresh : Fresh)

/-- The user under a field of the payload, as an actor. -/
def actorAt (field : String) : ActorIdentity :=
  ((v.get field).map (actorFromUser ctx.actorGlobalUserId)).getD {}

def normalizeGithubIdentity (eventName action : String) : CanonicalEventRecord :=
  let member := (v.get "member").or (v.nested ["membership", "user"])
  let team := ((v.nestedStr ["team", "slug"]).or (v.nestedStr ["team", "name"])).getD ""
  let memberLogin := (member.bind fun m => m.getStr "login").getD ""
  baseEvent ctx fresh .identity
    ("identity." ++ eventName ++ "." ++ if action = "" then "changed" else action) fresh.now
    (actorAt v ctx "sender") (resourceId ["team", team, "member", memberLogin]) ("team/" ++ team)
    (.obj [("team", .str team), ("member", .str memberLogin), ("action", .str action),
      ("scope", .str ((v.getStr "scope").getD ""))])

def normalizeGitlabIdentity (kind : String) : CanonicalEventRecord :=
  baseEvent ctx fresh .identity ("identity." ++ kind) fresh.now (actorAt v ctx "user")
    ("group/" ++ (v.getStr "group_name").getD "unknown") "group"
    (.obj [("group_name", .str ((v.getStr "group_name").getD "")),
      ("user_name", .str ((v.getStr "user_name").getD "")),
      ("group_access", .str ((v.getStr "group_access").getD ""))])

def normalizeJiraIdentity (event : String) : CanonicalEventRecord :=
  let actor := actorAt v ctx "user"
  baseEvent ctx fresh .identity event fresh.now actor ("jira/identity/" ++ actor.providerUserId) "jira"
    (.obj [("event", .str event)])

def normalizeLinearIdentity (action : String) : CanonicalEventRecord :=
  let data := (v.get "data").getD v
  baseEvent ctx fresh .identity ("linear.identity." ++ action) fresh.now
    (actorFromUser ctx.actorGlobalUserId data)
    ("linear/user/" ++ (data.getStr "id").getD "unknown") "linear"
    (.obj [("email", .str ((data.getStr "email").getD ""))])

/-- The user of a message of slack, which names its users by their id or as an object. -/
def slackUser (event : Json) : String :=
  ((event.getStr "user").or (event.nestedStr ["user", "id"])).getD ""

/-- Here the payload is the inner `event`. -/
def normalizeSlackIdentity (eventType team : String) : CanonicalEventRecord :=
  baseEvent ctx fresh .identity ("slack." ++ eventType) fresh.now
    { globalUserId := ctx.actorGlobalUserId, providerUserId := slackUser v }
    (resourceId [team, "user", slackUser v]) team
    (.obj [("channel", .str ((v.getStr "channel").getD "")), ("user", .str (slackUser v))])

def normalizeTeamsIdentity (activity : String) : CanonicalEventRecord :=
  let conversationId := (v.nestedStr ["conversation", "id"]).getD "unknown"
  baseEvent ctx fresh .identity ("teams." ++ activity) fresh.now {} conversationId conversationId
    (.obj [("members_added", (v.get "membersAdded").getD (.arr [])),
      ("members_removed", (v.get "membersRemoved").getD (.arr []))])

/-- The identity branch of `normalize`: the event of a webhook that a provider's normalizer takes for an
identity event. -/
def normalizeIdentity (provider : SourceProvider) : Option CanonicalEventRecord :=
  match provider with
  | .github =>
    let action := (v.getStr "action").getD ""
    let eventName := ctx.eventName.getD ""
    if eventName = "membership" ∨ eventName = "member" ∨ eventName = "organization" then
      some (normalizeGithubIdentity v ctx fresh eventName action)
    else none
  | .gitlab =>
    let objectKind := ((v.getStr "object_kind").or (v.getStr "event_name")).getD "event"
    if objectKind = "member" ∨ objectKind = "user_add_to_group" ∨
        objectKind = "user_remove_from_group" then
      some (normalizeGitlabIdentity v ctx fresh objectKind)
    else none
  | .jira =>
    let webhookEvent := ((v.getStr "webhookEvent").or (v.getStr "issue_event_type_name")).getD "jira:event"
    if Text.contains webhookEvent "user" || Text.contains webhookEvent "permission" then
      some (normalizeJiraIdentity v ctx fresh webhookEvent)
    else none
  | .linear =>
    let action := ((v.getStr "action").or (v.getStr "type")).getD "update"
    let data := (v.get "data").getD v
    let typeName := ((v.getStr "type").or (data.getStr "type")).getD "Issue"
    if Text.eqIgnoreAsciiCase typeName "User" || Text.contains action "member" then
      some (normalizeLinearIdentity v ctx fresh action)
    else none
  | .slack =>
    -- the challenge is answered at the HTTP layer and is an error here
    if v.getStr "type" = some "url_verification" then none
    else
      let event := (v.get "event").getD v
      let eventType := (event.getStr "type").getD "message"
      let team := ((v.getStr "team_id").or (event.getStr "team")).getD "unknown"
      if eventType = "member_joined_channel" ∨ eventType = "member_left_channel" ∨
          eventType = "team_join" ∨ eventType = "user_change" ∨
          eventType = "subteam_members_changed" then
        some (normalizeSlackIdentity event ctx fresh eventType team)
      else none
  | .teams =>
    let eventType := ((v.getStr "type").or (v.nestedStr ["eventType"])).getD "message"
    let activity := (v.getStr "type").getD eventType
    if Text.contains activity "conversationUpdate" || Text.contains activity "membersAdded" ||
        Text.contains activity "membersRemoved" then
      some (normalizeTeamsIdentity v ctx fresh activity)
    else none
  | .zendesk | .unspecified => none

end Providers

/-! ## The sender -/

/-- The provider's id of the user who sent the webhook; empty if the payload does not say. -/
def extractProviderUserId (provider : SourceProvider) (v : Json) : String :=
  match provider with
  | .github =>
    ((((v.get "sender").bind fun s => s.get "id").bind fun id =>
      (id.asI64.map toString).or id.asStr).or (v.nestedStr ["sender", "login"])).getD ""
  | .gitlab =>
    ((((v.nested ["user", "id"]).bind Json.asI64).map toString).or
      (((v.get "user_id").bind Json.asI64).map toString)).getD ""
  | .jira =>
    (((v.get "user").bind fun u => (u.get "accountId").or (u.get "key")).bind Json.asStr).getD ""
  | .slack => (v.nestedStr ["event", "user"]).getD ""
  | .linear =>
    (((v.nested ["data", "creator", "id"]).or (v.nested ["actor", "id"])).bind Json.asStr).getD ""
  | .teams => (v.nestedStr ["from", "id"]).getD ""
  | .zendesk => (((v.nested ["detail", "assignee_id"]).bind Json.asI64).map toString).getD ""
  | .unspecified => ""

def extractEmail (v : Json) : Option String :=
  (((v.nested ["sender", "email"]).or (v.nested ["user", "email"])).or
    (v.nested ["event", "user", "profile", "email"])).bind Json.asStr

def extractDisplayName (v : Json) : Option String :=
  ((((v.nested ["sender", "login"]).or (v.nested ["sender", "name"])).or
    (v.nested ["user", "name"])).or (v.nested ["from", "name"])).bind Json.asStr

def detectPrivate (provider : SourceProvider) (v : Json) : Bool :=
  match provider with
  | .github => ((v.nested ["repository", "private"]).bind Json.asBool).getD false
  | .gitlab => (((v.nested ["project", "visibility_level"]).bind Json.asI64).map fun l => decide (l = 0)).getD false
  | _ => false

/-! ## An identity webhook on its way in -/

/-- A delivery whose body is JSON. -/
structure Webhook where
  tenant : TenantConfig
  provider : SourceProvider
  eventName : Option String
  deliveryId : String
  rawUri : String
  body : Json

namespace Webhook

/-- The sender's global id, and the access store after it was looked up; the id is empty if the payload
names no sender. -/
def sender (w : Webhook) (acl : InMemoryAclStore) (uuid : String) : String × InMemoryAclStore :=
  let providerUserId := extractProviderUserId w.provider w.body
  if providerUserId = "" then ("", acl)
  else
    acl.ensureUser uuid w.tenant.tenantId providerUserId ((extractEmail w.body).getD "")
      ((extractDisplayName w.body).getD "")

/-- `normalize_and_enrich`, for what the normalizers take for an identity event. -/
def normalizeAndEnrich (w : Webhook) (acl : InMemoryAclStore) (uuid : String) (fresh : Fresh) :
    Option CanonicalEventRecord × InMemoryAclStore :=
  let (globalUserId, acl) := w.sender acl uuid
  let ctx : NormalizeContext := {
    tenantId := w.tenant.tenantId
    provider := w.provider
    deliveryId := some w.deliveryId
    eventName := w.eventName
    rawPayloadS3Uri := w.rawUri
    defaultGroupIds := w.tenant.defaultGroupIds
    actorGlobalUserId := globalUserId
    aclVersion := max (acl.currentAclVersion w.tenant.tenantId) 1
    allowedGroupIds := w.tenant.defaultGroupIds
    isPrivate := detectPrivate w.provider w.body }
  (normalizeIdentity w.body ctx fresh w.provider, acl)

end Webhook

/-! ## The actor of an identity event -/

section Actor
variable {v : Json} {ctx : NormalizeContext} {fresh : Fresh}

theorem globalUserId_baseEvent {actor : ActorIdentity}
    (h : actor.globalUserId = "" ∨ actor.globalUserId = ctx.actorGlobalUserId) (category : EventCategory)
    (eventType : String) (timestamp : DateTime) (resourceId parentResourceId : String)
    (attributes : Json) :
    (baseEvent ctx fresh category eventType timestamp actor resourceId parentResourceId
      attributes).actor.globalUserId = ctx.actorGlobalUserId := by
  show (if actor.globalUserId = "" then ctx.actorGlobalUserId else actor.globalUserId) = _
  split_ifs with hempty
  · rfl
  · exact h.resolve_left hempty

theorem globalUserId_actorAt (field : String) :
    (actorAt v ctx field).globalUserId = "" ∨
      (actorAt v ctx field).globalUserId = ctx.actorGlobalUserId := by
  unfold actorAt
  cases v.get field with
  | none => exact .inl rfl
  | some user => exact .inr rfl

/-- Whatever the payload says, the actor of an identity event is the sender. -/
theorem normalizeIdentity_actor {provider : SourceProvider} {event : CanonicalEventRecord}
    (h : normalizeIdentity v ctx fresh provider = some event) :
    event.actor.globalUserId = ctx.actorGlobalUserId ∧ event.category = .identity := by
  cases provider with
  | github =>
    simp only [normalizeIdentity] at h
    split at h
    · cases h
      exact ⟨globalUserId_baseEvent (globalUserId_actorAt _) _ _ _ _ _ _, rfl⟩
    · cases h
  | gitlab =>
    simp only [normalizeIdentity] at h
    split at h
    · cases h
      exact ⟨globalUserId_baseEvent (globalUserId_actorAt _) _ _ _ _ _ _, rfl⟩
    · cases h
  | jira =>
    simp only [normalizeIdentity] at h
    split at h
    · cases h
      exact ⟨globalUserId_baseEvent (globalUserId_actorAt _) _ _ _ _ _ _, rfl⟩
    · cases h
  | linear =>
    simp only [normalizeIdentity] at h
    split at h
    · cases h
      exact ⟨globalUserId_baseEvent (.inr rfl) _ _ _ _ _ _, rfl⟩
    · cases h
  | slack =>
    simp only [normalizeIdentity] at h
    split at h
    · cases h
    · split at h
      · cases h
        exact ⟨globalUserId_baseEvent (.inr rfl) _ _ _ _ _ _, rfl⟩
      · cases h
  | teams =>
    simp only [normalizeIdentity] at h
    split at h
    · cases h
      exact ⟨globalUserId_baseEvent (.inl rfl) _ _ _ _ _ _, rfl⟩
    · cases h
  | zendesk => cases h
  | unspecified => cases h

end Actor

namespace Webhook
variable {w : Webhook} {acl : InMemoryAclStore} {uuid : String} {fresh : Fresh}
  {event : CanonicalEventRecord}

theorem normalizeAndEnrich_actor (h : (w.normalizeAndEnrich acl uuid fresh).1 = some event) :
    event.actor.globalUserId = (w.sender acl uuid).1 ∧ event.category = .identity :=
  normalizeIdentity_actor h

end Webhook

end AiManager.Telemetry
