import AiManager.Lib.Percent
import AiManager.Lib.Serde
import AiManager.Platform.Wire

/-! # The messages of the bus as JSON

The ingestion writes its messages as JSON, and reads them back when it polls the broker; the projector has types of
its own for them. Both read what was written (`bus_round_trip`), in the envelope of the bus or bare. The text of a
value is left open: what is asked of it is that the value is read from it again, which a value may fail that is nested
too deeply or holds a number that its text does not keep. -/

namespace AiManager.Telemetry

open Lib Lib.Json

/-! ## What the ingestion writes -/

def SourceProvider.toJson (p : SourceProvider) : Json := .str p.asStrNameLower

def EventCategory.toJson (c : EventCategory) : Json := .str c.asStrNameLower

def ActorIdentity.fields (a : ActorIdentity) : List (String × Json) :=
  [("global_user_id", .str a.globalUserId), ("provider_user_id", .str a.providerUserId), ("email", .str a.email),
    ("display_name", .str a.displayName)]

def AclSnapshot.fields (a : AclSnapshot) : List (String × Json) :=
  [("tenant_id", .str a.tenantId), ("allowed_group_ids", .ofStrings a.allowedGroupIds),
    ("is_private", .bool a.isPrivate), ("acl_version", .ofNat a.aclVersion)]

def CanonicalEventRecord.fields (e : CanonicalEventRecord) : List (String × Json) :=
  [("event_id", .str e.eventId), ("tenant_id", .str e.tenantId), ("provider", e.provider.toJson),
    ("category", e.category.toJson), ("event_type", .str e.eventType), ("event_timestamp", .ofTime e.eventTimestamp),
    ("ingested_at", .ofTime e.ingestedAt), ("actor", .obj e.actor.fields), ("acl", .obj e.acl.fields),
    ("resource_id", .str e.resourceId), ("parent_resource_id", .str e.parentResourceId), ("attributes", e.attributes),
    ("raw_payload_s3_uri", .str e.rawPayloadS3Uri), ("event_sequence_number", .ofNat e.eventSequenceNumber)]

def AclRevocationRecord.fields (r : AclRevocationRecord) : List (String × Json) :=
  [("event_id", .str r.eventId), ("tenant_id", .str r.tenantId), ("global_user_id", .str r.globalUserId),
    ("provider_user_id", .str r.providerUserId), ("provider", r.provider.toJson), ("group_id", .str r.groupId),
    ("change_type", .str r.changeType), ("acl_version", .ofNat r.aclVersion), ("timestamp", .ofTime r.timestamp)]

/-- The variant is a field among those of the record. -/
def BusPayload.fields : BusPayload → List (String × Json)
  | .event e => ("kind", .str "event") :: e.fields
  | .acl r => ("kind", .str "acl") :: r.fields

/-- The record without its variant. -/
def BusPayload.bare : BusPayload → Json
  | .event e => .obj e.fields
  | .acl r => .obj r.fields

def BusTopic.toJson : BusTopic → Json
  | .eventsRaw => .str "EventsRaw"
  | .eventsRealtime => .str "EventsRealtime"
  | .eventsBackfill => .str "EventsBackfill"
  | .eventsAcl => .str "EventsAcl"

def BusMessage.fields (m : BusMessage) : List (String × Json) :=
  [("topic", m.topic.toJson), ("partition_key", .str m.partitionKey), ("payload", .obj m.payload.fields)]

def BusMessage.toJson (m : BusMessage) : Json := .obj m.fields

def BusMessage.toVec (text : JsonBytes) (m : BusMessage) : List UInt8 := text.toVec m.toJson

/-! ## What the ingestion reads -/

def SourceProvider.ofJson (j : Json) : Option SourceProvider :=
  j.asStr.bind fun s =>
    match s with
    | "unspecified" => some .unspecified
    | "github" => some .github
    | "gitlab" => some .gitlab
    | "jira" => some .jira
    | "linear" => some .linear
    | "slack" => some .slack
    | "teams" => some .teams
    | "zendesk" => some .zendesk
    | _ => none

def EventCategory.ofJson (j : Json) : Option EventCategory :=
  j.asStr.bind fun s =>
    match s with
    | "unspecified" => some .unspecified
    | "code" => some .code
    | "work_item" => some .workItem
    | "communication" => some .communication
    | "identity" => some .identity
    | _ => none

def ActorIdentity.ofJson (j : Json) : Option ActorIdentity := do
  let globalUserId ← j.required asStr "global_user_id"
  let providerUserId ← j.required asStr "provider_user_id"
  let email ← j.required asStr "email"
  let displayName ← j.required asStr "display_name"
  return { globalUserId, providerUserId, email, displayName }

def AclSnapshot.ofJson (j : Json) : Option AclSnapshot := do
  let tenantId ← j.required asStr "tenant_id"
  let allowedGroupIds ← j.required readStrings "allowed_group_ids"
  let isPrivate ← j.required asBool "is_private"
  let aclVersion ← j.required readU64 "acl_version"
  return { tenantId, allowedGroupIds, isPrivate, aclVersion }

def CanonicalEventRecord.ofJson (j : Json) : Option CanonicalEventRecord := do
  let eventId ← j.required asStr "event_id"
  let tenantId ← j.required asStr "tenant_id"
  let provider ← j.required SourceProvider.ofJson "provider"
  let category ← j.required EventCategory.ofJson "category"
  let eventType ← j.required asStr "event_type"
  let eventTimestamp ← j.required readTime "event_timestamp"
  let ingestedAt ← j.required readTime "ingested_at"
  let actor ← j.required ActorIdentity.ofJson "actor"
  let acl ← j.required AclSnapshot.ofJson "acl"
  let resourceId ← j.required asStr "resource_id"
  let parentResourceId ← j.required asStr "parent_resource_id"
  let attributes ← j.required some "attributes"
  let rawPayloadS3Uri ← j.required asStr "raw_payload_s3_uri"
  let eventSequenceNumber ← j.required readU64 "event_sequence_number"
  return { eventId, tenantId, provider, category, eventType, eventTimestamp, ingestedAt, actor, acl, resourceId,
           parentResourceId, attributes, rawPayloadS3Uri, eventSequenceNumber }

def AclRevocationRecord.ofJson (j : Json) : Option AclRevocationRecord := do
  let eventId ← j.required asStr "event_id"
  let tenantId ← j.required asStr "tenant_id"
  let globalUserId ← j.required asStr "global_user_id"
  let providerUserId ← j.required asStr "provider_user_id"
  let provider ← j.required SourceProvider.ofJson "provider"
  let groupId ← j.required asStr "group_id"
  let changeType ← j.required asStr "change_type"
  let aclVersion ← j.required readU64 "acl_version"
  let timestamp ← j.required readTime "timestamp"
  return { eventId, tenantId, globalUserId, providerUserId, provider, groupId, changeType, aclVersion, timestamp }

def BusPayload.ofJson (j : Json) : Option BusPayload :=
  (j.required asStr "kind").bind fun kind =>
    if kind = "event" then (CanonicalEventRecord.ofJson j).map .event
    else if kind = "acl" then (AclRevocationRecord.ofJson j).map .acl
    else none

def BusTopic.ofJson (j : Json) : Option BusTopic :=
  j.asStr.bind fun s =>
    match s with
    | "EventsRaw" => some .eventsRaw
    | "EventsRealtime" => some .eventsRealtime
    | "EventsBackfill" => some .eventsBackfill
    | "EventsAcl" => some .eventsAcl
    | _ => none

def BusMessage.ofJson (j : Json) : Option BusMessage := do
  let topic ← j.required BusTopic.ofJson "topic"
  let partitionKey ← j.required asStr "partition_key"
  let payload ← j.required BusPayload.ofJson "payload"
  return { topic, partitionKey, payload }

def BusMessage.fromSlice (text : JsonBytes) (value : List UInt8) : Option BusMessage :=
  (text.fromSlice value).bind ofJson

end AiManager.Telemetry

namespace AiManager.Graph

open Lib Lib.Json

/-! ## What the projector reads -/

def V1Actor.ofJson (j : Json) : Option V1Actor := do
  let globalUserId ← j.orDefault asStr "" "global_user_id"
  let providerUserId ← j.orDefault asStr "" "provider_user_id"
  let email ← j.orDefault asStr "" "email"
  let displayName ← j.orDefault asStr "" "display_name"
  return { globalUserId, providerUserId, email, displayName }

def V1Acl.ofJson (j : Json) : Option V1Acl := do
  let tenantId ← j.orDefault asStr "" "tenant_id"
  let allowedGroupIds ← j.orDefault readStrings [] "allowed_group_ids"
  let isPrivate ← j.orDefault asBool false "is_private"
  let aclVersion ← j.orDefault readU64 0 "acl_version"
  return { tenantId, allowedGroupIds, isPrivate, aclVersion }

def V1CanonicalEvent.ofJson (now : DateTime) (j : Json) : Option V1CanonicalEvent := do
  let eventId ← j.required asStr "event_id"
  let tenantId ← j.required asStr "tenant_id"
  let provider ← j.orDefault asStr "" "provider"
  let category ← j.orDefault asStr "" "category"
  let eventType ← j.required asStr "event_type"
  let eventTimestamp ← j.required readTime "event_timestamp"
  let ingestedAt ← j.orDefault readTime now "ingested_at"
  let actor ← j.orDefault V1Actor.ofJson {} "actor"
  let acl ← j.orDefault V1Acl.ofJson {} "acl"
  let resourceId ← j.orDefault asStr "" "resource_id"
  let parentResourceId ← j.orDefault asStr "" "parent_resource_id"
  let attributes ← j.orDefault some .null "attributes"
  let rawPayloadS3Uri ← j.orDefault asStr "" "raw_payload_s3_uri"
  let eventSequenceNumber ← j.orDefault readU64 0 "event_sequence_number"
  return { eventId, tenantId, provider, category, eventType, eventTimestamp, ingestedAt, actor, acl, resourceId,
           parentResourceId, attributes, rawPayloadS3Uri, eventSequenceNumber }

def V1AclRevocation.ofJson (j : Json) : Option V1AclRevocation := do
  let eventId ← j.required asStr "event_id"
  let tenantId ← j.required asStr "tenant_id"
  let globalUserId ← j.orDefault asStr "" "global_user_id"
  let providerUserId ← j.orDefault asStr "" "provider_user_id"
  let provider ← j.orDefault asStr "" "provider"
  let groupId ← j.required asStr "group_id"
  let changeType ← j.required asStr "change_type"
  let aclVersion ← j.orDefault readU64 0 "acl_version"
  let timestamp ← j.required readTime "timestamp"
  return { eventId, tenantId, globalUserId, providerUserId, provider, groupId, changeType, aclVersion, timestamp }

def V1BusPayload.ofJson (now : DateTime) (j : Json) : Option V1BusPayload :=
  (j.required asStr "kind").bind fun kind =>
    if kind = "event" then (V1CanonicalEvent.ofJson now j).map .event
    else if kind = "acl" then (V1AclRevocation.ofJson j).map .acl
    else none

structure V1BusMessage where
  topic : String
  partitionKey : String := ""
  payload : V1BusPayload

def V1BusMessage.ofJson (now : DateTime) (j : Json) : Option V1BusMessage := do
  let topic ← j.required asStr "topic"
  let partitionKey ← j.orDefault asStr "" "partition_key"
  let payload ← j.required (V1BusPayload.ofJson now) "payload"
  return { topic, partitionKey, payload }

/-- The envelope is preferred; a bare event or revocation is accepted, too. -/
def readPayload (text : JsonBytes) (now : DateTime) (value : List UInt8) : Option V1BusPayload :=
  (((text.fromSlice value).bind (V1BusMessage.ofJson now)).map V1BusMessage.payload).or
    ((((text.fromSlice value).bind (V1CanonicalEvent.ofJson now)).map .event).or
      (((text.fromSlice value).bind V1AclRevocation.ofJson).map .acl))

end AiManager.Graph

/-! ## What was written is read -/

namespace AiManager.Telemetry

open Lib Lib.Json

/-- Times have years of four digits, and numbers have 64 bits. -/
structure CanonicalEventRecord.Writable (e : CanonicalEventRecord) : Prop where
  eventTimestamp : e.eventTimestamp.UtcYear
  ingestedAt : e.ingestedAt.UtcYear
  aclVersion : e.acl.aclVersion < 2 ^ 64
  eventSequenceNumber : e.eventSequenceNumber < 2 ^ 64

structure AclRevocationRecord.Writable (r : AclRevocationRecord) : Prop where
  timestamp : r.timestamp.UtcYear
  aclVersion : r.aclVersion < 2 ^ 64

def BusPayload.Writable : BusPayload → Prop
  | .event e => e.Writable
  | .acl r => r.Writable

theorem SourceProvider.ofJson_toJson (p : SourceProvider) : ofJson p.toJson = some p := by
  cases p <;> rfl

theorem EventCategory.ofJson_toJson (c : EventCategory) : ofJson c.toJson = some c := by
  cases c <;> rfl

theorem BusTopic.ofJson_toJson (t : BusTopic) : ofJson t.toJson = some t := by
  cases t <;> rfl

/-! ### No field twice -/

theorem ActorIdentity.distinct_fields (a : ActorIdentity) : Distinct a.fields :=
  .of_names ["global_user_id", "provider_user_id", "email", "display_name"] rfl (by decide)

theorem AclSnapshot.distinct_fields (a : AclSnapshot) : Distinct a.fields :=
  .of_names ["tenant_id", "allowed_group_ids", "is_private", "acl_version"] rfl (by decide)

theorem BusPayload.distinct_fields (p : BusPayload) : Distinct p.fields := by
  cases p with
  | event e =>
    exact .of_names ["kind", "event_id", "tenant_id", "provider", "category", "event_type", "event_timestamp",
      "ingested_at", "actor", "acl", "resource_id", "parent_resource_id", "attributes", "raw_payload_s3_uri",
      "event_sequence_number"] rfl (by decide)
  | acl r =>
    exact .of_names ["kind", "event_id", "tenant_id", "global_user_id", "provider_user_id", "provider", "group_id",
      "change_type", "acl_version", "timestamp"] rfl (by decide)

theorem CanonicalEventRecord.distinct_fields (e : CanonicalEventRecord) : Distinct e.fields :=
  (List.nodup_cons.mp (BusPayload.event e).distinct_fields).2

theorem AclRevocationRecord.distinct_fields (r : AclRevocationRecord) : Distinct r.fields :=
  (List.nodup_cons.mp (BusPayload.acl r).distinct_fields).2

theorem BusMessage.distinct_fields (m : BusMessage) : Distinct m.fields :=
  .of_names ["topic", "partition_key", "payload"] rfl (by decide)

/-! ### By the ingestion -/

section Records
variable {fields : List (String × Json)} (hdistinct : Distinct fields)
include hdistinct

theorem ActorIdentity.ofJson_fields (a : ActorIdentity) (hfields : a.fields ⊆ fields) : ofJson (.obj fields) = some a := by
  unfold ofJson
  rw [required_at asStr hdistinct hfields 0 rfl, required_at asStr hdistinct hfields 1 rfl,
    required_at asStr hdistinct hfields 2 rfl, required_at asStr hdistinct hfields 3 rfl]
  rfl

theorem AclSnapshot.ofJson_fields (a : AclSnapshot) (h : a.aclVersion < 2 ^ 64) (hfields : a.fields ⊆ fields) :
    ofJson (.obj fields) = some a := by
  unfold ofJson
  rw [required_at asStr hdistinct hfields 0 rfl, required_at readStrings hdistinct hfields 1 rfl,
    required_at asBool hdistinct hfields 2 rfl, required_at readU64 hdistinct hfields 3 rfl, readStrings_ofStrings,
    readU64_ofNat h]
  rfl

theorem CanonicalEventRecord.ofJson_fields (e : CanonicalEventRecord) (h : e.Writable) (hfields : e.fields ⊆ fields) :
    ofJson (.obj fields) = some e := by
  have hactor : ActorIdentity.ofJson (.obj e.actor.fields) = some e.actor :=
    ActorIdentity.ofJson_fields e.actor.distinct_fields e.actor (List.Subset.refl _)
  have hacl : AclSnapshot.ofJson (.obj e.acl.fields) = some e.acl :=
    AclSnapshot.ofJson_fields e.acl.distinct_fields e.acl h.aclVersion (List.Subset.refl _)
  unfold ofJson
  rw [required_at asStr hdistinct hfields 0 rfl, required_at asStr hdistinct hfields 1 rfl,
    required_at SourceProvider.ofJson hdistinct hfields 2 rfl, required_at EventCategory.ofJson hdistinct hfields 3 rfl,
    required_at asStr hdistinct hfields 4 rfl, required_at readTime hdistinct hfields 5 rfl,
    required_at readTime hdistinct hfields 6 rfl, required_at ActorIdentity.ofJson hdistinct hfields 7 rfl,
    required_at AclSnapshot.ofJson hdistinct hfields 8 rfl, required_at asStr hdistinct hfields 9 rfl,
    required_at asStr hdistinct hfields 10 rfl, required_at some hdistinct hfields 11 rfl,
    required_at asStr hdistinct hfields 12 rfl, required_at readU64 hdistinct hfields 13 rfl,
    SourceProvider.ofJson_toJson, EventCategory.ofJson_toJson, readTime_ofTime h.eventTimestamp,
    readTime_ofTime h.ingestedAt, hactor, hacl, readU64_ofNat h.eventSequenceNumber]
  rfl

theorem AclRevocationRecord.ofJson_fields (r : AclRevocationRecord) (h : r.Writable) (hfields : r.fields ⊆ fields) :
    ofJson (.obj fields) = some r := by
  unfold ofJson
  rw [required_at asStr hdistinct hfields 0 rfl, required_at asStr hdistinct hfields 1 rfl,
    required_at asStr hdistinct hfields 2 rfl, required_at asStr hdistinct hfields 3 rfl,
    required_at SourceProvider.ofJson hdistinct hfields 4 rfl, required_at asStr hdistinct hfields 5 rfl,
    required_at asStr hdistinct hfields 6 rfl, required_at readU64 hdistinct hfields 7 rfl,
    required_at readTime hdistinct hfields 8 rfl, SourceProvider.ofJson_toJson, readU64_ofNat h.aclVersion,
    readTime_ofTime h.timestamp]
  rfl

end Records

theorem BusPayload.kind_event (e : CanonicalEventRecord) :
    (Json.obj (BusPayload.event e).fields).required asStr "kind" = some "event" := by
  rw [required_at asStr (BusPayload.event e).distinct_fields (List.Subset.refl _) 0 rfl]
  rfl

theorem BusPayload.kind_acl (r : AclRevocationRecord) :
    (Json.obj (BusPayload.acl r).fields).required asStr "kind" = some "acl" := by
  rw [required_at asStr (BusPayload.acl r).distinct_fields (List.Subset.refl _) 0 rfl]
  rfl

theorem BusPayload.ofJson_fields (p : BusPayload) (h : p.Writable) : ofJson (.obj p.fields) = some p := by
  have hdistinct := p.distinct_fields
  unfold ofJson
  cases p with
  | event e =>
    rw [kind_event, Option.bind_some, if_pos rfl,
      CanonicalEventRecord.ofJson_fields hdistinct e h (List.subset_cons_self _ _), Option.map_some]
  | acl r =>
    rw [kind_acl, Option.bind_some, if_neg (by decide), if_pos rfl,
      AclRevocationRecord.ofJson_fields hdistinct r h (List.subset_cons_self _ _), Option.map_some]

theorem BusMessage.ofJson_toJson (m : BusMessage) (h : m.payload.Writable) : ofJson m.toJson = some m := by
  have hdistinct := m.distinct_fields
  unfold ofJson toJson
  rw [required_at BusTopic.ofJson hdistinct (List.Subset.refl _) 0 rfl,
    required_at asStr hdistinct (List.Subset.refl _) 1 rfl,
    required_at BusPayload.ofJson hdistinct (List.Subset.refl _) 2 rfl, BusTopic.ofJson_toJson,
    BusPayload.ofJson_fields m.payload h]
  rfl

end AiManager.Telemetry

namespace AiManager.Platform

open Lib Lib.Json Telemetry AiManager.Graph

/-! ### By the projector -/

def wirePayload : BusPayload → V1BusPayload
  | .event e => .event (wireEvent e)
  | .acl r => .acl (wireRevocation r)

theorem asStr_provider (p : SourceProvider) : p.toJson.asStr = some p.asStrNameLower := rfl

theorem asStr_category (c : EventCategory) : c.toJson.asStr = some c.asStrNameLower := rfl

section Records
variable {fields : List (String × Json)} (hdistinct : Distinct fields)
include hdistinct

theorem actor_ofJson_fields (a : ActorIdentity) (hfields : a.fields ⊆ fields) :
    V1Actor.ofJson (.obj fields) = some (wireActor a) := by
  unfold V1Actor.ofJson
  rw [orDefault_at asStr "" hdistinct hfields 0 rfl, orDefault_at asStr "" hdistinct hfields 1 rfl,
    orDefault_at asStr "" hdistinct hfields 2 rfl, orDefault_at asStr "" hdistinct hfields 3 rfl]
  rfl

theorem acl_ofJson_fields (a : AclSnapshot) (h : a.aclVersion < 2 ^ 64) (hfields : a.fields ⊆ fields) :
    V1Acl.ofJson (.obj fields) = some (wireAcl a) := by
  unfold V1Acl.ofJson
  rw [orDefault_at asStr "" hdistinct hfields 0 rfl, orDefault_at readStrings [] hdistinct hfields 1 rfl,
    orDefault_at asBool false hdistinct hfields 2 rfl, orDefault_at readU64 0 hdistinct hfields 3 rfl,
    readStrings_ofStrings, readU64_ofNat h]
  rfl

theorem event_ofJson_fields (now : DateTime) (e : CanonicalEventRecord) (h : e.Writable) (hfields : e.fields ⊆ fields) :
    V1CanonicalEvent.ofJson now (.obj fields) = some (wireEvent e) := by
  have hactor : V1Actor.ofJson (.obj e.actor.fields) = some (wireActor e.actor) :=
    actor_ofJson_fields e.actor.distinct_fields e.actor (List.Subset.refl _)
  have hacl : V1Acl.ofJson (.obj e.acl.fields) = some (wireAcl e.acl) :=
    acl_ofJson_fields e.acl.distinct_fields e.acl h.aclVersion (List.Subset.refl _)
  unfold V1CanonicalEvent.ofJson
  rw [required_at asStr hdistinct hfields 0 rfl, required_at asStr hdistinct hfields 1 rfl,
    orDefault_at asStr "" hdistinct hfields 2 rfl, orDefault_at asStr "" hdistinct hfields 3 rfl,
    required_at asStr hdistinct hfields 4 rfl, required_at readTime hdistinct hfields 5 rfl,
    orDefault_at readTime now hdistinct hfields 6 rfl, orDefault_at V1Actor.ofJson {} hdistinct hfields 7 rfl,
    orDefault_at V1Acl.ofJson {} hdistinct hfields 8 rfl, orDefault_at asStr "" hdistinct hfields 9 rfl,
    orDefault_at asStr "" hdistinct hfields 10 rfl, orDefault_at some .null hdistinct hfields 11 rfl,
    orDefault_at asStr "" hdistinct hfields 12 rfl, orDefault_at readU64 0 hdistinct hfields 13 rfl,
    asStr_provider, asStr_category, readTime_ofTime h.eventTimestamp, readTime_ofTime h.ingestedAt, hactor, hacl,
    readU64_ofNat h.eventSequenceNumber]
  rfl

theorem revocation_ofJson_fields (r : AclRevocationRecord) (h : r.Writable) (hfields : r.fields ⊆ fields) :
    V1AclRevocation.ofJson (.obj fields) = some (wireRevocation r) := by
  unfold V1AclRevocation.ofJson
  rw [required_at asStr hdistinct hfields 0 rfl, required_at asStr hdistinct hfields 1 rfl,
    orDefault_at asStr "" hdistinct hfields 2 rfl, orDefault_at asStr "" hdistinct hfields 3 rfl,
    orDefault_at asStr "" hdistinct hfields 4 rfl, required_at asStr hdistinct hfields 5 rfl,
    required_at asStr hdistinct hfields 6 rfl, orDefault_at readU64 0 hdistinct hfields 7 rfl,
    required_at readTime hdistinct hfields 8 rfl, asStr_provider, readU64_ofNat h.aclVersion,
    readTime_ofTime h.timestamp]
  rfl

end Records

variable (now : DateTime)

theorem payload_ofJson_fields (p : BusPayload) (h : p.Writable) :
    V1BusPayload.ofJson now (.obj p.fields) = some (wirePayload p) := by
  have hdistinct := p.distinct_fields
  unfold V1BusPayload.ofJson
  cases p with
  | event e =>
    rw [BusPayload.kind_event, Option.bind_some, if_pos rfl,
      event_ofJson_fields hdistinct now e h (List.subset_cons_self _ _), Option.map_some]
    rfl
  | acl r =>
    rw [BusPayload.kind_acl, Option.bind_some, if_neg (by decide), if_pos rfl,
      revocation_ofJson_fields hdistinct r h (List.subset_cons_self _ _), Option.map_some]
    rfl

theorem message_ofJson_toJson (m : BusMessage) (h : m.payload.Writable) :
    (V1BusMessage.ofJson now m.toJson).map V1BusMessage.payload = some (wirePayload m.payload) := by
  have hdistinct := m.distinct_fields
  have htopic : ∃ s, m.topic.toJson.asStr = some s := by
    cases m.topic <;> exact ⟨_, rfl⟩
  obtain ⟨topic, htopic⟩ := htopic
  unfold V1BusMessage.ofJson BusMessage.toJson
  rw [required_at asStr hdistinct (List.Subset.refl _) 0 rfl, orDefault_at asStr "" hdistinct (List.Subset.refl _) 1 rfl,
    required_at (V1BusPayload.ofJson now) hdistinct (List.Subset.refl _) 2 rfl, htopic,
    payload_ofJson_fields now m.payload h]
  rfl

/-- A record without an envelope is none. -/
theorem message_ofJson_bare (p : BusPayload) : V1BusMessage.ofJson now p.bare = none := by
  have htopic : p.bare.required asStr "topic" = none := by
    cases p with
    | event e => exact required_of_notMem asStr (show "topic" ∉ (["event_id", "tenant_id", "provider", "category",
        "event_type", "event_timestamp", "ingested_at", "actor", "acl", "resource_id", "parent_resource_id", "attributes",
        "raw_payload_s3_uri", "event_sequence_number"] : List String) by decide)
    | acl r => exact required_of_notMem asStr (show "topic" ∉ (["event_id", "tenant_id", "global_user_id",
        "provider_user_id", "provider", "group_id", "change_type", "acl_version", "timestamp"] : List String) by decide)
  unfold V1BusMessage.ofJson
  rw [htopic]
  rfl

/-- A revocation is no event. -/
theorem event_ofJson_revocation (r : AclRevocationRecord) : V1CanonicalEvent.ofJson now (.obj r.fields) = none := by
  have htype : (Json.obj r.fields).required asStr "event_type" = none :=
    required_of_notMem asStr (show "event_type" ∉ (["event_id", "tenant_id", "global_user_id", "provider_user_id",
      "provider", "group_id", "change_type", "acl_version", "timestamp"] : List String) by decide)
  have hdistinct := r.distinct_fields
  unfold V1CanonicalEvent.ofJson
  rw [required_at asStr hdistinct (List.Subset.refl _) 0 rfl, required_at asStr hdistinct (List.Subset.refl _) 1 rfl,
    orDefault_at asStr "" hdistinct (List.Subset.refl _) 4 rfl, htype]
  cases (Json.obj r.fields).orDefault asStr "" "category" <;> rfl

section Text
variable {text : JsonBytes}

theorem fromSlice_toVec {m : BusMessage} (h : m.payload.Writable) (htext : text.Keeps m.toJson) :
    BusMessage.fromSlice text (m.toVec text) = some m := by
  unfold BusMessage.fromSlice BusMessage.toVec
  rw [htext, Option.bind_some, BusMessage.ofJson_toJson m h]

theorem readPayload_toVec {m : BusMessage} (h : m.payload.Writable) (htext : text.Keeps m.toJson) :
    readPayload text now (m.toVec text) = some (wirePayload m.payload) := by
  unfold readPayload BusMessage.toVec
  rw [htext, Option.bind_some, message_ofJson_toJson now m h]
  rfl

theorem readPayload_bare {p : BusPayload} (h : p.Writable) (htext : text.Keeps p.bare) :
    readPayload text now (text.toVec p.bare) = some (wirePayload p) := by
  unfold readPayload
  rw [htext, Option.bind_some, Option.bind_some, Option.bind_some, message_ofJson_bare]
  cases p with
  | event e =>
    have hread := event_ofJson_fields e.distinct_fields now e h (List.Subset.refl _)
    unfold BusPayload.bare
    rw [hread]
    rfl
  | acl r =>
    have hread := revocation_ofJson_fields r.distinct_fields r h (List.Subset.refl _)
    unfold BusPayload.bare
    rw [event_ofJson_revocation, hread]
    rfl

end Text

/-- **The bus.** A message of the ingestion whose text keeps it is read by the ingestion as it was, and by the projector
as the record that it carries, with or without its envelope. -/
theorem bus_round_trip (text : JsonBytes) (m : BusMessage) (h : m.payload.Writable) :
    (text.Keeps m.toJson → BusMessage.fromSlice text (m.toVec text) = some m ∧
      readPayload text now (m.toVec text) = some (wirePayload m.payload)) ∧
    (text.Keeps m.payload.bare → readPayload text now (text.toVec m.payload.bare) = some (wirePayload m.payload)) :=
  ⟨fun htext => ⟨fromSlice_toVec h htext, readPayload_toVec now h htext⟩, readPayload_bare now h⟩

/-! ### A pull request that is opened -/

mutual
/-- The text of a value without fractions, and without characters to escape. -/
def plainText : Json → String
  | .null => "null"
  | .bool b => if b then "true" else "false"
  | .num mantissa _ => toString mantissa
  | .str s => "\"" ++ s ++ "\""
  | .arr items => "[" ++ Text.join "," (plainTexts items) ++ "]"
  | .obj fields => "\x7b" ++ Text.join "," (plainFields fields) ++ "\x7d"

def plainTexts : List Json → List String
  | [] => []
  | j :: js => plainText j :: plainTexts js

def plainFields : List (String × Json) → List String
  | [] => []
  | (name, j) :: fields => ("\"" ++ name ++ "\":" ++ plainText j) :: plainFields fields
end

/-- Of all texts, those of these values are read. -/
def textOf (values : List Json) : JsonBytes where
  toVec j := Utf8.bytes (plainText j).toList
  fromSlice value := values.find? fun j => value = Utf8.bytes (plainText j).toList

theorem textOf_keeps (j : Json) (js : List Json) : (textOf (j :: js)).Keeps j := by
  show (j :: js).find? (fun k => Utf8.bytes (plainText j).toList = Utf8.bytes (plainText k).toList) = some j
  exact List.find?_cons_of_pos (decide_eq_true rfl)

theorem textOf_keeps_second {i j : Json} (js : List Json) (h : plainText j ≠ plainText i) :
    (textOf (i :: j :: js)).Keeps j := by
  have hbytes : Utf8.bytes (plainText j).toList ≠ Utf8.bytes (plainText i).toList := by
    intro heq
    have htext := congrArg Utf8.text heq
    rw [Utf8.text_bytes, Utf8.text_bytes] at htext
    exact h (Option.some.inj htext)
  show (i :: j :: js).find? (fun k => Utf8.bytes (plainText j).toList = Utf8.bytes (plainText k).toList) = some j
  rw [List.find?_cons_of_neg]
  · exact List.find?_cons_of_pos (decide_eq_true rfl)
  · exact fun hfound => hbytes (of_decide_eq_true hfound)

def openedMessage : BusMessage where
  topic := .eventsRaw
  partitionKey := "ten_1"
  payload := .event { (default : CanonicalEventRecord) with
    eventId := "e1", tenantId := "ten_1", provider := .github, category := .code, eventType := "pull_request.opened",
    eventTimestamp := 1784160000123000000, actor := { globalUserId := "gu_1" }, acl := { aclVersion := 3 },
    resourceId := "acme/app/pr/1" }

/-- In the envelope, and bare. -/
def openedText : JsonBytes := textOf [openedMessage.toJson, openedMessage.payload.bare]

theorem openedMessage_round_trip :
    (BusMessage.fromSlice openedText (openedMessage.toVec openedText) = some openedMessage ∧
      readPayload openedText 0 (openedMessage.toVec openedText) = some (wirePayload openedMessage.payload)) ∧
    readPayload openedText 0 (openedText.toVec openedMessage.payload.bare) = some (wirePayload openedMessage.payload) := by
  obtain ⟨henvelope, hbare⟩ := bus_round_trip 0 openedText openedMessage ⟨by decide, by decide, by decide, by decide⟩
  exact ⟨henvelope (textOf_keeps _ _), hbare (textOf_keeps_second [] (by decide +kernel))⟩

end AiManager.Platform
