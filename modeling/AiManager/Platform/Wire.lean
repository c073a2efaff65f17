import AiManager.Graph.Project
import AiManager.Telemetry.Model

/-! # From the ingestion to the graph

Records of the ingestion's topics as the graph reads them. Providers and categories are written as their
names in lower case. -/

namespace AiManager.Platform

open Telemetry AiManager.Graph

def wireActor (actor : ActorIdentity) : V1Actor where
  globalUserId := actor.globalUserId
  providerUserId := actor.providerUserId
  email := actor.email
  displayName := actor.displayName

def wireAcl (acl : AclSnapshot) : V1Acl where
  tenantId := acl.tenantId
  allowedGroupIds := acl.allowedGroupIds
  isPrivate := acl.isPrivate
  aclVersion := acl.aclVersion

def wireEvent (event : CanonicalEventRecord) : V1CanonicalEvent where
  eventId := event.eventId
  tenantId := event.tenantId
  provider := event.provider.asStrNameLower
  category := event.category.asStrNameLower
  eventType := event.eventType
  eventTimestamp := event.eventTimestamp
  ingestedAt := event.ingestedAt
  actor := wireActor event.actor
  acl := wireAcl event.acl
  resourceId := event.resourceId
  parentResourceId := event.parentResourceId
  attributes := event.attributes
  rawPayloadS3Uri := event.rawPayloadS3Uri
  eventSequenceNumber := event.eventSequenceNumber

def wireRevocation (rev : AclRevocationRecord) : V1AclRevocation where
  eventId := rev.eventId
  tenantId := rev.tenantId
  globalUserId := rev.globalUserId
  providerUserId := rev.providerUserId
  provider := rev.provider.asStrNameLower
  groupId := rev.groupId
  changeType := rev.changeType
  aclVersion := rev.aclVersion
  timestamp := rev.timestamp

/-- An identity event of the ingestion always goes through the membership side channel. -/
theorem isMembershipEvent_wireEvent {event : CanonicalEventRecord} (h : event.category = .identity) :
    isMembershipEvent (wireEvent event) = true := by
  have hcategory : (wireEvent event).category = "identity" := by
    show event.category.asStrNameLower = "identity"
    rw [h]
    rfl
  simp [isMembershipEvent, hcategory, Lib.Text.eqIgnoreAsciiCase]

end AiManager.Platform
