import AiManager.Lib.DateTime
import AiManager.Lib.Json

/-! # Telemetry data model

The normalized event, the access revocation derived from it, the messages on the bus and the errors
of the ingestion core. -/

namespace AiManager.Telemetry

open Lib

inductive SourceProvider where
  | unspecified
  | github
  | gitlab
  | jira
  | linear
  | slack
  | teams
  | zendesk
  deriving DecidableEq, Repr, Inhabited

namespace SourceProvider

def asStrNameLower : SourceProvider → String
  | .unspecified => "unspecified"
  | .github => "github"
  | .gitlab => "gitlab"
  | .jira => "jira"
  | .linear => "linear"
  | .slack => "slack"
  | .teams => "teams"
  | .zendesk => "zendesk"

/-- Label used in analytical storage. -/
def clickhouseLabel : SourceProvider → String
  | .unspecified => "GITHUB"
  | .github => "GITHUB"
  | .gitlab => "GITLAB"
  | .jira => "JIRA"
  | .linear => "LINEAR"
  | .slack => "SLACK"
  | .teams => "TEAMS"
  | .zendesk => "ZENDESK"

end SourceProvider

inductive EventCategory where
  | unspecified
  | code
  | workItem
  | communication
  | identity
  deriving DecidableEq, Repr, Inhabited

namespace EventCategory

def asStrNameLower : EventCategory → String
  | .unspecified => "unspecified"
  | .code => "code"
  | .workItem => "work_item"
  | .communication => "communication"
  | .identity => "identity"

def clickhouseLabel : EventCategory → String
  | .unspecified => "CODE"
  | .code => "CODE"
  | .workItem => "WORK_ITEM"
  | .communication => "COMMUNICATION"
  | .identity => "IDENTITY"

end EventCategory

structure ActorIdentity where
  globalUserId : String := ""
  providerUserId : String := ""
  email : String := ""
  displayName : String := ""
  deriving DecidableEq, Inhabited

structure AclSnapshot where
  tenantId : String := ""
  allowedGroupIds : List String := []
  isPrivate : Bool := false
  aclVersion : Nat := 0
  deriving DecidableEq, Inhabited

/-- A normalized event, ready for the bus and the analytical store. -/
structure CanonicalEventRecord where
  eventId : String
  tenantId : String
  provider : SourceProvider
  category : EventCategory
  eventType : String
  /-- time in the origin system -/
  eventTimestamp : DateTime
  ingestedAt : DateTime
  actor : ActorIdentity
  acl : AclSnapshot
  resourceId : String
  parentResourceId : String
  attributes : Json
  rawPayloadS3Uri : String
  eventSequenceNumber : Nat
  deriving Inhabited

structure AclRevocationRecord where
  eventId : String
  tenantId : String
  globalUserId : String
  providerUserId : String
  provider : SourceProvider
  groupId : String
  /-- `removed_from_group`, `added_to_group` or `role_changed` -/
  changeType : String
  aclVersion : Nat
  timestamp : DateTime
  deriving DecidableEq

inductive BusTopic where
  | eventsRaw
  | eventsRealtime
  | eventsBackfill
  | eventsAcl
  deriving DecidableEq, Repr

inductive BusPayload where
  | event (e : CanonicalEventRecord)
  | acl (r : AclRevocationRecord)

structure BusMessage where
  topic : BusTopic
  partitionKey : String
  payload : BusPayload

inductive IngestStatus where
  | accepted
  | duplicate
  | deadLettered
  deriving DecidableEq, Repr

/-- Identity of a reader; groups are resolved before the query. -/
structure QueryContext where
  tenantId : String
  globalUserId : String := ""
  groupIds : List String := []
  deriving DecidableEq

/-- Filter for access-controlled event reads. -/
structure EventQuery where
  tenantId : String := ""
  categories : List EventCategory := []
  providers : List SourceProvider := []
  resourceId : Option String := none
  parentResourceId : Option String := none
  eventType : Option String := none
  since : Option DateTime := none
  «until» : Option DateTime := none
  limit : Nat := 100

/-- Webhook secrets and default groups of a tenant. -/
structure TenantConfig where
  tenantId : String
  githubWebhookSecret : Option String := none
  gitlabWebhookSecret : Option String := none
  jiraWebhookSecret : Option String := none
  linearWebhookSecret : Option String := none
  slackSigningSecret : Option String := none
  teamsWebhookSecret : Option String := none
  zendeskWebhookSecret : Option String := none
  /-- for events whose payload names no groups -/
  defaultGroupIds : List String := []

def TenantConfig.secretFor (tenant : TenantConfig) : SourceProvider → Option String
  | .github => tenant.githubWebhookSecret
  | .gitlab => tenant.gitlabWebhookSecret
  | .jira => tenant.jiraWebhookSecret
  | .linear => tenant.linearWebhookSecret
  | .slack => tenant.slackSigningSecret
  | .teams => tenant.teamsWebhookSecret
  | .zendesk => tenant.zendeskWebhookSecret
  | .unspecified => none

inductive CoreError where
  | auth (text : String)
  | rateLimited (retryAfterSecs : Nat)
  | duplicate (eventId : String)
  | validation (text : String)
  | normalization (text : String)
  | aclDenied (text : String)
  | storage (text : String)
  | bus (text : String)
  | objectStore (text : String)
  | notFound (text : String)
  | internal (text : String)
  | deadLetter (text : String)
  deriving DecidableEq, Repr

abbrev CoreResult (α : Type) := Except CoreError α

end AiManager.Telemetry
