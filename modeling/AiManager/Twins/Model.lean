import AiManager.Lib.DateTime
import AiManager.Lib.Json

/-! # Twin data model

Status twins, the ledgers compiled for them, the drafts under review and the records of what was
published. -/

namespace AiManager.Twins

open Lib

/-- Deterministic confidence tiers. -/
inductive ConfidenceTier where
  | high
  | medium
  | blocker
  deriving DecidableEq, Repr, Inhabited

namespace ConfidenceTier

def asStr : ConfidenceTier → String
  | .high => "high"
  | .medium => "medium"
  | .blocker => "blocker"

end ConfidenceTier

inductive TwinKind where
  | person
  | team
  deriving DecidableEq, Repr, Inhabited

inductive DraftStatus where
  | shadow
  | pending
  | edited
  | vetoed
  | publishQueued
  | published
  | expired
  | forceHuman
  | publishFailed
  deriving DecidableEq, Repr, Inhabited

namespace DraftStatus

def asStr : DraftStatus → String
  | .shadow => "shadow"
  | .pending => "pending"
  | .edited => "edited"
  | .vetoed => "vetoed"
  | .publishQueued => "publish_queued"
  | .published => "published"
  | .expired => "expired"
  | .forceHuman => "force_human"
  | .publishFailed => "publish_failed"

end DraftStatus

structure Twin where
  tenantId : String
  twinId : String
  twinKind : TwinKind
  subjectId : String
  displayName : String
  timezone : String
  channelId : String
  shadowUntil : Option DateTime
  highAutoPublish : Bool
  enabled : Bool
  configJson : Json
  createdAt : DateTime
  updatedAt : DateTime
  deriving Inhabited

namespace Twin

def isInShadow (t : Twin) (now : DateTime) : Bool :=
  match t.shadowUntil with
  | none => false
  | some u => decide (now < u)

end Twin

structure LedgerPeriod where
  start : DateTime
  finish : DateTime
  deriving DecidableEq, Inhabited

structure LedgerItem where
  kind : String
  resourceId : String
  nodeId : String
  summary : String
  confidence : ConfidenceTier
  evidenceRefs : List String
  deriving DecidableEq, Inhabited

structure BlockerItem where
  nodeId : String
  summary : String
  confidence : ConfidenceTier
  evidenceRefs : List String
  deriving DecidableEq, Inhabited

structure StatusLedger where
  tenantId : String
  personId : String
  period : LedgerPeriod
  confidenceRollup : ConfidenceTier
  items : List LedgerItem
  openBlockers : List BlockerItem
  graphAsOf : DateTime
  compiledAt : DateTime
  deriving DecidableEq, Inhabited

structure LedgerSnapshot where
  tenantId : String
  ledgerId : String
  twinId : String
  periodStart : DateTime
  periodEnd : DateTime
  confidenceRollup : ConfidenceTier
  ledger : StatusLedger
  graphAsOf : DateTime
  compiledAt : DateTime
  deriving DecidableEq, Inhabited

structure DraftDelivery where
  tenantId : String
  draftId : String
  ledgerId : String
  twinId : String
  status : DraftStatus
  slackDmChannel : String
  slackDmTs : String
  draftText : String
  editedText : Option String
  vetoDeadline : Option DateTime
  createdAt : DateTime
  updatedAt : DateTime
  deriving DecidableEq, Inhabited

namespace DraftDelivery

/-- Body that will be published (edited if present, else draft). -/
def publishBody (d : DraftDelivery) : String :=
  match d.editedText with
  | none => d.draftText
  | some s => if s = "" then d.draftText else s

end DraftDelivery

structure PublishRecord where
  tenantId : String
  publishId : String
  ledgerId : String
  draftId : String
  channelId : String
  slackTs : String
  bodyHash : String
  publishedAt : DateTime
  deriving DecidableEq, Inhabited

structure CompileRun where
  tenantId : String
  runId : String
  twinId : String
  status : String
  errorText : String
  startedAt : DateTime
  finishedAt : Option DateTime
  deriving DecidableEq, Inhabited

structure SlackUserMap where
  tenantId : String
  globalUserId : String
  slackUserId : String
  slackTeamId : String
  deriving DecidableEq, Inhabited

structure TenantKvEntry where
  tenantId : String
  key : String
  value : Json
  deriving Inhabited

inductive TwinError where
  | validation (text : String)
  | notFound (text : String)
  | conflict (text : String)
  | aclDenied (text : String)
  | egress (text : String)
  | storage (text : String)
  | upstream (text : String)
  | internal (text : String)
  deriving DecidableEq, Repr

abbrev TwinResult (α : Type) := Except TwinError α

def defaultMediumVetoWindowSecs : Int := 2 * 3600
def defaultBlockerVetoWindowSecs : Int := 24 * 3600

/-! ## Keys of the stored rows -/

def Twin.key (t : Twin) : String × String := (t.tenantId, t.twinId)

def SlackUserMap.key (m : SlackUserMap) : String × String := (m.tenantId, m.globalUserId)

def LedgerSnapshot.key (l : LedgerSnapshot) : String × String := (l.tenantId, l.ledgerId)

/-- The period of a ledger as text, under which the store remembers its id. -/
def LedgerSnapshot.periodKey (l : LedgerSnapshot) : String × String × String × String :=
  (l.tenantId, l.twinId, l.periodStart.toRfc3339, l.periodEnd.toRfc3339)

def DraftDelivery.key (d : DraftDelivery) : String × String := (d.tenantId, d.draftId)

def DraftDelivery.ledgerKey (d : DraftDelivery) : String × String := (d.tenantId, d.ledgerId)

def PublishRecord.key (r : PublishRecord) : String × String := (r.tenantId, r.publishId)

def PublishRecord.ledgerKey (r : PublishRecord) : String × String := (r.tenantId, r.ledgerId)

def CompileRun.key (r : CompileRun) : String × String := (r.tenantId, r.runId)

end AiManager.Twins
