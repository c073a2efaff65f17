import AiManager.Lib.Fallible
import AiManager.Telemetry.Dedup
import AiManager.Telemetry.Normalize

/-! # The ingestion pipeline

`ingest` takes a webhook from authentication to the bus. It is a program over the calls of its ports:
one awaited call is one step, and other calls of `ingest` take theirs in between. What a port does is
`answer`; a failure of a port, the clocks, the identifiers and the locations of stored objects are the
choices of the environment. Metrics are left out. -/

namespace AiManager.Telemetry

open Lib

/-! ## Requests -/

structure IngestHeaders where
  signature256 : Option String := none
  signature : Option String := none
  gitlabToken : Option String := none
  sharedSecret : Option String := none
  linearSignature : Option String := none
  slackSignature : Option String := none
  slackTimestamp : Option String := none
  deliveryId : Option String := none
  eventName : Option String := none

/-- Incoming webhook request after HTTP extraction. -/
structure IngestRequest where
  tenantId : String
  provider : SourceProvider
  body : List UInt8
  headers : IngestHeaders := {}
  /-- to `events.backfill` instead of `events.realtime` -/
  isBackfill : Bool := false

structure IngestOutcome where
  eventId : String
  status : IngestStatus
  latencyMs : ℕ

/-- What is fixed for all calls of a pipeline. The check of a signature, the JSON reader and the
normalizers of events other than identity events are parameters. -/
structure IngestPipeline where
  authSkip : Bool
  verifyWebhook : SourceProvider → String → List UInt8 → IngestHeaders → DateTime → Except String Unit
  fromSlice : List UInt8 → Except String Json
  normalizeOther : Json → NormalizeContext → Fresh → CoreResult CanonicalEventRecord
  inlineStore : Bool

/-! ## Calls -/

inductive IngestOp where
  | elapsedMs
  | newEventId
  | readFresh
  | getTenant (tenantId : String)
  | verifyWebhook (provider : SourceProvider) (secret : String) (body : List UInt8)
      (headers : IngestHeaders)
  | checkRate (tenantId : String)
  | tryClaim (eventId : String)
  | release (eventId : String)
  | putRawPayload (tenantId provider eventId : String) (bytes : List UInt8)
  | putDlq (tenantId reason : String) (bytes : List UInt8)
  | ensureUser (tenantId providerUserId email displayName : String)
  | currentAclVersion (tenantId : String)
  | applyRevocation (rev : AclRevocationRecord)
  | publish (message : BusMessage)
  | upsert (event : CanonicalEventRecord)

namespace IngestOp

/-- What a successful call answers. -/
@[reducible] def Val : IngestOp → Type
  | elapsedMs => ℕ
  | newEventId => String
  | readFresh => Fresh
  | getTenant _ => Option TenantConfig
  | verifyWebhook _ _ _ _ => Unit
  | checkRate _ => Unit
  | tryClaim _ => Bool
  | release _ => Unit
  | putRawPayload _ _ _ _ => String
  | putDlq _ _ _ => String
  | ensureUser _ _ _ _ => String
  | currentAclVersion _ => ℕ
  | applyRevocation _ => ℕ
  | publish _ => Unit
  | upsert _ => Unit

abbrev Res : IngestOp → Type := Fallible CoreError Val

/-- The call goes to a port whose failure it can answer. -/
def fallible : IngestOp → Bool
  | elapsedMs | newEventId | readFresh | verifyWebhook _ _ _ _ | currentAclVersion _ => false
  | _ => true

end IngestOp

/-- The errors that ports answer with: the other two are of the pipeline's own making. -/
def CoreError.ofPort : CoreError → Bool
  | .duplicate _ | .deadLetter _ => false
  | _ => true

abbrev PortError := {e : CoreError // e.ofPort = true}

/-- An object of the object store; its location plays no role. -/
inductive StoredObject where
  | rawPayload (tenantId provider eventId : String) (bytes : List UInt8)
  | dlq (tenantId reason : String) (bytes : List UInt8)
  deriving DecidableEq

/-- What the calls share. Objects and messages are kept, newest first. -/
structure IngestShared where
  tenants : Table TenantConfig.tenantId
  dedup : InMemoryDedup
  acl : InMemoryAclStore
  objects : List StoredObject
  published : List BusMessage

/-- What the environment decides at a call. A port may fail before or after it did what it was
asked for. -/
structure IngestChoice where
  fault : Option PortError := none
  late : Bool := false
  gcNow : ℕ := 0
  claimNow : ℕ := 0
  elapsedMs : ℕ := 0
  uri : String := ""
  fresh : Fresh := ⟨"", 0, 0⟩

namespace IngestShared

/-- A call that does not fail. -/
def perform (p : IngestPipeline) (c : IngestChoice) (s : IngestShared) :
    (op : IngestOp) → op.Res × IngestShared
  | .elapsedMs => (.ok c.elapsedMs, s)
  | .newEventId => (.ok c.fresh.eventId, s)
  | .readFresh => (.ok c.fresh, s)
  | .getTenant tenantId => (.ok (s.tenants.get tenantId), s)
  | .verifyWebhook provider secret body headers =>
    ((p.verifyWebhook provider secret body headers c.fresh.now).mapError .auth, s)
  | .checkRate _ => (.ok (), s)
  | .tryClaim eventId =>
    let (first, dedup) := s.dedup.tryClaim c.gcNow c.claimNow eventId
    (.ok first, { s with dedup })
  | .release eventId => (.ok (), { s with dedup := s.dedup.release eventId })
  | .putRawPayload tenantId provider eventId bytes =>
    (.ok c.uri, { s with objects := .rawPayload tenantId provider eventId bytes :: s.objects })
  | .putDlq tenantId reason bytes =>
    (.ok c.uri, { s with objects := .dlq tenantId reason bytes :: s.objects })
  | .ensureUser tenantId providerUserId email displayName =>
    let (globalUserId, acl) :=
      s.acl.ensureUser c.fresh.eventId tenantId providerUserId email displayName
    (.ok globalUserId, { s with acl })
  | .currentAclVersion tenantId => (.ok (s.acl.currentAclVersion tenantId), s)
  | .applyRevocation rev =>
    let (version, acl) := s.acl.applyRevocation rev
    (version, { s with acl })
  | .publish message => (.ok (), { s with published := message :: s.published })
  | .upsert _ => (.ok (), s)

end IngestShared

abbrev IngestM (α : Type) := ExceptT CoreError (Prog IngestOp IngestOp.Res) α

/-- A call of a port whose error ends the program. -/
abbrev ask (op : IngestOp) : IngestM op.Val := Lib.ask op

/-- The name of a provider in debug output. -/
def SourceProvider.debugName : SourceProvider → String
  | .unspecified => "Unspecified"
  | .github => "Github"
  | .gitlab => "Gitlab"
  | .jira => "Jira"
  | .linear => "Linear"
  | .slack => "Slack"
  | .teams => "Teams"
  | .zendesk => "Zendesk"

namespace IngestPipeline
variable (p : IngestPipeline)

def answer : Answer IngestOp IngestOp.Res IngestShared IngestChoice := fun c op s =>
  match op.fallible, c.fault with
  | true, some e => some (.error e, if c.late then (s.perform p c op).2 else s)
  | _, _ => some (s.perform p c op)

/-! ## The way of a request -/

/-- What the normalizers are told about a request of the tenant. -/
def context (tenant : TenantConfig) (req : IngestRequest) (deliveryId rawUri globalUserId : String)
    (aclVersion : ℕ) (value : Json) : NormalizeContext where
  tenantId := tenant.tenantId
  provider := req.provider
  deliveryId := some deliveryId
  eventName := req.headers.eventName
  rawPayloadS3Uri := rawUri
  defaultGroupIds := tenant.defaultGroupIds
  actorGlobalUserId := globalUserId
  aclVersion := max aclVersion 1
  -- private resources have the same groups, for the time being
  allowedGroupIds := tenant.defaultGroupIds
  isPrivate := detectPrivate req.provider value

def normalize (value : Json) (ctx : NormalizeContext) (fresh : Fresh) :
    CoreResult CanonicalEventRecord :=
  match normalizeIdentity value ctx fresh ctx.provider with
  | some event => .ok event
  | none => p.normalizeOther value ctx fresh

/-- The global id of the sender; empty if the payload names none. -/
def resolveSender (req : IngestRequest) (value : Json) : IngestM String :=
  let providerUserId := extractProviderUserId req.provider value
  if providerUserId = "" then pure ""
  else
    ask (.ensureUser req.tenantId providerUserId ((extractEmail value).getD "")
      ((extractDisplayName value).getD ""))

def normalizeAndEnrich (tenant : TenantConfig) (req : IngestRequest) (deliveryId rawUri : String) :
    IngestM CanonicalEventRecord :=
  match p.fromSlice req.body with
  | .error e => throw (.normalization ("invalid JSON: " ++ e))
  | .ok value => do
    let globalUserId ← resolveSender req value
    let aclVersion ← ask (.currentAclVersion req.tenantId)
    let fresh ← ask .readFresh
    match p.normalize value (context tenant req deliveryId rawUri globalUserId aclVersion value) fresh with
    | .error e => throw e
    | .ok event => pure event

/-- An identity event may change memberships; that the access store fails is no reason to stop. -/
def publishRevocation (event : CanonicalEventRecord) : IngestM Unit :=
  if event.category = .identity then do
    let fresh ← ask .readFresh
    match extractAclRevocation event fresh.now with
    | none => pure ()
    | some rev => do
      let _ ← attempt (ask (.applyRevocation rev))
      ask (.publish ⟨.eventsAcl, rev.tenantId, .acl rev⟩)
  else pure ()

def publishEvent (req : IngestRequest) (event : CanonicalEventRecord) : IngestM IngestOutcome := do
  ask (.publish ⟨.eventsRaw, event.tenantId, .event event⟩)
  let topic := if req.isBackfill then BusTopic.eventsBackfill else .eventsRealtime
  ask (.publish ⟨topic, event.tenantId, .event event⟩)
  if p.inlineStore then ask (.upsert event) else pure ()
  return ⟨event.eventId, .accepted, 0⟩

/-- The answer is the same whether the payload could be stored or not. -/
def deadLetter (req : IngestRequest) (deliveryId : String) : IngestM IngestOutcome := do
  let _ ← attempt (ask (.putDlq req.tenantId "normalize_error" req.body))
  return ⟨deliveryId, .deadLettered, 0⟩

def processClaimed (tenant : TenantConfig) (req : IngestRequest) (deliveryId : String) :
    IngestM IngestOutcome := do
  let stored ← attempt
    (ask (.putRawPayload req.tenantId req.provider.asStrNameLower deliveryId req.body))
  -- without the raw payload the ingestion goes on
  let rawUri := stored.toOption.getD ""
  match ← attempt (p.normalizeAndEnrich tenant req deliveryId rawUri) with
  | .error _ => deadLetter req deliveryId
  | .ok event => do
    publishRevocation event
    p.publishEvent req event

/-- Process with release on hard failure, so that a retry can claim the delivery again. -/
def processOrRelease (tenant : TenantConfig) (req : IngestRequest) (deliveryId : String) :
    IngestM IngestOutcome := do
  match ← attempt (p.processClaimed tenant req deliveryId) with
  | .ok outcome => pure outcome
  | .error (.deadLetter text) => throw (.deadLetter text)
  | .error e => do
    let _ ← attempt (ask (.release deliveryId))
    throw e

def authenticate (tenant : TenantConfig) (req : IngestRequest) : IngestM Unit :=
  if p.authSkip then pure ()
  else
    match tenant.secretFor req.provider with
    | none => throw (.auth ("no webhook secret configured for " ++ req.provider.debugName))
    | some secret => ask (.verifyWebhook req.provider secret req.body req.headers)

/-- The challenge of slack, which the HTTP layer answers. -/
def isUrlVerification (req : IngestRequest) : Bool :=
  req.provider = .slack ∧
    (p.fromSlice req.body).toOption.bind (fun v => v.getStr "type") = some "url_verification"

def deliveryId (req : IngestRequest) : IngestM String :=
  match req.headers.deliveryId.filter fun s => s ≠ "" with
  | some id => pure id
  | none => ask .newEventId

def ingestInner (req : IngestRequest) : IngestM IngestOutcome :=
  if p.isUrlVerification req then throw (.validation "slack_url_verification")
  else do
    match ← ask (.getTenant req.tenantId) with
    | none => throw (.notFound ("tenant " ++ req.tenantId))
    | some tenant => do
      p.authenticate tenant req
      ask (.checkRate req.tenantId)
      let eventId ← deliveryId req
      let first ← ask (.tryClaim eventId)
      if first then p.processOrRelease tenant req eventId
      else return ⟨eventId, .duplicate, 0⟩

def ingest (req : IngestRequest) : IngestM IngestOutcome := do
  let result ← attempt (p.ingestInner req)
  let latencyMs ← ask .elapsedMs
  match result with
  | .ok outcome => return { outcome with latencyMs }
  | .error (.duplicate eventId) => return ⟨eventId, .duplicate, latencyMs⟩
  | .error e => throw e

end IngestPipeline

/-! ## What a port answers -/

section Answer
variable {p : IngestPipeline} {c : IngestChoice} {op : IngestOp} {r : op.Res} {s s' : IngestShared}

/-- A call is performed, or a port answers with a failure of its own. -/
theorem answer_cases (h : p.answer c op s = some (r, s')) :
    ((op.fallible = true → c.fault = none) ∧ (r, s') = s.perform p c op) ∨
    ∃ e : PortError, op.fallible = true ∧ c.fault = some e ∧ r = .error e ∧
      s' = if c.late then (s.perform p c op).2 else s := by
  unfold IngestPipeline.answer at h
  split at h
  · next e hfallible hfault =>
    cases h
    exact .inr ⟨e, hfallible, hfault, rfl, rfl⟩
  · next hperform =>
    refine .inl ⟨?_, (Option.some.inj h).symm⟩
    intro hfallible
    cases hfault : c.fault with
    | none => rfl
    | some e => exact (hperform e hfallible hfault).elim

/-- What succeeded was performed, and its port did not fail. -/
theorem answer_ok {a : op.Val} (h : p.answer c op s = some (.ok a, s')) :
    (op.fallible = true → c.fault = none) ∧ (.ok a, s') = s.perform p c op := by
  obtain hperform | ⟨e, -, -, he, -⟩ := answer_cases h
  · exact hperform
  · cases he

theorem applyRevocation_ofPort {acl : InMemoryAclStore} {rev : AclRevocationRecord} {e : CoreError}
    (h : (acl.applyRevocation rev).1 = .error e) : e.ofPort = true := by
  have hchange : ∀ t u f, (acl.changeGroups t u f).1 = .error e → e.ofPort = true := by
    intro t u f hf
    unfold InMemoryAclStore.changeGroups at hf
    split at hf <;> cases hf
    rfl
  unfold InMemoryAclStore.applyRevocation at h
  split_ifs at h
  · exact hchange _ _ _ h
  · exact hchange _ _ _ h
  · cases h
    rfl

/-- No port answers with an error of the pipeline's own making. -/
theorem answer_ofPort (h : p.answer c op s = some (r, s')) {e : CoreError} (he : r = .error e) :
    e.ofPort = true := by
  obtain ⟨-, hperform⟩ | ⟨e', -, -, hr, -⟩ := answer_cases h
  · have hfst : (s.perform p c op).1 = .error e := by rw [← hperform, ← he]
    cases op with
    | verifyWebhook provider secret body headers =>
      simp only [IngestShared.perform, Except.mapError] at hfst
      split at hfst <;> cases hfst
      rfl
    | applyRevocation rev => exact applyRevocation_ofPort hfst
    | _ => cases hfst
  · rw [hr] at he
    cases he
    exact e'.2

/-- What is stored or published stays so. -/
theorem answer_keeps (h : p.answer c op s = some (r, s')) :
    (∀ o ∈ s.objects, o ∈ s'.objects) ∧ ∀ m ∈ s.published, m ∈ s'.published := by
  have hperform : (∀ o ∈ s.objects, o ∈ (s.perform p c op).2.objects) ∧
      ∀ m ∈ s.published, m ∈ (s.perform p c op).2.published := by
    cases op with
    | putRawPayload _ _ _ _ | putDlq _ _ _ =>
      exact ⟨fun o ho => List.mem_cons_of_mem _ ho, fun m hm => hm⟩
    | publish message => exact ⟨fun o ho => ho, fun m hm => List.mem_cons_of_mem _ hm⟩
    | _ => exact ⟨fun o ho => ho, fun m hm => hm⟩
  obtain ⟨-, heq⟩ | ⟨e, -, -, -, rfl⟩ := answer_cases h
  · rw [← heq] at hperform
    exact hperform
  · split_ifs
    · exact hperform
    · exact ⟨fun o ho => ho, fun m hm => hm⟩

end Answer

end AiManager.Telemetry
