import AiManager.Telemetry.ActorAgreement
import AiManager.Telemetry.AuthGate
import AiManager.Telemetry.EventQuery
import Mathlib.Data.Finset.Sort
import Mathlib.Data.String.Basic

/-! # From a webhook to a reader

The ingestion writes events, itself and over the bus, and the query service reads them for a user. Whatever a user is
shown was sent by an authentic webhook to the user's own tenant, and what the payload calls private is shown to
nobody outside the default groups of the tenant (`readers_see_sent`). -/

namespace AiManager.Telemetry

open Lib

/-! ## What normalizers keep -/

/-- What the event has from the context, whatever the payload says. -/
structure KeepsContext (v : Json) (ctx : NormalizeContext) (event : CanonicalEventRecord) : Prop where
  tenantId : event.tenantId = ctx.tenantId
  provider : event.provider = ctx.provider
  allowedGroupIds : event.acl.allowedGroupIds =
    if ctx.allowedGroupIds = [] then ctx.defaultGroupIds else ctx.allowedGroupIds
  /-- pull requests are asked once more -/
  isPrivate : ctx.isPrivate = detectPrivate ctx.provider v → event.acl.isPrivate = ctx.isPrivate

section Normalizers
variable {chrono : Chrono} {v : Json} {ctx : NormalizeContext} {fresh : Fresh} {event : CanonicalEventRecord}

theorem keepsContext_baseEvent {category : EventCategory} {eventType resource parent : String} {timestamp : DateTime}
    {actor : ActorIdentity} {attributes : Json} :
    KeepsContext v ctx (baseEvent ctx fresh category eventType timestamp actor resource parent attributes) :=
  ⟨rfl, rfl, rfl, fun _ => rfl⟩

theorem normalizeGithub_keeps (hprovider : ctx.provider = .github) (h : normalizeGithub chrono v ctx fresh = .ok event) :
    KeepsContext v ctx event := by
  unfold normalizeGithub at h
  dsimp only at h
  split_ifs at h with hidentity hpr hissue hpush hbranch hcomment hcheck
  · cases h
    exact keepsContext_baseEvent
  · unfold normalizePr at h
    split at h
    · cases h
    · next pr hget =>
      cases h
      refine ⟨rfl, rfl, rfl, fun hprivate => ?_⟩
      show ((v.nested ["repository", "private"]).bind Json.asBool).getD ctx.isPrivate = ctx.isPrivate
      rw [hprivate, hprovider]
      unfold detectPrivate
      cases (v.nested ["repository", "private"]).bind Json.asBool <;> rfl
  · unfold normalizeIssue at h
    split at h
    · cases h
    · cases h
      exact keepsContext_baseEvent
  all_goals
    cases h
    exact keepsContext_baseEvent

theorem normalizeGitlab_keeps (h : normalizeGitlab chrono v ctx fresh = .ok event) : KeepsContext v ctx event := by
  unfold normalizeGitlab at h
  dsimp only at h
  split_ifs at h with hmr
  · unfold normalizeGitlabMr at h
    split at h
    · cases h
    · cases h
      exact keepsContext_baseEvent
  all_goals
    cases h
    exact keepsContext_baseEvent

theorem normalizeJira_keeps (h : normalizeJira chrono v ctx fresh = .ok event) : KeepsContext v ctx event := by
  unfold normalizeJira at h
  dsimp only at h
  split_ifs at h <;>
  · cases h
    exact keepsContext_baseEvent

theorem normalizeLinear_keeps (h : normalizeLinear chrono v ctx fresh = .ok event) : KeepsContext v ctx event := by
  unfold normalizeLinear at h
  dsimp only at h
  split_ifs at h <;>
  · cases h
    exact keepsContext_baseEvent

theorem normalizeSlack_keeps {parseF64 : String → Option Int}
    (h : normalizeSlack chrono v ctx fresh parseF64 = .ok event) :
    KeepsContext v ctx event := by
  unfold normalizeSlack at h
  dsimp only at h
  split_ifs at h <;>
  · cases h
    exact keepsContext_baseEvent

theorem normalizeTeams_keeps (h : normalizeTeams chrono v ctx fresh = .ok event) : KeepsContext v ctx event := by
  unfold normalizeTeams at h
  dsimp only at h
  split_ifs at h <;>
  · cases h
    exact keepsContext_baseEvent

/-- The tenant, the provider and the groups of an event are not the payload's choice. -/
theorem normalize_keeps {parseF64 : String → Option Int} (h : normalize chrono v ctx fresh parseF64 = .ok event) :
    KeepsContext v ctx event := by
  unfold normalize at h
  cases hprovider : ctx.provider with
  | github =>
    rw [hprovider] at h
    exact normalizeGithub_keeps hprovider h
  | gitlab =>
    rw [hprovider] at h
    exact normalizeGitlab_keeps h
  | jira =>
    rw [hprovider] at h
    exact normalizeJira_keeps h
  | linear =>
    rw [hprovider] at h
    exact normalizeLinear_keeps h
  | slack =>
    rw [hprovider] at h
    exact normalizeSlack_keeps h
  | teams =>
    rw [hprovider] at h
    exact normalizeTeams_keeps h
  | zendesk =>
    rw [hprovider] at h
    cases h
    exact keepsContext_baseEvent
  | unspecified =>
    rw [hprovider] at h
    cases h

end Normalizers

/-! ## What a call passes on -/

/-- The event is the request's payload, as it is normalized for the tenant. -/
def SentFor (p : IngestPipeline) (tenant : TenantConfig) (req : IngestRequest) (event : CanonicalEventRecord) : Prop :=
  ∃ value deliveryId rawUri globalUserId aclVersion fresh, p.fromSlice req.body = .ok value ∧
    p.normalize value (IngestPipeline.context tenant req deliveryId rawUri globalUserId aclVersion value) fresh =
      .ok event

/-- The event that a call passes on, to the bus or to the store. -/
def IngestOp.passesOn : IngestOp → Option CanonicalEventRecord
  | .publish ⟨_, _, .event event⟩ => some event
  | .upsert event => some event
  | _ => none

/-- Calls that pass nothing on and look up no tenant. -/
def IngestOp.mute : IngestOp → Bool
  | .getTenant _ | .publish ⟨_, _, .event _⟩ | .upsert _ => false
  | _ => true

def foundTenant (found : Option TenantConfig) (op : IngestOp) (r : op.Res) : Option TenantConfig :=
  match op, r with
  | .getTenant _, .ok (some tenant) => some tenant
  | _, _ => found

/-- What is passed on was sent, for the tenant that was looked up. -/
def sendMonitor (p : IngestPipeline) : Monitor IngestOp IngestOp.Res (IngestRequest × Option TenantConfig) where
  next q op r := (q.1, foundTenant q.2 op r)
  allows q op := (∀ tenantId, op = .getTenant tenantId → tenantId = q.1.tenantId) ∧
    ∀ event, op.passesOn = some event → ∃ tenant, q.2 = some tenant ∧ SentFor p tenant q.1 event
  replies _ _ := True

section Sends
variable {p : IngestPipeline} {req : IngestRequest} {tenant : TenantConfig} {q : IngestRequest × Option TenantConfig}
  {op : IngestOp} {α : Type}

theorem allows_mute (h : op.mute = true) : (sendMonitor p).allows q op := by
  refine ⟨fun tenantId heq => ?_, fun event hevent => ?_⟩
  · rw [heq] at h
    cases h
  · unfold IngestOp.passesOn at hevent
    split at hevent <;> first | cases h | cases hevent

theorem next_mute (h : op.mute = true) (r : op.Res) : (sendMonitor p).next q op r = q := by
  cases op <;> first | rfl | cases h

abbrev Mute (prog : IngestM α) : Prop := prog.run.CallsOnly (fun op => op.mute = true)

theorem mute_ask (h : op.mute = true) : Mute (ask op) := callsOnly_ask h

theorem mute_meets {prog : IngestM α} (h : Mute prog) : prog.run.Meets (sendMonitor p) (fun _ q' => q' = q) q :=
  h.meets (fun _ => allows_mute) fun _ r h => next_mute h r

/-- What follows a mute program follows it in the same state. -/
theorem mute_bind_meets {β : Type} {prog : IngestM α} {f : α → IngestM β} {post : CoreResult β → _ → Prop}
    (h : Mute prog) (hf : ∀ a, (f a).run.Meets (sendMonitor p) post q) (herror : ∀ e, post (.error e) q) :
    (prog >>= f).run.Meets (sendMonitor p) post q := by
  refine bind_meets (mute_meets h) (fun a q' hq => ?_) fun e q' hq => ?_
  · rw [hq]
    exact hf a
  · rw [hq]
    exact herror e

/-- Only of interest is what was passed on. -/
abbrev Sends (p : IngestPipeline) (q : IngestRequest × Option TenantConfig) (prog : IngestM α) : Prop :=
  prog.run.Meets (sendMonitor p) (fun _ _ => True) q

theorem mute_bind_sends {β : Type} {prog : IngestM α} {f : α → IngestM β} (h : Mute prog)
    (hf : ∀ a, Sends p q (f a)) : Sends p q (prog >>= f) :=
  mute_bind_meets h hf fun _ => trivial

theorem mute_resolveSender (value : Json) : Mute (IngestPipeline.resolveSender req value) := by
  unfold IngestPipeline.resolveSender
  dsimp only
  split_ifs
  · exact trivial
  · exact mute_ask rfl

theorem mute_publishRevocation (event : CanonicalEventRecord) : Mute (IngestPipeline.publishRevocation event) := by
  unfold IngestPipeline.publishRevocation
  split_ifs
  · refine Prog.CallsOnly.exceptT_bind (mute_ask rfl) fun fresh => ?_
    split
    · exact trivial
    · exact Prog.CallsOnly.exceptT_bind (callsOnly_attempt (mute_ask rfl)) fun _ => mute_ask rfl
  · exact trivial

theorem normalizeAndEnrich_sends (deliveryId rawUri : String) :
    (p.normalizeAndEnrich tenant req deliveryId rawUri).run.Meets (sendMonitor p)
      (fun r q' => q' = (req, some tenant) ∧ ∀ event, r = .ok event → SentFor p tenant req event)
      (req, some tenant) := by
  have herror : ∀ e : CoreError, (req, some tenant) = (req, some tenant) ∧
      ∀ event, (.error e : CoreResult CanonicalEventRecord) = .ok event → SentFor p tenant req event :=
    fun e => ⟨rfl, fun event heq => by cases heq⟩
  unfold IngestPipeline.normalizeAndEnrich
  split
  · exact herror _
  · next value hvalue =>
    refine mute_bind_meets (mute_resolveSender value) (fun globalUserId => ?_) herror
    refine mute_bind_meets (mute_ask rfl) (fun aclVersion => ?_) herror
    refine mute_bind_meets (mute_ask rfl) (fun fresh => ?_) herror
    split
    · exact herror _
    · next event hevent =>
      refine ⟨rfl, fun event' heq => ?_⟩
      cases heq
      exact ⟨value, deliveryId, rawUri, globalUserId, aclVersion, fresh, hvalue, hevent⟩

theorem publishEvent_sends {event : CanonicalEventRecord} (h : SentFor p tenant req event) :
    Sends p (req, some tenant) (p.publishEvent req event) := by
  have hpublish : ∀ topic key, (sendMonitor p).allows (req, some tenant) (.publish ⟨topic, key, .event event⟩) := by
    refine fun topic key => ⟨fun _ heq => (by cases heq), fun event' heq => ?_⟩
    cases heq
    exact ⟨tenant, rfl, h⟩
  unfold IngestPipeline.publishEvent
  refine ask_bind_meets (hpublish _ _) (fun _ _ => ?_) fun _ _ => trivial
  dsimp only
  generalize (if req.isBackfill then BusTopic.eventsBackfill else .eventsRealtime) = topic
  refine ask_bind_meets (hpublish _ _) (fun _ _ => ?_) fun _ _ => trivial
  split_ifs
  · refine ask_bind_meets ⟨fun _ heq => (by cases heq), fun event' heq => ?_⟩ (fun _ _ => trivial) fun _ _ => trivial
    cases heq
    exact ⟨tenant, rfl, h⟩
  · exact trivial

theorem processClaimed_sends (deliveryId : String) :
    Sends p (req, some tenant) (p.processClaimed tenant req deliveryId) := by
  unfold IngestPipeline.processClaimed
  refine mute_bind_sends (callsOnly_attempt (mute_ask rfl)) fun stored => ?_
  refine attempt_bind_meets (normalizeAndEnrich_sends deliveryId _) fun result q' hq => ?_
  obtain ⟨rfl, hevent⟩ := hq
  cases result with
  | error e => exact mute_bind_sends (callsOnly_attempt (mute_ask rfl)) fun _ => trivial
  | ok event => exact mute_bind_sends (mute_publishRevocation event) fun _ => publishEvent_sends (hevent event rfl)

theorem processOrRelease_sends (deliveryId : String) :
    Sends p (req, some tenant) (p.processOrRelease tenant req deliveryId) := by
  refine attempt_bind_meets (processClaimed_sends deliveryId) fun result q' _ => ?_
  have hrelease : ∀ e : CoreError,
      Sends p q' (do let _ ← attempt (ask (.release deliveryId)); throw e : IngestM IngestOutcome) :=
    fun e => mute_bind_sends (callsOnly_attempt (mute_ask rfl)) fun _ => trivial
  cases result with
  | ok outcome => exact trivial
  | error e =>
    cases e with
    | deadLetter text => exact trivial
    | _ => exact hrelease _

theorem mute_authenticate : Mute (p.authenticate tenant req) := by
  unfold IngestPipeline.authenticate
  split_ifs
  · exact trivial
  · split
    · exact trivial
    · exact mute_ask rfl

theorem mute_deliveryId : Mute (IngestPipeline.deliveryId req) := by
  unfold IngestPipeline.deliveryId
  split
  · exact trivial
  · exact mute_ask rfl

theorem ingestInner_sends : Sends p (req, none) (p.ingestInner req) := by
  unfold IngestPipeline.ingestInner
  split_ifs
  · exact trivial
  · refine ask_bind_meets ⟨fun _ heq => ?_, fun event heq => (by cases heq)⟩ (fun found _ => ?_) fun _ _ => trivial
    · cases heq
      rfl
    · cases found with
      | none => exact trivial
      | some tenant =>
        refine mute_bind_sends mute_authenticate fun _ => ?_
        refine mute_bind_sends (mute_ask rfl) fun _ => ?_
        refine mute_bind_sends mute_deliveryId fun eventId => ?_
        refine mute_bind_sends (mute_ask rfl) fun first => ?_
        split_ifs
        · exact processOrRelease_sends eventId
        · exact trivial

theorem ingest_sends : Sends p (req, none) (p.ingest req) := by
  refine attempt_bind_meets ingestInner_sends fun result q' _ => ?_
  refine mute_bind_sends (mute_ask rfl) fun latencyMs => ?_
  cases result with
  | ok outcome => exact trivial
  | error e => cases e <;> exact trivial

end Sends

/-! ## What was passed on -/

section Runs
variable {ι : Type} [DecidableEq ι] {p : IngestPipeline} {calls : ι → IngestRequest} {s₀ : IngestShared}
  {pool : IngestPool ι} {i : ι} {c : IngestChoice} {op : IngestOp} {r : op.Res} {s s' : IngestShared}

/-- Who was looked up is a tenant. -/
theorem foundTenant_get {found : Option TenantConfig} {tenant : TenantConfig} (h : foundTenant found op r = some tenant)
    (hs : p.answer c op s = some (r, s')) :
    found = some tenant ∨ ∃ tenantId, op = .getTenant tenantId ∧ s.tenants.get tenantId = some tenant := by
  cases op with
  | getTenant tenantId =>
    cases r with
    | error e => exact .inl h
    | ok answer =>
      have hget : answer = s.tenants.get tenantId := Except.ok.inj (Prod.mk.inj (answer_ok hs).2).1
      cases answer with
      | none => exact .inl h
      | some t =>
        obtain rfl : t = tenant := Option.some.inj h
        exact .inr ⟨tenantId, rfl, hget.symm⟩
  | _ => exact .inl h

/-- The tenant that a call has looked up. -/
def tenantOf (pool : IngestPool ι) (i : ι) : Option TenantConfig := watch foundTenant none i pool.trace

/-- Every event that was passed on was sent for its tenant. -/
structure AllSent (p : IngestPipeline) (calls : ι → IngestRequest) (s₀ : IngestShared) (pool : IngestPool ι) :
    Prop where
  tenants : pool.shared.tenants = s₀.tenants
  found : ∀ i tenant, tenantOf pool i = some tenant → s₀.tenants.get (calls i).tenantId = some tenant
  sent : ∀ e ∈ pool.trace, ∀ event, e.op.passesOn = some event → ∃ tenant,
    s₀.tenants.get (calls e.who).tenantId = some tenant ∧ SentFor p tenant (calls e.who) event

variable (p calls s₀) in
theorem allSent_run (sched : List (ι × IngestChoice)) :
    AllSent p calls s₀ ((IngestPool.start p calls s₀).run p.answer sched) := by
  have hstart : AllSent p calls s₀ (IngestPool.start p calls s₀) :=
    ⟨rfl, fun i tenant h => (by cases h), List.forall_mem_nil _⟩
  have hrun : ((IngestPool.start p calls s₀).run p.answer sched).Tracks (sendMonitor p) (fun _ _ _ => True)
      (fun i => (calls i, none)) ∧ AllSent p calls s₀ ((IngestPool.start p calls s₀).run p.answer sched) := by
    refine Pool.run_induction (I := AllSent p calls s₀) (C := fun _ _ => True) (P := fun _ => True)
      (fun _ _ _ _ _ _ _ _ => trivial) ?_ (fun i => ingest_sends) hstart sched (fun _ _ => trivial)
      (.of_forall (fun _ _ => trivial) _ _)
    intro pool i c op k r s _ hI _ _ _ hs _ hallows _
    have hwatch : watch (sendMonitor p).next (calls i, none) i pool.trace = (calls i, tenantOf pool i) :=
      watch_pair _ _ _ _
    rw [hwatch] at hallows
    refine ⟨(answer_tenants hs).trans hI.tenants, fun j tenant hj => ?_, fun e he event hevent => ?_⟩
    · by_cases hji : i = j
      · subst hji
        have hself : foundTenant (tenantOf pool i) op r = some tenant := by
          rwa [show tenantOf (pool.after i op r k s) i = foundTenant (tenantOf pool i) op r from
            watch_cons_self _ _ _ _ _ _] at hj
        rcases foundTenant_get hself hs with hold | ⟨tenantId, rfl, hget⟩
        · exact hI.found i tenant hold
        · have htenant : tenantId = (calls i).tenantId := hallows.1 tenantId rfl
          rw [← htenant, ← hI.tenants]
          exact hget
      · have hother : tenantOf (pool.after i op r k s) j = tenantOf pool j := watch_cons_ne _ _ hji _ _ _
        rw [hother] at hj
        exact hI.found j tenant hj
    · rcases List.mem_cons.mp he with rfl | he
      · obtain ⟨tenant, htenant, hsent⟩ := hallows.2 event hevent
        exact ⟨tenant, hI.found i tenant htenant, hsent⟩
      · exact hI.sent e he event hevent
  exact hrun.2

end Runs

/-! ## The writers of the store -/

/-- The store has the event for the tenant, in one of its maps. -/
def InMemoryEventStore.Has (st : InMemoryEventStore) (tenantId : String) (e : CanonicalEventRecord) : Prop :=
  st.Holds tenantId e ∨ ∃ resourceId, e ∈ st.listed tenantId resourceId

/-- A write of the ingestion itself, or of the consumer of the bus. -/
inductive StoreWrite where
  | inline (event : CanonicalEventRecord)
  | consumed (message : BusMessage)

def StoreWrite.event : StoreWrite → Option CanonicalEventRecord
  | .inline event => some event
  | .consumed ⟨_, _, .event event⟩ => some event
  | .consumed _ => none

def InMemoryEventStore.write (st : InMemoryEventStore) (w : StoreWrite) : InMemoryEventStore :=
  match w.event with
  | some event => st.upsertData event
  | none => st

/-- Who writes has the event from the ingestion. -/
def StoreWrite.Handed {ι : Type} (pool : IngestPool ι) : StoreWrite → Prop
  | .inline event => ∃ i r, (⟨i, .upsert event, r⟩ : IngestEvent ι) ∈ pool.trace
  | .consumed message => message ∈ pool.shared.published

namespace InMemoryEventStore
variable {st : InMemoryEventStore} {e x : CanonicalEventRecord} {tenantId : String}

theorem has_upsertData (h : (st.upsertData e).Has tenantId x) : st.Has tenantId x ∨ x = e ∧ e.tenantId = tenantId := by
  rcases h with ⟨eventId, hget⟩ | ⟨resourceId, hmem⟩
  · rw [getRaw_upsertData] at hget
    split_ifs at hget with hkey
    · cases hget
      exact .inr ⟨rfl, (congrArg Prod.fst hkey).symm⟩
    · exact .inl (.inl ⟨eventId, hget⟩)
  · rw [listed_upsertData] at hmem
    split_ifs at hmem with hkey
    · rw [mem_sortByTimestamp, placeEvent_eq] at hmem
      rcases mem_of_mem_placeBy hmem with rfl | hold
      · exact .inr ⟨rfl, hkey.1.symm⟩
      · exact .inl (.inr ⟨resourceId, hold⟩)
    · exact .inl (.inr ⟨resourceId, hmem⟩)

theorem has_writes {writes : List StoreWrite} (h : (writes.foldl write st).Has tenantId x) :
    st.Has tenantId x ∨ ∃ w ∈ writes, w.event = some x ∧ x.tenantId = tenantId := by
  induction writes generalizing st with
  | nil => exact .inl h
  | cons w ws ih =>
    rcases ih h with hfirst | ⟨w', hw', hevent⟩
    · unfold write at hfirst
      split at hfirst
      · next e he =>
        rcases has_upsertData hfirst with hold | ⟨rfl, htenant⟩
        · exact .inl hold
        · exact .inr ⟨w, List.mem_cons_self, he, htenant⟩
      · exact .inl hfirst
    · exact .inr ⟨w', List.mem_cons_of_mem _ hw', hevent⟩

end InMemoryEventStore

/-! ## The query service -/

def SourceProvider.fromStrNameLower (s : String) : Option SourceProvider :=
  match Text.toAsciiLowercase s with
  | "github" => some .github
  | "gitlab" => some .gitlab
  | "jira" => some .jira
  | "linear" => some .linear
  | "slack" => some .slack
  | "teams" | "microsoft_teams" | "msteams" => some .teams
  | "zendesk" => some .zendesk
  | _ => none

def parseCategory (s : String) : Option EventCategory :=
  match Text.toAsciiLowercase s with
  | "code" => some .code
  | "work_item" | "work-item" | "workitem" => some .workItem
  | "communication" | "comm" => some .communication
  | "identity" => some .identity
  | _ => none

/-- A simplified state of a pull request. -/
def derivePrState (eventType : String) : String :=
  match eventType with
  | "pull_request.opened" | "pull_request.reopened" => "OPEN"
  | "pull_request.closed" => "CLOSED"
  | "pull_request.merged" => "MERGED"
  | "pull_request.synchronize" => "OPEN"
  | other =>
    if Text.contains other "closed" then "CLOSED" else if Text.contains other "opened" then "OPEN" else "UNKNOWN"

structure QueryParams where
  userId : String
  resourceId : Option String := none
  parentResourceId : Option String := none
  eventType : Option String := none
  category : Option String := none
  provider : Option String := none
  since : Option DateTime := none
  «until» : Option DateTime := none
  limit : Option ℕ := none

section Service
variable (acl : InMemoryAclStore) (store : InMemoryEventStore) (tenantId : String)

def readerContext (userId : String) : QueryContext where
  tenantId := tenantId
  globalUserId := userId
  -- the groups come in any order, and nobody reads it
  groupIds := (acl.getUserGroups tenantId userId).sort (· ≤ ·)

def queryEvents (params : QueryParams) : CoreResult (List CanonicalEventRecord) :=
  -- a category or provider that is not known is no filter
  store.query (readerContext acl tenantId params.userId) {
    tenantId := tenantId
    categories := (params.category.bind parseCategory).toList
    providers := (params.provider.bind SourceProvider.fromStrNameLower).toList
    resourceId := params.resourceId
    parentResourceId := params.parentResourceId
    eventType := params.eventType
    since := params.since
    «until» := params.until
    limit := params.limit.getD 100 }

def resourceState (userId resourceId : String) : Option String × Option CanonicalEventRecord :=
  let latest := store.latestStateForResource (readerContext acl tenantId userId) resourceId
  (latest.map fun e => derivePrState e.eventType, latest)

end Service

/-- Whom an answer shows an event, it may be shown. -/
theorem shown_of_query {acl : InMemoryAclStore} {store : InMemoryEventStore} {tenantId : String} {params : QueryParams}
    {answer : List CanonicalEventRecord} (h : queryEvents acl store tenantId params = .ok answer)
    {e : CanonicalEventRecord} (he : e ∈ answer) :
    store.Has tenantId e ∧ visibleEvent (readerContext acl tenantId params.userId) e = true := by
  have hmatch := InMemoryEventStore.mem_results.mp ((InMemoryEventStore.query_orderLimit h).2.subset he)
  exact ⟨.inl hmatch.stored, hmatch.visible⟩

theorem shown_of_state {acl : InMemoryAclStore} {store : InMemoryEventStore} {tenantId userId resourceId : String}
    {e : CanonicalEventRecord} (h : (resourceState acl store tenantId userId resourceId).2 = some e) :
    store.Has tenantId e ∧ visibleEvent (readerContext acl tenantId userId) e = true := by
  have hmem := List.mem_filter.mp (mem_of_maxByKey h)
  exact ⟨.inr ⟨resourceId, hmem.1⟩, hmem.2⟩

/-! ## What a user is shown -/

/-- The event was there before, or it is the payload of an authentic webhook of the tenant, as it is normalized; and
where the payload says that it is private, the user is in a default group of the tenant. -/
def RightlyShown {ι : Type} (p : IngestPipeline) (calls : ι → IngestRequest) (s₀ : IngestShared)
    (clock : DateTime → Prop) (store₀ : InMemoryEventStore) (acl : InMemoryAclStore) (tenantId userId : String)
    (e : CanonicalEventRecord) : Prop :=
  store₀.Has tenantId e ∨ (∃ m ∈ s₀.published, m.payload = .event e) ∨
    ∃ i tenant value, (calls i).tenantId = tenantId ∧ (calls i).Authentic s₀ clock ∧
      s₀.tenants.get tenantId = some tenant ∧ SentFor p tenant (calls i) e ∧
      p.fromSlice (calls i).body = .ok value ∧ e.tenantId = tenantId ∧ e.provider = (calls i).provider ∧
      (detectPrivate e.provider value = true → ∃ g ∈ tenant.defaultGroupIds, g ∈ acl.getUserGroups tenantId userId)

section Shown
variable {ι : Type} [DecidableEq ι] (p : IngestPipeline) (chrono : Chrono) (parseF64 : String → Option Int)
  (calls : ι → IngestRequest) (s₀ : IngestShared)

/-- What is sent for a tenant has its default groups, and is private if the payload says so. -/
theorem sentFor_keeps {tenant : TenantConfig} {req : IngestRequest} {event : CanonicalEventRecord}
    (h : SentFor (p.normalizing chrono parseF64).checked tenant req event) :
    ∃ value, p.fromSlice req.body = .ok value ∧ event.tenantId = tenant.tenantId ∧ event.provider = req.provider ∧
      event.acl.allowedGroupIds = tenant.defaultGroupIds ∧ event.acl.isPrivate = detectPrivate req.provider value := by
  obtain ⟨value, deliveryId, rawUri, globalUserId, aclVersion, fresh, hvalue, hevent⟩ := h
  have hkeeps := normalize_keeps ((p.normalize_normalizing chrono parseF64 value _ fresh).symm.trans hevent)
  refine ⟨value, hvalue, hkeeps.tenantId, hkeeps.provider, ?_, hkeeps.isPrivate rfl⟩
  exact hkeeps.allowedGroupIds.trans (ite_self _)

/-- Who passed an event on is authentic. -/
theorem passed_of_handed (sched : List (ι × IngestChoice)) {w : StoreWrite} {e : CanonicalEventRecord}
    (hw : w.Handed ((IngestPool.start p.checked calls s₀).run p.checked.answer sched)) (he : w.event = some e) :
    (∃ m ∈ s₀.published, m.payload = .event e) ∨
      ∃ i tenant, (calls i).Authentic s₀ (fun now => ∃ x ∈ sched, x.2.fresh.now = now) ∧
        s₀.tenants.get (calls i).tenantId = some tenant ∧ SentFor p.checked tenant (calls i) e := by
  have hgate := (atGate_run p calls s₀ sched).2
  have hsent := allSent_run p.checked calls s₀ sched
  have hevent : ∀ x ∈ ((IngestPool.start p.checked calls s₀).run p.checked.answer sched).trace,
      x.op.outside = false → x.op.passesOn = some e →
      ∃ i tenant, (calls i).Authentic s₀ (fun now => ∃ x ∈ sched, x.2.fresh.now = now) ∧
        s₀.tenants.get (calls i).tenantId = some tenant ∧ SentFor p.checked tenant (calls i) e := by
    intro x hx houtside hpasses
    obtain ⟨tenant, htenant, hfor⟩ := hsent.sent x hx e hpasses
    exact ⟨x.who, tenant, hgate.acts x hx houtside, htenant, hfor⟩
  cases w with
  | inline event =>
    obtain ⟨i, r, hmem⟩ := hw
    exact .inr (hevent _ hmem rfl he)
  | consumed m =>
    obtain ⟨topic, key, payload⟩ := m
    cases payload with
    | acl rev => cases he
    | event event =>
      obtain rfl : event = e := Option.some.inj he
      rcases hgate.published _ hw with hold | ⟨i, r, hmem⟩
      · exact .inl ⟨_, hold, rfl⟩
      · exact .inr (hevent _ hmem rfl rfl)

/-- What the store has after such writes may be shown to whoever sees it. -/
theorem rightlyShown_of_has (sched : List (ι × IngestChoice)) (store₀ : InMemoryEventStore) {writes : List StoreWrite}
    (hwrites : ∀ w ∈ writes, w.Handed ((IngestPool.start (p.normalizing chrono parseF64).checked calls s₀).run
      (p.normalizing chrono parseF64).checked.answer sched))
    {acl : InMemoryAclStore} {tenantId userId : String} {e : CanonicalEventRecord}
    (h : (writes.foldl InMemoryEventStore.write store₀).Has tenantId e ∧
      visibleEvent (readerContext acl tenantId userId) e = true) :
    RightlyShown (p.normalizing chrono parseF64).checked calls s₀ (fun now => ∃ x ∈ sched, x.2.fresh.now = now) store₀
      acl tenantId userId e := by
  rcases InMemoryEventStore.has_writes h.1 with hold | ⟨w, hw, hevent, htenant⟩
  · exact .inl hold
  rcases passed_of_handed _ calls s₀ sched (hwrites w hw) hevent with hold | ⟨i, tenant, hauthentic, hget, hsent⟩
  · exact .inr (.inl hold)
  obtain ⟨value, hvalue, hown, hprovider, hgroups, hprivate⟩ := sentFor_keeps p chrono parseF64 hsent
  have hcall : (calls i).tenantId = tenantId := by rw [← Table.key_of_get hget, ← hown, htenant]
  refine .inr (.inr ⟨i, tenant, value, hcall, hauthentic, hcall ▸ hget, hsent, hvalue, htenant, hprovider,
    fun hdetect => ?_⟩)
  have hvisible := (aclAllows_iff.mp h.2).2
  rw [hgroups, hprivate, ← hprovider, hdetect] at hvisible
  obtain ⟨g, hg, hin⟩ := hvisible.resolve_left Bool.noConfusion
  exact ⟨g, hg, (Finset.mem_sort _).mp hin⟩

/-- **From a webhook to a reader.** However the calls of the ingestion interleave and whatever their ports fail at,
whatever of their events is written in which order and how often, and whatever a user asks for. -/
theorem readers_see_sent (sched : List (ι × IngestChoice)) (store₀ : InMemoryEventStore) {writes : List StoreWrite}
    (hwrites : ∀ w ∈ writes, w.Handed ((IngestPool.start (p.normalizing chrono parseF64).checked calls s₀).run
      (p.normalizing chrono parseF64).checked.answer sched)) (acl : InMemoryAclStore) (tenantId : String) :
    (∀ params answer, queryEvents acl (writes.foldl InMemoryEventStore.write store₀) tenantId params = .ok answer →
      ∀ e ∈ answer, RightlyShown (p.normalizing chrono parseF64).checked calls s₀
        (fun now => ∃ x ∈ sched, x.2.fresh.now = now) store₀ acl tenantId params.userId e) ∧
    ∀ userId resourceId e,
      (resourceState acl (writes.foldl InMemoryEventStore.write store₀) tenantId userId resourceId).2 = some e →
      RightlyShown (p.normalizing chrono parseF64).checked calls s₀ (fun now => ∃ x ∈ sched, x.2.fresh.now = now) store₀
        acl tenantId userId e :=
  ⟨fun _ _ h _ he => rightlyShown_of_has p chrono parseF64 calls s₀ sched store₀ hwrites (shown_of_query h he),
    fun _ _ _ h => rightlyShown_of_has p chrono parseF64 calls s₀ sched store₀ hwrites (shown_of_state h)⟩

end Shown

/-! ### An issue of a hidden project -/

section Demo

/-- Dates are not read, and every body is an issue of a project that only its members see. -/
def hidingPipeline : IngestPipeline where
  authSkip := false
  verifyWebhook := verifyWebhook
  fromSlice _ := .ok (.obj [("object_kind", .str "issue"), ("project", .obj [("visibility_level", .num 0 0)])])
  normalizeOther _ _ _ := .error (.normalization "unknown")
  inlineStore := false

def undated : Chrono := ⟨fun _ => none, fun _ => none, fun _ => none, fun n _ => n⟩

def hiddenIssue (_ : Unit) : IngestRequest where
  tenantId := "acme"
  provider := .gitlab
  body := [123, 125]
  headers := { gitlabToken := some "token", deliveryId := some "d" }

def acmeDevs : IngestShared where
  tenants := Table.put ∅ { tenantId := "acme", gitlabWebhookSecret := some "token", defaultGroupIds := ["devs"] }
  dedup := .new 60
  acl := .new
  objects := []
  published := []

/-- Ann is one of the developers. -/
def annIn : InMemoryAclStore := { InMemoryAclStore.new with users := KMap.put ∅ ("acme", "ann") ⟨"ann", "", "", {"devs"}⟩ }

def tenCalm : List (Unit × IngestChoice) := List.replicate 10 ((), {})

def hidden : IngestPool Unit :=
  (IngestPool.start (hidingPipeline.normalizing undated fun _ => none).checked hiddenIssue acmeDevs).run
    (hidingPipeline.normalizing undated fun _ => none).checked.answer tenCalm

/-- Everything that was published, as the consumer writes it. -/
def hiddenWrites : List StoreWrite := hidden.shared.published.map .consumed

/-- She is shown the issue, and rightly. -/
theorem ann_sees_hidden : ∃ answer,
    queryEvents annIn (hiddenWrites.foldl InMemoryEventStore.write .new) "acme" { userId := "ann" } = .ok answer ∧
      answer.map CanonicalEventRecord.eventId = ["d"] ∧
      ∀ e ∈ answer, RightlyShown (hidingPipeline.normalizing undated fun _ => none).checked hiddenIssue acmeDevs
        (fun now => ∃ x ∈ tenCalm, x.2.fresh.now = now) .new annIn "acme" "ann" e := by
  have hids : (queryEvents annIn (hiddenWrites.foldl InMemoryEventStore.write .new) "acme" { userId := "ann" }).map
      (List.map CanonicalEventRecord.eventId) = .ok ["d"] := by decide +kernel
  have hwrites : ∀ w ∈ hiddenWrites, w.Handed hidden := by
    intro w hw
    obtain ⟨m, hm, rfl⟩ := List.mem_map.mp hw
    exact hm
  cases hanswer : queryEvents annIn (hiddenWrites.foldl InMemoryEventStore.write .new) "acme" { userId := "ann" } with
  | error e =>
    rw [hanswer] at hids
    cases hids
  | ok answer =>
    rw [hanswer] at hids
    exact ⟨answer, rfl, Except.ok.inj hids, (readers_see_sent hidingPipeline undated (fun _ => none) hiddenIssue acmeDevs
      tenCalm .new hwrites annIn "acme").1 { userId := "ann" } answer hanswer⟩

end Demo

end AiManager.Telemetry
