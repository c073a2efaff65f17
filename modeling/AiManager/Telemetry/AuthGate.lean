import AiManager.Telemetry.Auth
import AiManager.Telemetry.ZeroLoss

/-! # The gate of the ingestion

Concurrent calls of `ingest` with the checks of signatures switched on. Whoever changes anything was made with the
secret that the tenant has for the provider (`ingest_gated`), whatever the ports fail at and however the calls
interleave. -/

namespace AiManager.Telemetry

open Lib

/-- The pipeline with its check of signatures. -/
def IngestPipeline.checked (p : IngestPipeline) : IngestPipeline :=
  { p with authSkip := false, verifyWebhook := Telemetry.verifyWebhook }

/-- The request was made with the secret of its tenant for its provider. -/
def IngestRequest.AuthenticAt (req : IngestRequest) (tenants : Table TenantConfig.tenantId) (now : DateTime) : Prop :=
  ∃ tenant secret, tenants.get req.tenantId = some tenant ∧ tenant.secretFor req.provider = some secret ∧
    Signed req.provider secret req.body req.headers now

/-! ## Before the gate and behind it -/

inductive AuthPhase where
  | unknown
  | found (tenant : TenantConfig)
  | trusted

def AuthPhase.next (ph : AuthPhase) (op : IngestOp) (r : op.Res) : AuthPhase :=
  match op, r with
  | .getTenant _, .ok (some tenant) => .found tenant
  | .verifyWebhook _ _ _ _, .ok _ => .trusted
  | _, _ => ph

/-- Calls that touch nothing that is shared. -/
def IngestOp.outside : IngestOp → Bool
  | .elapsedMs | .newEventId | .readFresh | .getTenant _ | .verifyWebhook _ _ _ _ => true
  | _ => false

/-- What is behind the gate, called for the request. -/
def IngestOp.Behind (req : IngestRequest) : IngestOp → Prop
  | .elapsedMs | .newEventId | .readFresh => True
  | .getTenant _ | .verifyWebhook _ _ _ _ => False
  | .putRawPayload tenantId provider _ bytes =>
    tenantId = req.tenantId ∧ provider = req.provider.asStrNameLower ∧ bytes = req.body
  | .putDlq tenantId _ bytes => tenantId = req.tenantId ∧ bytes = req.body
  | .checkRate tenantId | .currentAclVersion tenantId | .ensureUser tenantId _ _ _ => tenantId = req.tenantId
  | _ => True

def authMonitor : Monitor IngestOp IngestOp.Res (IngestRequest × AuthPhase) where
  next q op r := (q.1, q.2.next op r)
  allows q op :=
    match op with
    | .elapsedMs | .newEventId | .readFresh => True
    | .getTenant tenantId => tenantId = q.1.tenantId
    | .verifyWebhook provider secret body headers => (provider = q.1.provider ∧ body = q.1.body ∧ headers = q.1.headers) ∧
        ∃ tenant, q.2 = .found tenant ∧ tenant.secretFor q.1.provider = some secret
    | op => q.2 = .trusted ∧ op.Behind q.1
  replies _ r := ∀ e, r = .error e → e.ofPort = true

/-! ### Behind it -/

section Behind
variable {p : IngestPipeline} {req : IngestRequest} {tenant : TenantConfig} {α β : Type}

/-- The program makes only calls that are behind the gate. -/
abbrev StaysBehind (req : IngestRequest) (prog : IngestM α) : Prop := prog.run.CallsOnly (IngestOp.Behind req)

theorem ask_behind {op : IngestOp} (h : op.Behind req) : StaysBehind req (ask op) := callsOnly_ask h

theorem ask_bind_behind {op : IngestOp} {f : op.Val → IngestM α} (h : op.Behind req) (hf : ∀ a, StaysBehind req (f a)) :
    StaysBehind req (ask op >>= f) :=
  (ask_behind h).exceptT_bind hf

theorem attempt_bind_behind {prog : IngestM α} {f : CoreResult α → IngestM β} (h : StaysBehind req prog)
    (hf : ∀ r, StaysBehind req (f r)) : StaysBehind req (attempt prog >>= f) :=
  (callsOnly_attempt h).exceptT_bind hf

theorem resolveSender_behind (value : Json) : StaysBehind req (IngestPipeline.resolveSender req value) := by
  unfold IngestPipeline.resolveSender
  dsimp only
  split_ifs
  · exact trivial
  · exact ask_behind rfl

theorem normalizeAndEnrich_behind (deliveryId rawUri : String) :
    StaysBehind req (p.normalizeAndEnrich tenant req deliveryId rawUri) := by
  unfold IngestPipeline.normalizeAndEnrich
  split
  · exact trivial
  · next value _ =>
    refine (resolveSender_behind value).exceptT_bind fun globalUserId => ?_
    refine ask_bind_behind rfl fun aclVersion => ?_
    refine ask_bind_behind trivial fun fresh => ?_
    split <;> exact trivial

theorem publishRevocation_behind (event : CanonicalEventRecord) :
    StaysBehind req (IngestPipeline.publishRevocation event) := by
  unfold IngestPipeline.publishRevocation
  split_ifs
  · refine ask_bind_behind trivial fun fresh => ?_
    split
    · exact trivial
    · exact attempt_bind_behind (ask_behind trivial) fun _ => ask_behind trivial
  · exact trivial

theorem publishEvent_behind (event : CanonicalEventRecord) : StaysBehind req (p.publishEvent req event) := by
  unfold IngestPipeline.publishEvent
  refine ask_bind_behind trivial fun _ => ?_
  refine ask_bind_behind trivial fun _ => ?_
  split_ifs
  · exact ask_bind_behind trivial fun _ => trivial
  · exact trivial

theorem deadLetter_behind (deliveryId : String) : StaysBehind req (IngestPipeline.deadLetter req deliveryId) :=
  attempt_bind_behind (ask_behind ⟨rfl, rfl⟩) fun _ => trivial

theorem processClaimed_behind (deliveryId : String) : StaysBehind req (p.processClaimed tenant req deliveryId) := by
  unfold IngestPipeline.processClaimed
  refine attempt_bind_behind (ask_behind ⟨rfl, rfl, rfl⟩) fun stored => ?_
  refine attempt_bind_behind (normalizeAndEnrich_behind deliveryId _) fun result => ?_
  cases result with
  | error e => exact deadLetter_behind deliveryId
  | ok event => exact (publishRevocation_behind event).exceptT_bind fun _ => publishEvent_behind event

theorem processOrRelease_behind (deliveryId : String) : StaysBehind req (p.processOrRelease tenant req deliveryId) := by
  refine attempt_bind_behind (processClaimed_behind deliveryId) fun result => ?_
  have hrelease : ∀ e : CoreError,
      StaysBehind req (do let _ ← attempt (ask (.release deliveryId)); throw e : IngestM IngestOutcome) :=
    fun e => attempt_bind_behind (ask_behind trivial) fun _ => trivial
  cases result with
  | ok outcome => exact trivial
  | error e =>
    cases e with
    | deadLetter text => exact trivial
    | _ => exact hrelease _

/-- What comes after the check. -/
theorem rest_behind : StaysBehind req (do
    ask (.checkRate req.tenantId)
    let eventId ← IngestPipeline.deliveryId req
    let first ← ask (.tryClaim eventId)
    if first then p.processOrRelease tenant req eventId
    else return ⟨eventId, .duplicate, 0⟩ : IngestM IngestOutcome) := by
  refine ask_bind_behind rfl fun _ => ?_
  refine Prog.CallsOnly.exceptT_bind ?_ fun eventId => ?_
  · unfold IngestPipeline.deliveryId
    split
    · exact trivial
    · exact ask_behind trivial
  · refine ask_bind_behind trivial fun first => ?_
    split_ifs
    · exact processOrRelease_behind eventId
    · exact trivial

theorem allows_behind {op : IngestOp} (h : op.Behind req) : authMonitor.allows (req, .trusted) op := by
  cases op <;> first | exact trivial | exact h.elim | exact ⟨rfl, h⟩

theorem next_behind {op : IngestOp} (h : op.Behind req) (r : op.Res) :
    authMonitor.next (req, .trusted) op r = (req, .trusted) := by
  cases op <;> first | rfl | exact h.elim

/-- Behind the gate a call stays there. -/
theorem behind_meets {prog : IngestM α} (h : StaysBehind req prog) :
    prog.run.Meets authMonitor (fun _ q => q = (req, .trusted)) (req, .trusted) :=
  h.meets (fun _ => allows_behind) fun _ r h => next_behind h r

end Behind

/-! ### Through it -/

/-- A request that was not checked gets an error, of a port or of the check. -/
def Passed {α : Type} (req : IngestRequest) (r : CoreResult α) (q : IngestRequest × AuthPhase) : Prop :=
  q.1 = req ∧ ((∃ e, r = .error e ∧ e.ofPort = true) ∨ q.2 = .trusted)

section Through
variable {p : IngestPipeline} {req : IngestRequest} {tenant : TenantConfig} {α : Type} {ph : AuthPhase}

theorem passed_error {e : CoreError} (he : e.ofPort = true) : Passed req (.error e : CoreResult α) (req, ph) :=
  ⟨rfl, .inl ⟨e, rfl, he⟩⟩

theorem passed_trusted {r : CoreResult α} : Passed req r (req, .trusted) := ⟨rfl, .inr rfl⟩

theorem authenticate_passed :
    (p.checked.authenticate tenant req).run.Meets authMonitor (Passed req) (req, .found tenant) := by
  unfold IngestPipeline.authenticate
  rw [if_neg (show ¬ p.checked.authSkip = true from Bool.false_ne_true)]
  cases hsecret : tenant.secretFor req.provider with
  | none => exact passed_error rfl
  | some secret =>
    refine ask_meets ⟨⟨rfl, rfl, rfl⟩, tenant, rfl, hsecret⟩ fun r hr => ?_
    cases r with
    | ok u => exact passed_trusted
    | error e => exact passed_error (hr e rfl)

theorem ingestInner_passed : (p.checked.ingestInner req).run.Meets authMonitor (Passed req) (req, .unknown) := by
  unfold IngestPipeline.ingestInner
  split_ifs
  · exact passed_error rfl
  · refine ask_bind_meets rfl (fun found _ => ?_) fun e he => passed_error (he e rfl)
    cases found with
    | none => exact passed_error rfl
    | some tenant =>
      refine bind_meets authenticate_passed (fun _ q hq => ?_) fun e q hq => hq.imp_right fun h => ?_
      · obtain rfl : q = (req, .trusted) := by
          refine Prod.ext hq.1 (hq.2.resolve_left ?_)
          rintro ⟨e, he, -⟩
          cases he
        refine (behind_meets rest_behind).mono fun r q hq => ?_
        rw [hq]
        exact passed_trusted
      · refine h.imp_left ?_
        rintro ⟨e', he, hport⟩
        cases he
        exact ⟨e, rfl, hport⟩

/-- A call of `ingest` is unknown at first; that it is answered for, or anything is done for it, comes after its
check. -/
theorem ingest_passed : (p.checked.ingest req).run.Meets authMonitor (Passed req) (req, .unknown) := by
  refine attempt_bind_meets ingestInner_passed fun result q hq => ?_
  obtain ⟨q, ph⟩ := q
  obtain rfl : q = req := hq.1
  refine ask_bind_meets trivial (fun latencyMs _ => ?_) fun e he => passed_error (he e rfl)
  rcases hq.2 with ⟨e, rfl, hport⟩ | htrusted
  · have hthrow : (throw e : IngestM IngestOutcome).run.Meets authMonitor (Passed q) (q, ph) := passed_error hport
    cases e with
    | duplicate eventId => cases hport
    | _ => exact hthrow
  · obtain rfl : ph = .trusted := htrusted
    have hend : ∀ r : CoreResult IngestOutcome, Passed q r (q, .trusted) := fun r => passed_trusted
    cases result with
    | ok outcome => exact hend _
    | error e => cases e <;> exact hend _

end Through

/-! ## What a call changes -/

section Changes
variable {p : IngestPipeline} {c : IngestChoice} {op : IngestOp} {r : op.Res} {s s' : IngestShared}

/-- Either state is one that the performed call leaves, or nothing happened. -/
theorem answer_state (h : p.answer c op s = some (r, s')) : s' = (s.perform p c op).2 ∨ s' = s := by
  obtain ⟨-, hperform⟩ | ⟨e, -, -, -, rfl⟩ := answer_cases h
  · exact .inl (Prod.mk.inj hperform).2
  · split_ifs
    · exact .inl rfl
    · exact .inr rfl

theorem answer_outside (h : p.answer c op s = some (r, s')) (hop : op.outside = true) : s' = s := by
  rcases answer_state h with rfl | rfl
  · cases op <;> first | rfl | cases hop
  · rfl

theorem answer_tenants (h : p.answer c op s = some (r, s')) : s'.tenants = s.tenants := by
  rcases answer_state h with rfl | rfl
  · cases op <;> rfl
  · rfl

theorem answer_objects (h : p.answer c op s = some (r, s')) {o : StoredObject} (ho : o ∈ s'.objects) :
    o ∈ s.objects ∨ (∃ t pr id b, op = .putRawPayload t pr id b ∧ o = .rawPayload t pr id b) ∨
      ∃ t reason b, op = .putDlq t reason b ∧ o = .dlq t reason b := by
  rcases answer_state h with rfl | rfl
  · cases op with
    | putRawPayload t pr id b =>
      exact (List.mem_cons.mp ho).elim (fun heq => .inr (.inl ⟨t, pr, id, b, rfl, heq⟩)) .inl
    | putDlq t reason b => exact (List.mem_cons.mp ho).elim (fun heq => .inr (.inr ⟨t, reason, b, rfl, heq⟩)) .inl
    | _ => exact .inl ho
  · exact .inl ho

theorem answer_published (h : p.answer c op s = some (r, s')) {m : BusMessage} (hm : m ∈ s'.published) :
    m ∈ s.published ∨ op = .publish m := by
  rcases answer_state h with rfl | rfl
  · cases op with
    | publish message => exact (List.mem_cons.mp hm).elim (fun heq => .inr (by rw [heq])) .inl
    | _ => exact .inl hm
  · exact .inl hm

/-- Who is known was found among the tenants. -/
theorem next_found {ph : AuthPhase} {tenant : TenantConfig} (h : ph.next op r = .found tenant)
    (hs : p.answer c op s = some (r, s')) :
    ph = .found tenant ∨ ∃ tenantId, op = .getTenant tenantId ∧ s.tenants.get tenantId = some tenant := by
  cases op with
  | getTenant tenantId =>
    cases r with
    | error e => exact .inl h
    | ok found =>
      have hget : found = s.tenants.get tenantId := Except.ok.inj (Prod.mk.inj (answer_ok hs).2).1
      cases found with
      | none => exact .inl h
      | some t =>
        obtain rfl : t = tenant := AuthPhase.found.inj h
        exact .inr ⟨tenantId, rfl, hget.symm⟩
  | verifyWebhook provider secret body headers =>
    cases r with
    | error e => exact .inl h
    | ok u => cases h
  | _ => exact .inl h

/-- Who is trusted passed the check at the time of the clock. -/
theorem next_trusted {ph : AuthPhase} (h : ph.next op r = .trusted) (hs : p.answer c op s = some (r, s')) :
    ph = .trusted ∨ ∃ provider secret body headers, op = .verifyWebhook provider secret body headers ∧
      p.verifyWebhook provider secret body headers c.fresh.now = .ok () := by
  cases op with
  | getTenant tenantId =>
    cases r with
    | error e => exact .inl h
    | ok found =>
      cases found with
      | none => exact .inl h
      | some t => cases h
  | verifyWebhook provider secret body headers =>
    cases r with
    | error e => exact .inl h
    | ok u =>
      have hverify : (p.verifyWebhook provider secret body headers c.fresh.now).mapError CoreError.auth = .ok u :=
        (Prod.mk.inj (answer_ok hs).2).1.symm
      refine .inr ⟨provider, secret, body, headers, rfl, ?_⟩
      cases hresult : p.verifyWebhook provider secret body headers c.fresh.now with
      | ok u => rfl
      | error e =>
        rw [hresult] at hverify
        cases hverify
  | _ => exact .inl h

end Changes

/-! ## Runs -/

/-- At some time of the run the request was one that is accepted. -/
def IngestRequest.Authentic (req : IngestRequest) (s₀ : IngestShared) (clock : DateTime → Prop) : Prop :=
  ∃ now, clock now ∧ req.AuthenticAt s₀.tenants now

/-- The object is what a request sent. -/
def StoredObject.IsOf (req : IngestRequest) : StoredObject → Prop
  | .rawPayload tenantId provider _ bytes =>
    tenantId = req.tenantId ∧ provider = req.provider.asStrNameLower ∧ bytes = req.body
  | .dlq tenantId _ bytes => tenantId = req.tenantId ∧ bytes = req.body

section Runs
variable {ι : Type} [DecidableEq ι] {p : IngestPipeline} {calls : ι → IngestRequest} {s₀ : IngestShared}
  {clock : DateTime → Prop} {pool : IngestPool ι} {i : ι} {c : IngestChoice} {op : IngestOp} {r : op.Res}
  {s : IngestShared} {k : op.Res → Prog IngestOp IngestOp.Res (CoreResult IngestOutcome)}

def authPhaseOf (pool : IngestPool ι) (i : ι) : AuthPhase := watch AuthPhase.next .unknown i pool.trace

theorem watch_authMonitor (q : IngestRequest × AuthPhase) (tr : List (IngestEvent ι)) :
    watch authMonitor.next q i tr = (q.1, watch AuthPhase.next q.2 i tr) :=
  watch_pair _ _ _ _

/-- How far each call is, and what was done by whom. -/
structure AtGate (calls : ι → IngestRequest) (s₀ : IngestShared) (clock : DateTime → Prop) (pool : IngestPool ι) :
    Prop where
  tenants : pool.shared.tenants = s₀.tenants
  found : ∀ i tenant, authPhaseOf pool i = .found tenant → s₀.tenants.get (calls i).tenantId = some tenant
  trusted : ∀ i, authPhaseOf pool i = .trusted → (calls i).Authentic s₀ clock
  acts : ∀ e ∈ pool.trace, e.op.outside = false → (calls e.who).Authentic s₀ clock
  objects : ∀ o ∈ pool.shared.objects, o ∈ s₀.objects ∨ ∃ i, (calls i).Authentic s₀ clock ∧ o.IsOf (calls i)
  published : ∀ m ∈ pool.shared.published, m ∈ s₀.published ∨
    ∃ i res, (⟨i, .publish m, res⟩ : IngestEvent ι) ∈ pool.trace
  untouched : (∀ i, ¬ (calls i).Authentic s₀ clock) → pool.shared = s₀

/-- A call that is made behind the gate is made for an authentic request. -/
theorem AtGate.of_allowed (h : AtGate calls s₀ clock pool) (hop : op.outside = false)
    (hallows : authMonitor.allows (calls i, authPhaseOf pool i) op) :
    (calls i).Authentic s₀ clock ∧ op.Behind (calls i) := by
  have hbehind : authPhaseOf pool i = .trusted ∧ op.Behind (calls i) := by
    cases op <;> first | exact hallows | cases hop
  exact ⟨h.trusted i hbehind.1, hbehind.2⟩

/-- **One step.** -/
theorem AtGate.after (h : AtGate calls s₀ clock pool) (hclock : clock c.fresh.now)
    (hs : p.checked.answer c op pool.shared = some (r, s))
    (hallows : authMonitor.allows (calls i, authPhaseOf pool i) op) :
    AtGate calls s₀ clock (pool.after i op r k s) := by
  have hself : authPhaseOf (pool.after i op r k s) i = (authPhaseOf pool i).next op r := watch_cons_self _ _ _ _ _ _
  have hother : ∀ j, j ≠ i → authPhaseOf (pool.after i op r k s) j = authPhaseOf pool j :=
    fun j hj => watch_cons_ne _ _ (Ne.symm hj) _ _ _
  constructor
  case tenants => exact (answer_tenants hs).trans h.tenants
  case found =>
    intro j tenant hj
    by_cases hji : j = i
    · rw [hji] at hj ⊢
      rw [hself] at hj
      rcases next_found hj hs with hold | ⟨tenantId, rfl, hget⟩
      · exact h.found i tenant hold
      · have htenant : tenantId = (calls i).tenantId := hallows
        rw [← htenant, ← h.tenants]
        exact hget
    · rw [hother j hji] at hj
      exact h.found j tenant hj
  case trusted =>
    intro j hj
    by_cases hji : j = i
    · rw [hji] at hj ⊢
      rw [hself] at hj
      rcases next_trusted hj hs with hold | ⟨provider, secret, body, headers, rfl, hverify⟩
      · exact h.trusted i hold
      · obtain ⟨⟨rfl, rfl, rfl⟩, tenant, hfound, hsecret⟩ := hallows
        exact ⟨_, hclock, tenant, secret, h.found i tenant hfound, hsecret, verifyWebhook_ok_iff.mp hverify⟩
    · rw [hother j hji] at hj
      exact h.trusted j hj
  case acts =>
    intro e he hop
    rcases List.mem_cons.mp he with rfl | he
    · exact (h.of_allowed hop hallows).1
    · exact h.acts e he hop
  case objects =>
    intro o ho
    rcases answer_objects hs ho with hold | ⟨t, pr, id, b, rfl, rfl⟩ | ⟨t, reason, b, rfl, rfl⟩
    · exact h.objects o hold
    · exact .inr ⟨i, h.of_allowed rfl hallows⟩
    · exact .inr ⟨i, h.of_allowed rfl hallows⟩
  case published =>
    intro m hm
    rcases answer_published hs hm with hold | rfl
    · refine (h.published m hold).imp_right ?_
      rintro ⟨j, res, hmem⟩
      exact ⟨j, res, List.mem_cons_of_mem _ hmem⟩
    · exact .inr ⟨i, r, List.mem_cons_self⟩
  case untouched =>
    intro hnone
    have hop : op.outside = true := by
      rw [← Bool.not_eq_false]
      exact fun hop => hnone i (h.of_allowed hop hallows).1
    exact (answer_outside hs hop).trans (h.untouched hnone)

end Runs

section Runs
variable {ι : Type} [DecidableEq ι]

theorem atGate_start (p : IngestPipeline) (calls : ι → IngestRequest) (s₀ : IngestShared) (clock : DateTime → Prop) :
    AtGate calls s₀ clock (IngestPool.start p calls s₀) := by
  constructor
  case tenants => rfl
  case found =>
    intro i tenant h
    cases h
  case trusted =>
    intro i h
    cases h
  case acts =>
    intro e he
    cases he
  case objects => exact fun o ho => .inl ho
  case published => exact fun m hm => .inl hm
  case untouched => exact fun _ => rfl

theorem atGate_run (p : IngestPipeline) (calls : ι → IngestRequest) (s₀ : IngestShared)
    (sched : List (ι × IngestChoice)) :
    ((IngestPool.start p.checked calls s₀).run p.checked.answer sched).Tracks authMonitor
      (fun i r q => Passed (calls i) r q) (fun i => (calls i, .unknown)) ∧
    AtGate calls s₀ (fun now => ∃ x ∈ sched, x.2.fresh.now = now)
      ((IngestPool.start p.checked calls s₀).run p.checked.answer sched) := by
  refine Pool.run_induction (I := AtGate calls s₀ fun now => ∃ x ∈ sched, x.2.fresh.now = now) (C := fun _ _ => True)
    (P := fun c => ∃ x ∈ sched, x.2.fresh.now = c.fresh.now) (fun _ _ _ _ _ _ _ hs e he => answer_ofPort hs he) ?_
    (fun i => ingest_passed) (atGate_start _ _ _ _) sched
    (fun x hx => ⟨x, hx, rfl⟩) (.of_forall (fun _ _ => trivial) _ _)
  intro pool i c op k r s _ hI hc _ _ hs _ hallows _
  rw [watch_authMonitor] at hallows
  exact hI.after hc hs hallows

end Runs

end AiManager.Telemetry
