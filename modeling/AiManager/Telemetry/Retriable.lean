import AiManager.Telemetry.Github
import AiManager.Telemetry.Pipeline

/-! # Failures that a retry makes good

A delivery that could be read, but met a failing service, is to fail with its claim given back, so that the same
delivery is accepted later; dead letters are for payloads that cannot be read. What a call of `ingest` comes to is
`IngestEnd`, and when it keeps to this is `retriable_iff`: the lookup of the sender must not fail, and where a message
could not be published the claim must really be given back. -/

namespace AiManager.Telemetry

open Lib

/-! ## What befell a call -/

/-- What the environment did to a call of `ingest`. -/
structure IngestCourse where
  /-- the delivery id that was to be claimed -/
  tried : Option String := none
  userFailed : Bool := false
  publishFailed : Bool := false
  /-- the release failed before it did anything -/
  releaseFailed : Bool := false
  deriving DecidableEq

/-- The port does not do what it is asked for, or does not say so. -/
def IngestChoice.fails (c : IngestChoice) : Bool := c.fault.isSome

def IngestCourse.next (q : IngestCourse) (c : IngestChoice) : IngestOp → IngestCourse
  | .tryClaim eventId => { q with tried := some eventId }
  | .ensureUser _ _ _ _ => { q with userFailed := q.userFailed || c.fails }
  | .publish _ => { q with publishFailed := q.publishFailed || c.fails }
  | .release _ => { q with releaseFailed := q.releaseFailed || c.fails && !c.late }
  | _ => q

/-- The delivery id that the request came with. -/
def IngestRequest.givenId (req : IngestRequest) : Option String := req.headers.deliveryId.filter fun s => s ≠ ""

namespace IngestPipeline
variable (p : IngestPipeline)

def course (req : IngestRequest) (cs : ℕ → IngestChoice) (s : IngestShared) : IngestCourse :=
  (p.ingest req).run.notes IngestCourse.next p.answer cs s {}

/-! ## What a call owes -/

/-- An event that the payload can become. -/
def ReadAs (tenant : TenantConfig) (req : IngestRequest) (event : CanonicalEventRecord) : Prop :=
  ∃ value deliveryId rawUri globalUserId aclVersion fresh, p.fromSlice req.body = .ok value ∧
    p.normalize value (context tenant req deliveryId rawUri globalUserId aclVersion value) fresh = .ok event

/-- The payload becomes an event, whatever else is known. -/
def Normalizable (tenant : TenantConfig) (req : IngestRequest) : Prop :=
  ∃ value, p.fromSlice req.body = .ok value ∧ ∀ deliveryId rawUri globalUserId aclVersion fresh, ∃ event,
    p.normalize value (context tenant req deliveryId rawUri globalUserId aclVersion value) fresh = .ok event

/-- No port fails, the delivery verifies, and a new id is new. -/
structure Healthy (tenant : TenantConfig) (req : IngestRequest) (s : IngestShared) (c : IngestChoice) : Prop where
  fault : c.fault = none
  verifies : p.authSkip = false → ∃ secret, tenant.secretFor req.provider = some secret ∧
    p.verifyWebhook req.provider secret req.body req.headers c.fresh.now = .ok ()
  fresh : req.givenId = none → s.dedup.entries.get c.fresh.eventId = none

/-- The call accepted the delivery, and then its event was published on both topics. -/
def Published (tenant : TenantConfig) (req : IngestRequest) (s : IngestShared) (r : CoreResult IngestOutcome)
    (s' : IngestShared) : Prop :=
  ∃ outcome event earlier, r = .ok outcome ∧ outcome.status = .accepted ∧ outcome.eventId = event.eventId ∧
    p.ReadAs tenant req event ∧ s.published <:+ earlier ∧
    s'.published = ⟨if req.isBackfill then .eventsBackfill else .eventsRealtime, event.tenantId, .event event⟩ ::
      ⟨.eventsRaw, event.tenantId, .event event⟩ :: earlier

/-- The tenant is as it was, and nobody has come with the delivery id since. -/
structure Later (tenant : TenantConfig) (req : IngestRequest) (s s₂ : IngestShared) : Prop where
  tenant : s₂.tenants.get req.tenantId = some tenant
  unclaimed : ∀ id, req.givenId = some id → s₂.dedup.entries.get id = s.dedup.entries.get id

/-- The call of the tenant that ended with `r` in `s`. -/
structure Retriable (tenant : TenantConfig) (req : IngestRequest) (course : IngestCourse)
    (r : CoreResult IngestOutcome) (s : IngestShared) : Prop where
  error : p.Normalizable tenant req → course.userFailed = true ∨ course.publishFailed = true → ∃ e, r = .error e
  unclaimed : p.Normalizable tenant req → course.userFailed = true ∨ course.publishFailed = true →
    ∃ id, course.tried = some id ∧ s.dedup.entries.get id = none
  redelivered : p.Normalizable tenant req → course.userFailed = true ∨ course.publishFailed = true →
    ∀ s₂ cs₂, Later tenant req s s₂ → (∀ n, p.Healthy tenant req s₂ (cs₂ n)) →
      ∃ r₂ s₂', (p.ingest req).run.exec p.answer cs₂ s₂ = some (r₂, s₂') ∧ p.Published tenant req s₂ r₂ s₂'
  deadLetter : ∀ outcome, r = .ok outcome → outcome.status = .deadLettered →
    ¬ p.Normalizable tenant req ∧ ∃ id, course.tried = some id ∧ s.dedup.entries.has id = true

end IngestPipeline

/-! ## One call -/

section Call
variable {p : IngestPipeline} {c : IngestChoice} {op : IngestOp} {r : op.Res} {s s' : IngestShared}
  {t t' : IngestShared × IngestCourse}

/-- Every call is answered. -/
theorem answer_total (c : IngestChoice) (op : IngestOp) (s : IngestShared) :
    ∃ r s', p.answer c op s = some (r, s') := by
  unfold IngestPipeline.answer
  split
  · exact ⟨_, _, rfl⟩
  · exact ⟨_, _, rfl⟩

/-- A part of the pipeline with the notes that are taken; `R` is where it can end. -/
abbrev Comes {α : Type} (p : IngestPipeline) (t : IngestShared × IngestCourse)
    (R : CoreResult α → IngestShared × IngestCourse → Prop) (prog : IngestM α) : Prop :=
  prog.run.Ensures (Prog.noting IngestCourse.next p.answer) (fun _ => True) R t

/-- Calls that touch neither the claims nor the course. -/
def IngestOp.plain : IngestOp → Bool
  | .tryClaim _ | .ensureUser _ _ _ _ | .publish _ | .release _ => false
  | _ => true

/-- Calls that touch the claims. -/
def IngestOp.claims : IngestOp → Bool
  | .tryClaim _ | .release _ => true
  | _ => false

theorem answer_dedup (hclaims : op.claims = false) (h : p.answer c op s = some (r, s')) : s'.dedup = s.dedup := by
  have hperform : (s.perform p c op).2.dedup = s.dedup := by
    cases op <;> first | rfl | cases hclaims
  obtain ⟨-, heq⟩ | ⟨e, -, -, -, rfl⟩ := answer_cases h
  · rw [← heq] at hperform
    exact hperform
  · split_ifs
    · exact hperform
    · rfl

/-- Nothing happened that a retry could depend on. -/
def Alike (t t' : IngestShared × IngestCourse) : Prop := t'.1.dedup = t.1.dedup ∧ t'.2 = t.2

theorem ask_plain (h : op.plain = true) :
    Comes p t (fun r t' => Alike t t' ∧ ∀ e, r = .error e → e.ofPort = true) (ask op) := by
  apply ask_ensures
  intro c r t' _ hs
  rw [Prog.noting_eq_some] at hs
  obtain ⟨hanswer, hnext⟩ := hs
  refine ⟨⟨?_, ?_⟩, ?_⟩
  · apply answer_dedup _ hanswer
    cases op <;> first | rfl | cases h
  · rw [hnext]
    cases op <;> first | rfl | cases h
  · intro e he
    exact answer_ofPort hanswer he

/-- A call that cannot fail. -/
theorem ask_sure (h : op.plain = true)
    (hperform : ∀ (c : IngestChoice) (s : IngestShared), ∃ a, (s.perform p c op).1 = .ok a)
    (hfallible : op.fallible = false) {β : Type} {f : op.Val → IngestM β}
    {R : CoreResult β → IngestShared × IngestCourse → Prop} (hf : ∀ a t', Alike t t' → Comes p t' R (f a)) :
    Comes p t R (ask op >>= f) := by
  have hask : Comes p t (fun r t' => Alike t t' ∧ ∃ a, r = .ok a) (ask op) := by
    apply ask_ensures
    intro c r t' _ hs
    have halike := (ask_plain (p := p) (t := t) h) c r t' trivial hs
    rw [Prog.noting_eq_some] at hs
    obtain ⟨-, heq⟩ | ⟨e, hfall, -⟩ := answer_cases hs.1
    · obtain ⟨a, ha⟩ := hperform c t.1
      rw [← heq] at ha
      exact ⟨halike.1, a, ha⟩
    · rw [hfallible] at hfall
      cases hfall
  apply bind_ensures hask
  · intro a t' ht
    exact hf a t' ht.1
  · intro e t' ht
    obtain ⟨-, a, ha⟩ := ht
    cases ha

end Call

/-! ## What the parts come to -/

section Parts
variable {p : IngestPipeline} {tenant : TenantConfig} {req : IngestRequest} {id : String}
  {t : IngestShared × IngestCourse}

/-- The end of a part that leaves the claims alone; `q` is the course if it fails. -/
def Undoes {α : Type} (t : IngestShared × IngestCourse) (q : IngestCourse) (r : CoreResult α)
    (t' : IngestShared × IngestCourse) : Prop :=
  t'.1.dedup = t.1.dedup ∧ match r with
    | .ok _ => t'.2 = t.2
    | .error e => e.ofPort = true ∧ t'.2 = q

/-- A call whose failure the course takes down. -/
theorem ask_undoes {op : IngestOp} {q : IngestCourse} (hclaims : op.claims = false)
    (hfallible : op.fallible = true)
    (hperform : ∀ (c : IngestChoice) (s : IngestShared), ∃ a, (s.perform p c op).1 = .ok a)
    (hnext : ∀ c : IngestChoice, t.2.next c op = if c.fails then q else t.2) :
    Comes p t (Undoes t q) (ask op) := by
  apply ask_ensures
  intro c r t' _ hs
  rw [Prog.noting_eq_some, hnext c] at hs
  obtain ⟨hanswer, hcourse⟩ := hs
  refine ⟨answer_dedup hclaims hanswer, ?_⟩
  obtain ⟨hfault, heq⟩ | ⟨e, -, hfault, rfl, -⟩ := answer_cases hanswer
  · obtain ⟨a, ha⟩ := hperform c t.1
    rw [← heq] at ha
    cases ha
    simpa [IngestChoice.fails, hfault hfallible] using hcourse
  · refine ⟨e.2, ?_⟩
    simpa [IngestChoice.fails, hfault] using hcourse

theorem ensureUser_comes {tenantId providerUserId email displayName : String} :
    Comes p t (Undoes t { t.2 with userFailed := true })
      (ask (.ensureUser tenantId providerUserId email displayName)) := by
  apply ask_undoes rfl rfl
  · intro c s
    exact ⟨_, rfl⟩
  · intro c
    cases hc : c.fails <;> simp [IngestCourse.next, hc]

theorem publish_comes {message : BusMessage} :
    Comes p t (Undoes t { t.2 with publishFailed := true }) (ask (.publish message)) := by
  apply ask_undoes rfl rfl
  · intro c s
    exact ⟨_, rfl⟩
  · intro c
    cases hc : c.fails <;> simp [IngestCourse.next, hc]

theorem resolveSender_comes {value : Json} :
    Comes p t (Undoes t { t.2 with userFailed := true }) (IngestPipeline.resolveSender req value) := by
  unfold IngestPipeline.resolveSender
  dsimp only
  split_ifs
  · exact ⟨rfl, rfl⟩
  · exact ensureUser_comes

/-- The event, or the reason why there is none: the sender could not be looked up, or the payload could not be
read. -/
def Enriches (p : IngestPipeline) (tenant : TenantConfig) (req : IngestRequest) (t : IngestShared × IngestCourse)
    (r : CoreResult CanonicalEventRecord) (t' : IngestShared × IngestCourse) : Prop :=
  t'.1.dedup = t.1.dedup ∧ match r with
    | .ok _ => t'.2 = t.2
    | .error _ => t'.2 = { t.2 with userFailed := true } ∨ t'.2 = t.2 ∧ ¬ p.Normalizable tenant req

theorem normalizeAndEnrich_comes {deliveryId rawUri : String} :
    Comes p t (Enriches p tenant req t) (p.normalizeAndEnrich tenant req deliveryId rawUri) := by
  unfold IngestPipeline.normalizeAndEnrich
  split
  · next e hslice =>
    refine ⟨rfl, .inr ⟨rfl, ?_⟩⟩
    rintro ⟨value, hvalue, -⟩
    rw [hslice] at hvalue
    cases hvalue
  · next value hvalue =>
    apply bind_ensures resolveSender_comes
    · intro globalUserId t₁ h₁
      apply ask_sure rfl (fun _ _ => ⟨_, rfl⟩) rfl
      intro aclVersion t₂ h₂
      apply ask_sure rfl (fun _ _ => ⟨_, rfl⟩) rfl
      intro fresh t₃ h₃
      have hdedup : t₃.1.dedup = t.1.dedup := (h₃.1.trans h₂.1).trans h₁.1
      have hcourse : t₃.2 = t.2 := (h₃.2.trans h₂.2).trans h₁.2
      generalize hresult : p.normalize value _ fresh = result
      cases result with
      | ok event => exact ⟨hdedup, hcourse⟩
      | error e =>
        refine ⟨hdedup, .inr ⟨hcourse, ?_⟩⟩
        rintro ⟨value', hvalue', hreads⟩
        obtain rfl : value = value' := Except.ok.inj (hvalue.symm.trans hvalue')
        obtain ⟨event, hevent⟩ := hreads deliveryId rawUri globalUserId aclVersion fresh
        rw [hresult] at hevent
        cases hevent
    · intro e t₁ h₁
      exact ⟨h₁.1, .inl h₁.2.2⟩

theorem publishRevocation_comes {event : CanonicalEventRecord} :
    Comes p t (Undoes t { t.2 with publishFailed := true }) (IngestPipeline.publishRevocation event) := by
  unfold IngestPipeline.publishRevocation
  split_ifs
  · apply ask_sure rfl (fun _ _ => ⟨_, rfl⟩) rfl
    intro fresh t₁ h₁
    split
    · exact h₁
    · apply attempt_bind_ensures (ask_plain rfl)
      intro r t₂ h₂
      have halike : Alike t t₂ := ⟨h₂.1.1.trans h₁.1, h₂.1.2.trans h₁.2⟩
      apply publish_comes.mono
      intro r t₃ h₃
      unfold Undoes at h₃ ⊢
      rw [halike.1, halike.2] at h₃
      exact h₃
  · exact ⟨rfl, rfl⟩

theorem publishEvent_comes {s : IngestShared} {q : IngestCourse} (hq : q.publishFailed = false)
    {event : CanonicalEventRecord} :
    Comes p (s, q) (fun r t' => t'.1.dedup = s.dedup ∧ match r with
      | .ok outcome => outcome.status = .accepted ∧ t'.2 = q
      | .error e => e.ofPort = true ∧ ∃ b, t'.2 = { q with publishFailed := b }) (p.publishEvent req event) := by
  unfold IngestPipeline.publishEvent
  apply bind_ensures publish_comes
  · intro _ t₁ h₁
    apply bind_ensures publish_comes
    · intro _ t₂ h₂
      have hdedup : t₂.1.dedup = s.dedup := h₂.1.trans h₁.1
      have hcourse : t₂.2 = q := h₂.2.trans h₁.2
      split_ifs
      · apply bind_ensures (ask_plain rfl)
        · intro _ t₃ h₃
          exact ⟨h₃.1.1.trans hdedup, rfl, h₃.1.2.trans hcourse⟩
        · intro e t₃ h₃
          refine ⟨h₃.1.1.trans hdedup, h₃.2 e rfl, false, ?_⟩
          rw [h₃.1.2, hcourse, ← hq]
      · exact ⟨hdedup, rfl, hcourse⟩
    · intro e t₂ h₂
      refine ⟨h₂.1.trans h₁.1, h₂.2.1, true, ?_⟩
      rw [h₂.2.2, h₁.2]
  · intro e t₁ h₁
    exact ⟨h₁.1, h₁.2.1, true, h₁.2.2⟩

/-! ## What a call comes to -/

/-- How a call ends that holds a claim of the id, before a release. -/
def Processes (p : IngestPipeline) (tenant : TenantConfig) (req : IngestRequest) (id : String) (s : IngestShared)
    (r : CoreResult IngestOutcome) (t : IngestShared × IngestCourse) : Prop :=
  t.1.dedup = s.dedup ∧ match r with
    | .ok outcome =>
      outcome.status = .accepted ∧ t.2 = { tried := some id } ∨
      outcome.status = .deadLettered ∧ (t.2 = { tried := some id, userFailed := true } ∨
        t.2 = { tried := some id } ∧ ¬ p.Normalizable tenant req)
    | .error e => e.ofPort = true ∧ ∃ b, t.2 = { tried := some id, publishFailed := b }

theorem deadLetter_comes {s : IngestShared} {t : IngestShared × IngestCourse} (hdedup : t.1.dedup = s.dedup)
    (hcourse : t.2 = { tried := some id, userFailed := true } ∨
      t.2 = { tried := some id } ∧ ¬ p.Normalizable tenant req) :
    Comes p t (Processes p tenant req id s) (IngestPipeline.deadLetter req id) := by
  unfold IngestPipeline.deadLetter
  apply attempt_bind_ensures (ask_plain rfl)
  intro _ t' ht'
  refine ⟨ht'.1.1.trans hdedup, .inr ⟨rfl, ?_⟩⟩
  rw [ht'.1.2]
  exact hcourse

theorem processClaimed_comes {s : IngestShared} :
    Comes p (s, { tried := some id }) (Processes p tenant req id s) (p.processClaimed tenant req id) := by
  unfold IngestPipeline.processClaimed
  apply attempt_bind_ensures (ask_plain rfl)
  intro stored t₁ h₁
  apply attempt_bind_ensures normalizeAndEnrich_comes
  intro r t₂ h₂
  have hdedup : t₂.1.dedup = s.dedup := h₂.1.trans h₁.1.1
  have hcourse₁ : t₁.2 = { tried := some id } := h₁.1.2
  cases r with
  | error e =>
    apply deadLetter_comes hdedup
    rw [← hcourse₁]
    exact h₂.2.imp_left fun h => h.trans (by rw [hcourse₁])
  | ok event =>
    have hcourse : t₂.2 = { tried := some id } := h₂.2.trans hcourse₁
    apply bind_ensures publishRevocation_comes
    · intro _ t₃ h₃
      have hcourse₃ : t₃.2 = { tried := some id } := h₃.2.trans hcourse
      obtain ⟨s₃, q₃⟩ := t₃
      subst hcourse₃
      apply (publishEvent_comes rfl).mono
      intro r t₄ h₄
      refine ⟨(h₄.1.trans h₃.1).trans hdedup, ?_⟩
      cases r with
      | ok outcome => exact .inl h₄.2
      | error e => exact h₄.2
    · intro e t₃ h₃
      refine ⟨h₃.1.trans hdedup, h₃.2.1, true, ?_⟩
      rw [h₃.2.2, hcourse]

/-- How a call ends. -/
inductive IngestEnd (p : IngestPipeline) (tenant : TenantConfig) (req : IngestRequest) (s : IngestShared) :
    CoreResult IngestOutcome → IngestCourse → Prop
  /-- without a claim in hand -/
  | failed (e : CoreError) (tried : Option String) : IngestEnd p tenant req s (.error e) { tried }
  | refused (outcome : IngestOutcome) (tried : Option String) (hstatus : outcome.status = .duplicate) :
      IngestEnd p tenant req s (.ok outcome) { tried }
  | accepted (outcome : IngestOutcome) (id : String) (hstatus : outcome.status = .accepted) :
      IngestEnd p tenant req s (.ok outcome) { tried := some id }
  | deadLettered (outcome : IngestOutcome) (id : String) (hstatus : outcome.status = .deadLettered)
      (hheld : s.dedup.entries.has id = true) (hunreadable : ¬ p.Normalizable tenant req) :
      IngestEnd p tenant req s (.ok outcome) { tried := some id }
  /-- nobody could say who the sender is -/
  | senderless (outcome : IngestOutcome) (id : String) (hstatus : outcome.status = .deadLettered)
      (hheld : s.dedup.entries.has id = true) :
      IngestEnd p tenant req s (.ok outcome) { tried := some id, userFailed := true }
  | released (e : CoreError) (id : String) (publishFailed : Bool) (he : e.ofPort = true)
      (hfree : s.dedup.entries.get id = none) (hverification : p.isUrlVerification req = false)
      (hid : ∀ given, req.givenId = some given → given = id) :
      IngestEnd p tenant req s (.error e) { tried := some id, publishFailed }
  | stuck (e : CoreError) (id : String) (publishFailed : Bool) (he : e.ofPort = true)
      (hheld : s.dedup.entries.has id = true) :
      IngestEnd p tenant req s (.error e) { tried := some id, publishFailed, releaseFailed := true }

/-- A release gives the claim back, unless it fails before it did anything. -/
theorem release_comes {s : IngestShared} {q : IngestCourse} (hq : q.releaseFailed = false)
    (hheld : s.dedup.entries.has id = true) :
    Comes p (s, q) (fun _ t => t.1.dedup.entries.get id = none ∧ t.2 = q ∨
      t.1.dedup.entries.has id = true ∧ t.2 = { q with releaseFailed := true }) (ask (.release id)) := by
  apply ask_ensures
  intro c r t _ hs
  rw [Prog.noting_eq_some] at hs
  obtain ⟨hanswer, hnext⟩ := hs
  have hfree : (s.dedup.entries.del id).get id = none := KMap.get_del_self _ _
  obtain ⟨hfault, heq⟩ | ⟨e, -, hfault, -, heq⟩ := answer_cases hanswer
  · refine .inl ⟨?_, ?_⟩
    · rw [(Prod.mk.inj heq).2]
      exact hfree
    · simp [hnext, IngestCourse.next, IngestChoice.fails, hfault rfl]
  · cases hlate : c.late with
    | true =>
      refine .inl ⟨?_, ?_⟩
      · rw [heq, hlate, if_pos rfl]
        exact hfree
      · simp [hnext, IngestCourse.next, hlate]
    | false =>
      refine .inr ⟨?_, ?_⟩
      · rw [heq, hlate, if_neg Bool.false_ne_true]
        exact hheld
      · simp [hnext, IngestCourse.next, IngestChoice.fails, hfault, hlate, hq]

theorem processOrRelease_comes {s : IngestShared} (hverification : p.isUrlVerification req = false)
    (hid : ∀ given, req.givenId = some given → given = id) (hheld : s.dedup.entries.has id = true) :
    Comes p (s, { tried := some id }) (fun r t => IngestEnd p tenant req t.1 r t.2)
      (p.processOrRelease tenant req id) := by
  unfold IngestPipeline.processOrRelease
  apply attempt_bind_ensures processClaimed_comes
  intro r t ht
  obtain ⟨s', q⟩ := t
  obtain ⟨hdedup, hr⟩ := ht
  replace hdedup : s'.dedup = s.dedup := hdedup
  rw [← hdedup] at hheld
  cases r with
  | ok outcome =>
    obtain ⟨hstatus, rfl⟩ | ⟨hstatus, rfl | ⟨rfl, hunreadable⟩⟩ := hr
    · exact .accepted outcome id hstatus
    · exact .senderless outcome id hstatus hheld
    · exact .deadLettered outcome id hstatus hheld hunreadable
  | error e =>
    obtain ⟨he, publishFailed, rfl⟩ := hr
    have hgives : Comes p (s', { tried := some id, publishFailed }) (fun r t => IngestEnd p tenant req t.1 r t.2)
        (do let _ ← attempt (ask (.release id)); throw e : IngestM IngestOutcome) := by
      apply attempt_bind_ensures (release_comes rfl hheld)
      rintro _ ⟨s₂, q₂⟩ (⟨hfree, rfl⟩ | ⟨hstill, rfl⟩)
      · exact .released e id publishFailed he hfree hverification hid
      · exact .stuck e id publishFailed he hstill
    cases e with
    | deadLetter text => cases he
    | _ => exact hgives

/-! ### Before the claim -/

/-- A part that needs no claim, and what follows. -/
theorem bind_alike {α : Type} {prog : IngestM α} {f : α → IngestM IngestOutcome}
    (hprog : Comes p t (fun _ t' => Alike t t') prog) (hcourse : t.2 = {})
    (hf : ∀ a t', t'.2 = {} → Comes p t' (fun r t' => IngestEnd p tenant req t'.1 r t'.2) (f a)) :
    Comes p t (fun r t' => IngestEnd p tenant req t'.1 r t'.2) (prog >>= f) := by
  apply bind_ensures hprog
  · intro a t' ht'
    exact hf a t' (ht'.2.trans hcourse)
  · intro e t' ht'
    rw [ht'.2, hcourse]
    exact .failed e none

theorem ask_alike {op : IngestOp} (h : op.plain = true) : Comes p t (fun _ t' => Alike t t') (ask op) :=
  (ask_plain h).mono fun _ _ ht' => ht'.1

theorem authenticate_comes : Comes p t (fun _ t' => Alike t t') (p.authenticate tenant req) := by
  unfold IngestPipeline.authenticate
  split_ifs
  · exact ⟨rfl, rfl⟩
  · split
    · exact ⟨rfl, rfl⟩
    · exact ask_alike rfl

theorem deliveryId_comes : Comes p t
    (fun r t' => Alike t t' ∧ ∀ id, r = .ok id → ∀ given, req.givenId = some given → given = id)
    (IngestPipeline.deliveryId req) := by
  unfold IngestPipeline.deliveryId
  split
  · next given hgiven =>
    refine ⟨⟨rfl, rfl⟩, ?_⟩
    rintro id ⟨⟩ given' hgiven'
    exact Option.some.inj (hgiven'.symm.trans hgiven)
  · next hnone =>
    apply (ask_alike rfl).mono
    intro _ _ halike
    refine ⟨halike, ?_⟩
    intro _ _ given hgiven
    cases hnone.symm.trans hgiven

/-- Who is the first to come with an id holds a claim of it. -/
theorem has_tryClaim {d : InMemoryDedup} {gcNow now : ℕ} (h : (d.tryClaim gcNow now id).1 = true) :
    (d.tryClaim gcNow now id).2.entries.has id = true := by
  have hclaim : ((d.gc gcNow).claim now id).entries.has id = true := by
    rw [KMap.has_iff]
    exact ⟨now, KMap.get_put_self _ _ _⟩
  unfold InMemoryDedup.tryClaim at h ⊢
  dsimp only at h ⊢
  split at h
  · split_ifs at h with hyoung
    rw [if_neg hyoung]
    exact hclaim
  · exact hclaim

theorem tryClaim_comes (hcourse : t.2 = {}) :
    Comes p t (fun r t' => t'.2 = { tried := some id } ∧ (r = .ok true → t'.1.dedup.entries.has id = true))
      (ask (.tryClaim id)) := by
  apply ask_ensures
  intro c r t' _ hs
  rw [Prog.noting_eq_some, hcourse] at hs
  refine ⟨hs.2, ?_⟩
  rintro rfl
  obtain ⟨hfirst, hshared⟩ := Prod.mk.inj (answer_ok hs.1).2
  rw [hshared]
  exact has_tryClaim (Except.ok.inj hfirst).symm

/-- **How a call of `ingest` ends**, whatever its ports do. -/
theorem ingestInner_comes {s : IngestShared} (htenant : s.tenants.get req.tenantId = some tenant) :
    Comes p (s, {}) (fun r t => IngestEnd p tenant req t.1 r t.2) (p.ingestInner req) := by
  unfold IngestPipeline.ingestInner
  split_ifs with hverification
  · exact .failed _ none
  · replace hverification := eq_false_of_ne_true hverification
    have hget : Comes p (s, {}) (fun r t => t.2 = {} ∧ ∀ found, r = .ok found → found = some tenant)
        (ask (.getTenant req.tenantId)) := by
      apply ask_ensures
      intro c r t _ hs
      have halike := (ask_alike (p := p) (t := (s, {})) rfl) c r t trivial hs
      rw [Prog.noting_eq_some] at hs
      refine ⟨halike.2, ?_⟩
      rintro found rfl
      have hfound := (Prod.mk.inj (answer_ok hs.1).2).1
      exact (Except.ok.inj hfound).trans htenant
    apply bind_ensures hget
    · intro found t₁ h₁
      rw [h₁.2 found rfl]
      apply bind_alike authenticate_comes h₁.1
      intro _ t₂ h₂
      apply bind_alike (ask_alike rfl) h₂
      intro _ t₃ h₃
      apply bind_ensures deliveryId_comes
      case herror =>
        intro e t₄ h₄
        rw [h₄.1.2, h₃]
        exact .failed e none
      intro id t₄ h₄
      apply bind_ensures (tryClaim_comes (h₄.1.2.trans h₃))
      · intro first t₅ h₅
        obtain ⟨s₅, q₅⟩ := t₅
        obtain ⟨rfl, hheld⟩ := h₅
        cases first with
        | true => exact processOrRelease_comes hverification (h₄.2 id rfl) (hheld rfl)
        | false => exact .refused _ (some id) rfl
      · intro e t₅ h₅
        rw [h₅.1]
        exact .failed e (some id)
    · intro e t₁ h₁
      rw [h₁.1]
      exact .failed e none

theorem ingest_comes {s : IngestShared} (htenant : s.tenants.get req.tenantId = some tenant) :
    Comes p (s, {}) (fun r t => IngestEnd p tenant req t.1 r t.2) (p.ingest req) := by
  unfold IngestPipeline.ingest
  apply attempt_bind_ensures (ingestInner_comes htenant)
  intro r t hend
  apply ask_sure rfl (fun _ _ => ⟨_, rfl⟩) rfl
  intro latencyMs t' ht'
  obtain ⟨s, q⟩ := t
  obtain ⟨s', q'⟩ := t'
  obtain ⟨hdedup, rfl⟩ : s'.dedup = s.dedup ∧ q' = q := ht'
  cases hend with
  | failed e tried =>
    have hfailed : IngestEnd p tenant req s' (.error e) { tried } := .failed e tried
    cases e with
    | duplicate eventId => exact .refused _ tried rfl
    | _ => exact hfailed
  | refused outcome tried hstatus => exact .refused _ tried hstatus
  | accepted outcome id hstatus => exact .accepted _ id hstatus
  | deadLettered outcome id hstatus hheld hunreadable =>
    exact .deadLettered _ id hstatus (hdedup ▸ hheld) hunreadable
  | senderless outcome id hstatus hheld => exact .senderless _ id hstatus (hdedup ▸ hheld)
  | released e id publishFailed he hfree hverification hid =>
    have hreleased : IngestEnd p tenant req s' (.error e) { tried := some id, publishFailed } :=
      .released e id publishFailed he (hdedup ▸ hfree) hverification hid
    cases e with
    | duplicate eventId => cases he
    | _ => exact hreleased
  | stuck e id publishFailed he hheld =>
    have hstuck : IngestEnd p tenant req s' (.error e) { tried := some id, publishFailed, releaseFailed := true } :=
      .stuck e id publishFailed he (hdedup ▸ hheld)
    cases e with
    | duplicate eventId => cases he
    | _ => exact hstuck

end Parts

/-! ## A delivery while all is well -/

section Well
variable {p : IngestPipeline} {tenant : TenantConfig} {req : IngestRequest} {s s₁ : IngestShared} {α β : Type}

/-- A part of the pipeline while all is well. -/
abbrev Well (p : IngestPipeline) (tenant : TenantConfig) (req : IngestRequest) (s s₁ : IngestShared)
    (R : CoreResult α → IngestShared → Prop) (prog : IngestM α) : Prop :=
  prog.run.Ensures p.answer (p.Healthy tenant req s) R s₁

theorem healthy_answer {c : IngestChoice} {op : IngestOp} {r : op.Res} {s' : IngestShared}
    (hc : p.Healthy tenant req s c) (h : p.answer c op s₁ = some (r, s')) : (r, s') = s₁.perform p c op := by
  obtain ⟨-, heq⟩ | ⟨e, -, hfault, -⟩ := answer_cases h
  · exact heq
  · rw [hc.fault] at hfault
    cases hfault

/-- A call, and what follows its answer. -/
theorem ask_bind_well {op : IngestOp} {f : op.Val → IngestM β} {R : CoreResult β → IngestShared → Prop}
    (h : ∀ c, p.Healthy tenant req s c →
      ∃ a s', s₁.perform p c op = (.ok a, s') ∧ Well p tenant req s s' R (f a)) :
    Well p tenant req s s₁ R (ask op >>= f) := by
  apply ask_bind_ensures
  · intro c a s' hc hs
    obtain ⟨a', s'', hperform, hf⟩ := h c hc
    obtain ⟨ha, rfl⟩ := Prod.mk.inj ((healthy_answer hc hs).trans hperform)
    rwa [Except.ok.inj ha]
  · intro c e s' hc hs
    obtain ⟨a', s'', hperform, -⟩ := h c hc
    cases (Prod.mk.inj ((healthy_answer hc hs).trans hperform)).1

/-- A call that publishes nothing. -/
theorem ask_unpublished {op : IngestOp}
    (h : ∀ c : IngestChoice, (s₁.perform p c op).2.published = s₁.published) :
    Well p tenant req s s₁ (fun _ s' => s'.published = s₁.published) (ask op) := by
  apply ask_ensures
  intro c r s' hc hs
  rw [(Prod.mk.inj (healthy_answer hc hs)).2]
  exact h c

theorem resolveSender_well {value : Json} :
    Well p tenant req s s₁ (fun r s' => (∃ globalUserId, r = .ok globalUserId) ∧ s'.published = s₁.published)
      (IngestPipeline.resolveSender req value) := by
  unfold IngestPipeline.resolveSender
  dsimp only
  split_ifs
  · exact ⟨⟨_, rfl⟩, rfl⟩
  · apply ask_ensures
    intro c r s' hc hs
    obtain ⟨rfl, rfl⟩ := Prod.mk.inj (healthy_answer hc hs)
    exact ⟨⟨_, rfl⟩, rfl⟩

theorem normalizeAndEnrich_well {deliveryId rawUri : String} (hread : p.Normalizable tenant req) :
    Well p tenant req s s₁
      (fun r s' => (∃ event, r = .ok event ∧ p.ReadAs tenant req event) ∧ s'.published = s₁.published)
      (p.normalizeAndEnrich tenant req deliveryId rawUri) := by
  obtain ⟨value, hvalue, hreads⟩ := hread
  unfold IngestPipeline.normalizeAndEnrich
  rw [hvalue]
  apply bind_ensures resolveSender_well
  · intro globalUserId s₂ h₂
    apply ask_bind_well
    intro c _
    refine ⟨_, _, rfl, ?_⟩
    apply ask_bind_well
    intro c' _
    refine ⟨_, _, rfl, ?_⟩
    obtain ⟨event, hevent⟩ :=
      hreads deliveryId rawUri globalUserId (s₂.acl.currentAclVersion req.tenantId) c'.fresh
    rw [hevent]
    exact ⟨⟨event, rfl, value, deliveryId, rawUri, globalUserId, _, c'.fresh, hvalue, hevent⟩, h₂.2⟩
  · intro e s₂ h₂
    obtain ⟨⟨globalUserId, h⟩, -⟩ := h₂
    cases h

theorem publishRevocation_well {event : CanonicalEventRecord} :
    Well p tenant req s s₁ (fun r s' => r = .ok () ∧ s₁.published <:+ s'.published)
      (IngestPipeline.publishRevocation event) := by
  unfold IngestPipeline.publishRevocation
  split_ifs
  · apply ask_bind_well
    intro c _
    refine ⟨_, _, rfl, ?_⟩
    split
    · exact ⟨rfl, List.suffix_refl _⟩
    · apply attempt_bind_ensures (ask_unpublished fun _ => rfl)
      intro _ s₂ h₂
      apply ask_ensures
      intro c r s' hc hs
      obtain ⟨rfl, rfl⟩ := Prod.mk.inj (healthy_answer hc hs)
      rw [← h₂]
      exact ⟨rfl, List.suffix_cons _ _⟩
  · exact ⟨rfl, List.suffix_refl _⟩

theorem publishEvent_well {event : CanonicalEventRecord} (hread : p.ReadAs tenant req event)
    (hsuffix : s.published <:+ s₁.published) :
    Well p tenant req s s₁ (p.Published tenant req s) (p.publishEvent req event) := by
  unfold IngestPipeline.publishEvent
  apply ask_bind_well
  intro _ _
  refine ⟨_, _, rfl, ?_⟩
  apply ask_bind_well
  intro _ _
  refine ⟨_, _, rfl, ?_⟩
  by_cases hinline : p.inlineStore = true
  · rw [if_pos hinline]
    apply ask_bind_well
    intro _ _
    refine ⟨_, _, rfl, ?_⟩
    exact ⟨_, event, s₁.published, rfl, rfl, rfl, hread, hsuffix, rfl⟩
  · rw [if_neg hinline]
    exact ⟨_, event, s₁.published, rfl, rfl, rfl, hread, hsuffix, rfl⟩

theorem processClaimed_well {id : String} (hread : p.Normalizable tenant req)
    (hsuffix : s.published <:+ s₁.published) :
    Well p tenant req s s₁ (p.Published tenant req s) (p.processClaimed tenant req id) := by
  unfold IngestPipeline.processClaimed
  apply attempt_bind_ensures (ask_unpublished fun _ => rfl)
  intro _ s₂ h₂
  apply attempt_bind_ensures (normalizeAndEnrich_well hread)
  intro r s₃ h₃
  obtain ⟨⟨event, rfl, hevent⟩, hpublished⟩ := h₃
  rw [← h₂, ← hpublished] at hsuffix
  apply bind_ensures publishRevocation_well
  · intro _ s₄ h₄
    exact publishEvent_well hevent (hsuffix.trans h₄.2)
  · intro e s₄ h₄
    cases h₄.1

theorem processOrRelease_well {id : String} (hread : p.Normalizable tenant req)
    (hsuffix : s.published <:+ s₁.published) :
    Well p tenant req s s₁ (p.Published tenant req s) (p.processOrRelease tenant req id) := by
  unfold IngestPipeline.processOrRelease
  apply attempt_bind_ensures (processClaimed_well hread hsuffix)
  intro r s₂ h₂
  obtain ⟨outcome, event, earlier, rfl, hrest⟩ := h₂
  exact ⟨outcome, event, earlier, rfl, hrest⟩

theorem authenticate_well {c₀ : IngestChoice} (hc₀ : p.Healthy tenant req s c₀) :
    Well p tenant req s s₁ (fun r s' => r = .ok () ∧ s' = s₁) (p.authenticate tenant req) := by
  unfold IngestPipeline.authenticate
  split_ifs with hskip
  · exact ⟨rfl, rfl⟩
  · replace hskip := eq_false_of_ne_true hskip
    split
    · next hnone =>
      obtain ⟨secret, hsecret, -⟩ := hc₀.verifies hskip
      rw [hnone] at hsecret
      cases hsecret
    · next secret hsecret =>
      apply ask_ensures
      intro c r s' hc hs
      obtain ⟨secret', hsecret', hverified⟩ := hc.verifies hskip
      obtain rfl : secret = secret' := Option.some.inj (hsecret.symm.trans hsecret')
      have hperform : s₁.perform p c (.verifyWebhook req.provider secret req.body req.headers) = (.ok (), s₁) := by
        simp only [IngestShared.perform, hverified, Except.mapError]
      exact Prod.mk.inj ((healthy_answer hc hs).trans hperform)

/-- The id that the delivery goes by is free. -/
theorem deliveryId_well
    (hfree : ∀ id, req.givenId = some id → s.dedup.entries.get id = none) :
    Well p tenant req s s₁ (fun r s' => (∃ id, r = .ok id ∧ s.dedup.entries.get id = none) ∧ s' = s₁)
      (IngestPipeline.deliveryId req) := by
  unfold IngestPipeline.deliveryId
  split
  · next id hid => exact ⟨⟨id, rfl, hfree id hid⟩, rfl⟩
  · next hnone =>
    apply ask_ensures
    intro c r s' hc hs
    obtain ⟨rfl, rfl⟩ := Prod.mk.inj (healthy_answer hc hs)
    exact ⟨⟨_, rfl, hc.fresh hnone⟩, rfl⟩

/-- An id that nobody has claimed is given to the first who comes. -/
theorem tryClaim_free {d : InMemoryDedup} {id : String} (h : d.entries.get id = none) (gcNow now : ℕ) :
    (d.tryClaim gcNow now id).1 = true := by
  by_contra hrefused
  obtain ⟨t, ht⟩ := InMemoryDedup.held_of_refused (eq_false_of_ne_true hrefused)
  rw [h] at ht
  cases ht

theorem ingestInner_well (hverification : p.isUrlVerification req = false)
    (htenant : s.tenants.get req.tenantId = some tenant)
    (hfree : ∀ id, req.givenId = some id → s.dedup.entries.get id = none)
    (hread : p.Normalizable tenant req) :
    Well p tenant req s s (p.Published tenant req s) (p.ingestInner req) := by
  unfold IngestPipeline.ingestInner
  rw [hverification, if_neg Bool.false_ne_true]
  apply ask_bind_well
  intro _ hc
  refine ⟨_, s, rfl, ?_⟩
  rw [htenant]
  apply bind_ensures (authenticate_well hc)
  · intro _ s₁ h₁
    rw [h₁.2]
    apply ask_bind_well
    intro _ _
    refine ⟨_, s, rfl, ?_⟩
    apply bind_ensures (deliveryId_well hfree)
    · rintro id s₂ ⟨⟨_, hid, hunclaimed⟩, hs₂⟩
      cases hid
      rw [hs₂]
      apply ask_bind_well
      intro c _
      refine ⟨true, { s with dedup := (s.dedup.tryClaim c.gcNow c.claimNow id).2 }, ?_, ?_⟩
      · rw [← tryClaim_free hunclaimed c.gcNow c.claimNow]
        rfl
      · exact processOrRelease_well hread (List.suffix_refl _)
    · rintro e _ ⟨⟨id, hid, -⟩, -⟩
      cases hid
  · rintro e _ ⟨he, -⟩
    cases he

/-- **A delivery while all is well** is accepted and published, if nobody has claimed its id. -/
theorem ingest_well (hverification : p.isUrlVerification req = false)
    (htenant : s.tenants.get req.tenantId = some tenant)
    (hfree : ∀ id, req.givenId = some id → s.dedup.entries.get id = none)
    (hread : p.Normalizable tenant req) :
    Well p tenant req s s (p.Published tenant req s) (p.ingest req) := by
  unfold IngestPipeline.ingest
  apply attempt_bind_ensures (ingestInner_well hverification htenant hfree hread)
  intro r s' hr
  obtain ⟨outcome, event, earlier, rfl, hstatus, hid, hevent, hsuffix, hpublished⟩ := hr
  apply ask_bind_well
  intro c _
  refine ⟨_, _, rfl, ?_⟩
  exact ⟨_, event, earlier, rfl, hstatus, hid, hevent, hsuffix, hpublished⟩

end Well

section Owed
variable {p : IngestPipeline} {tenant : TenantConfig} {req : IngestRequest} {course : IngestCourse}
  {r : CoreResult IngestOutcome} {s : IngestShared}

/-- Where neither the lookup nor a message failed there is nothing to make good. -/
theorem retriable_of_spared (huser : course.userFailed = false) (hpublish : course.publishFailed = false)
    (hstatus : ∀ outcome, r = .ok outcome → outcome.status ≠ .deadLettered) : p.Retriable tenant req course r s := by
  have hspared : ¬ (course.userFailed = true ∨ course.publishFailed = true) := by
    rw [huser, hpublish]
    simp
  constructor
  case deadLetter => exact fun outcome hr hdead => absurd hdead (hstatus outcome hr)
  all_goals exact fun _ hfailed => absurd hfailed hspared

/-- A dead letter is right for what cannot be read. -/
theorem retriable_of_unreadable {id : String} (h : ¬ p.Normalizable tenant req) (htried : course.tried = some id)
    (hheld : s.dedup.entries.has id = true) : p.Retriable tenant req course r s := by
  constructor
  case deadLetter => exact fun _ _ _ => ⟨h, id, htried, hheld⟩
  all_goals exact fun hread => absurd hread h

end Owed

/-- **Retries.** A call of `ingest` keeps to it exactly if, for a payload that can be read, the lookup of the sender
does not fail, and the claim is really given back where a message could not be published. -/
theorem retriable_iff (p : IngestPipeline) (tenant : TenantConfig) (req : IngestRequest) (cs : ℕ → IngestChoice)
    (s s' : IngestShared) (r : CoreResult IngestOutcome) (htenant : s.tenants.get req.tenantId = some tenant)
    (hrun : (p.ingest req).run.exec p.answer cs s = some (r, s')) :
    p.Retriable tenant req (p.course req cs s) r s' ↔
      (p.Normalizable tenant req → (p.course req cs s).userFailed = false ∧
        ((p.course req cs s).publishFailed = true → (p.course req cs s).releaseFailed = false)) := by
  have hend : IngestEnd p tenant req s' r (p.course req cs s) :=
    (ingest_comes htenant).of_exec_notes (fun _ => trivial) hrun
  generalize p.course req cs s = course at hend ⊢
  constructor
  · intro h hread
    cases hend with
    | failed | refused | accepted | deadLettered | released => simp
    | senderless =>
      obtain ⟨e, he⟩ := h.error hread (.inl rfl)
      cases he
    | stuck e id publishFailed he hheld =>
      refine ⟨rfl, ?_⟩
      rintro rfl
      obtain ⟨_, hid, hfree⟩ := h.unclaimed hread (.inr rfl)
      rw [← KMap.has_eq_false_iff, ← Option.some.inj hid, hheld] at hfree
      cases hfree
  · intro h
    cases hend with
    | failed e tried => exact retriable_of_spared rfl rfl nofun
    | refused outcome tried hstatus | accepted outcome id hstatus =>
      apply retriable_of_spared rfl rfl
      rintro _ ⟨⟩ hdead
      rw [hstatus] at hdead
      cases hdead
    | deadLettered outcome id hstatus hheld hunreadable => exact retriable_of_unreadable hunreadable rfl hheld
    | senderless outcome id hstatus hheld =>
      have hunreadable : ¬ p.Normalizable tenant req := by
        intro hread
        cases (h hread).1
      exact retriable_of_unreadable hunreadable rfl hheld
    | released e id publishFailed he hfree hverification hid =>
      constructor
      case error => exact fun _ _ => ⟨e, rfl⟩
      case unclaimed => exact fun _ _ => ⟨id, rfl, hfree⟩
      case redelivered =>
        intro hread _ s₂ cs₂ hlater hhealthy
        have hwell : Well p tenant req s₂ s₂ (p.Published tenant req s₂) (p.ingest req) := by
          apply ingest_well hverification hlater.tenant _ hread
          intro given hgiven
          rw [hlater.unclaimed given hgiven, hid given hgiven]
          exact hfree
        obtain ⟨r₂, s₂', hexec⟩ := Prog.exec_of_total answer_total (p.ingest req).run cs₂ s₂
        exact ⟨r₂, s₂', hexec, hwell.of_exec hhealthy hexec⟩
      case deadLetter => exact nofun
    | stuck e id publishFailed he hheld =>
      constructor
      case error => exact fun _ _ => ⟨e, rfl⟩
      case deadLetter => exact nofun
      all_goals
        rintro hread (hfailed | hfailed)
        · cases hfailed
        · cases (h hread).2 hfailed

/-! ### A webhook of GitHub whose sender is known -/

section Demo

/-- Dates are not read, and every body is the same comment. -/
def commented : IngestPipeline where
  authSkip := false
  verifyWebhook _ _ _ _ _ := .ok ()
  fromSlice _ := .ok (.obj [("action", .str "created"), ("sender", .obj [("id", .num 7 0), ("login", .str "ann")])])
  normalizeOther v ctx fresh := normalizeGithub ⟨fun _ => none, fun _ => none, fun _ => none, fun m _ => m⟩ v ctx fresh
  inlineStore := false

def acme : TenantConfig where
  tenantId := "acme"
  githubWebhookSecret := some "secret"

def comment : IngestRequest where
  tenantId := "acme"
  provider := .github
  body := [123, 125]
  headers := { deliveryId := some "d" }

def acmeOnly : IngestShared where
  tenants := Table.put ∅ acme
  dedup := .new 60
  acl := .new
  objects := []
  published := []

/-- The port of the `n`-th call is out of order. -/
def outageAt (n i : ℕ) : IngestChoice := if i = n then { fault := some ⟨.internal "connection refused", rfl⟩ } else {}

theorem comment_normalizable : commented.Normalizable acme comment := by
  refine ⟨_, rfl, ?_⟩
  intro deliveryId rawUri globalUserId aclVersion fresh
  exact ⟨_, rfl⟩

/-- While users cannot be looked up, the comment is taken for one that cannot be read. -/
theorem senderOutage_not_retriable :
    ∃ r s', (commented.ingest comment).run.exec commented.answer (outageAt 5) acmeOnly = some (r, s') ∧
      r.map IngestOutcome.status = .ok .deadLettered ∧ s'.dedup.entries.has "d" = true ∧
      ¬ commented.Retriable acme comment (commented.course comment (outageAt 5) acmeOnly) r s' := by
  refine ⟨_, _, rfl, rfl, rfl, ?_⟩
  intro h
  obtain ⟨e, he⟩ := h.error comment_normalizable (.inl (by decide +kernel))
  cases he

/-- A comment that could not be published is accepted later. -/
theorem publishOutage_retriable :
    ∃ r s', (commented.ingest comment).run.exec commented.answer (outageAt 8) acmeOnly = some (r, s') ∧
      (commented.course comment (outageAt 8) acmeOnly).publishFailed = true ∧
      commented.Retriable acme comment (commented.course comment (outageAt 8) acmeOnly) r s' :=
  ⟨_, _, rfl, by decide +kernel, (retriable_iff commented acme comment (outageAt 8) acmeOnly _ _ rfl rfl).mpr
    fun _ => ⟨by decide +kernel, fun _ => by decide +kernel⟩⟩

end Demo

end AiManager.Telemetry
