import AiManager.Telemetry.Pipeline

/-! # What a call of `ingest` comes to

One call, whatever its ports answer: an accepted request is on `events.raw` before the answer is given,
a dead letter was put, a refusal follows a refused claim, and a claimed request that fails gives its
claim back first. -/

namespace AiManager.Telemetry

open Lib

namespace IngestPipeline

/-- The message is the request's payload, as a normalizer reads it for the tenant. -/
def Carries (p : IngestPipeline) (req : IngestRequest) (message : BusMessage) : Prop :=
  ∃ value ctx fresh event, p.fromSlice req.body = .ok value ∧ ctx.tenantId = req.tenantId ∧
    ctx.provider = req.provider ∧ p.normalize value ctx fresh = .ok event ∧
    message.payload = .event event

end IngestPipeline

/-! ## Phases -/

inductive IngestPhase where
  | unclaimed
  | refused
  | claimed
  /-- the payload is on `events.raw` or among the dead letters -/
  | stored
  /-- the dead letter could not be stored -/
  | unsaved
  | withdrawn
  deriving DecidableEq

namespace IngestPhase

def next (ph : IngestPhase) (op : IngestOp) (r : op.Res) : IngestPhase :=
  match op, r with
  | .tryClaim _, .ok true => .claimed
  | .tryClaim _, .ok false => .refused
  | .putDlq _ _ _, .ok _ => .stored
  | .putDlq _ _ _, .error _ => .unsaved
  | .publish message, .ok _ => if message.topic = .eventsRaw then .stored else ph
  | .release _, _ => .withdrawn
  | _, _ => ph

/-- The phase of a call that holds its claim. -/
def Live (ph : IngestPhase) : Prop := ph = .claimed ∨ ph = .stored

/-- What the answer of a call stands for. -/
def Settles (ph : IngestPhase) : CoreResult IngestOutcome → Prop
  | .ok outcome =>
    if outcome.status = .duplicate then ph = .refused else ph = .stored ∨ ph = .unsaved
  | .error e => e.ofPort = true ∧ (ph = .unclaimed ∨ ph = .withdrawn)

end IngestPhase

/-- What the call for a request may do in which phase, and what it may rely on in the answers. -/
def ingestMonitor (p : IngestPipeline) :
    Monitor IngestOp IngestOp.Res (IngestRequest × IngestPhase) where
  next q op r := (q.1, q.2.next op r)
  allows q op :=
    match op with
    | .tryClaim _ => q.2 = .unclaimed
    | .putDlq tenantId _ bytes => tenantId = q.1.tenantId ∧ bytes = q.1.body
    | .publish message => message.topic = .eventsRaw → p.Carries q.1 message
    | .release _ => q.2.Live
    | _ => True
  replies op r :=
    (∀ e, r = .error e → e.ofPort = true) ∧
      match op, r with
      | .getTenant tenantId, .ok (some tenant) => tenant.tenantId = tenantId
      | .elapsedMs, .error _ => False
      | _, _ => True

/-! ### The programs follow the monitor -/

section Programs
variable {p : IngestPipeline} {req : IngestRequest} {tenant : TenantConfig} {α β : Type}
  {ph : IngestPhase}

/-- A part of the pipeline that takes a call from one phase to others; `R` says to which. -/
abbrev Moves (p : IngestPipeline) (req : IngestRequest) (ph : IngestPhase)
    (R : CoreResult α → IngestPhase → Prop) (prog : IngestM α) : Prop :=
  prog.run.Meets (ingestMonitor p) (fun r q => q.1 = req ∧ R r q.2) (req, ph)

/-- Calls that leave the phase as it is. -/
def IngestOp.quiet : IngestOp → Bool
  | .tryClaim _ | .putDlq _ _ _ | .publish _ | .release _ => false
  | _ => true

theorem next_quiet {op : IngestOp} (h : op.quiet = true) (r : op.Res) : ph.next op r = ph := by
  cases op <;> first | rfl | cases h

theorem allows_quiet {op : IngestOp} (h : op.quiet = true) (q : IngestRequest × IngestPhase) :
    (ingestMonitor p).allows q op := by
  cases op <;> trivial

/-- Sequencing: what follows starts in the phase that the first part came to. -/
theorem bind_moves {prog : IngestM α} {f : α → IngestM β} {R : CoreResult α → IngestPhase → Prop}
    {R' : CoreResult β → IngestPhase → Prop} (hprog : Moves p req ph R prog)
    (hok : ∀ a ph', R (.ok a) ph' → Moves p req ph' R' (f a))
    (herror : ∀ e ph', R (.error e) ph' → R' (.error e) ph') : Moves p req ph R' (prog >>= f) := by
  apply bind_meets hprog
  · intro a q hq
    obtain ⟨q, ph'⟩ := q
    obtain ⟨rfl, h⟩ := hq
    exact hok a ph' h
  · intro e q hq
    exact ⟨hq.1, herror e q.2 hq.2⟩

theorem attempt_moves {prog : IngestM α} {f : CoreResult α → IngestM β}
    {R : CoreResult α → IngestPhase → Prop} {R' : CoreResult β → IngestPhase → Prop}
    (hprog : Moves p req ph R prog) (h : ∀ r ph', R r ph' → Moves p req ph' R' (f r)) :
    Moves p req ph R' (attempt prog >>= f) := by
  apply attempt_bind_meets hprog
  intro r q hq
  obtain ⟨q, ph'⟩ := q
  obtain ⟨rfl, hr⟩ := hq
  exact h r ph' hr

/-- A call, and what follows in the phase that its answer leads to. -/
theorem ask_bind_moves (op : IngestOp) {f : op.Val → IngestM β} {R : CoreResult β → IngestPhase → Prop}
    (hallows : (ingestMonitor p).allows (req, ph) op)
    (hok : ∀ a, (ingestMonitor p).replies op (.ok a) → Moves p req (ph.next op (.ok a)) R (f a))
    (herror : ∀ e, (ingestMonitor p).replies op (.error e) →
      R (.error e) (ph.next op (.error e))) :
    Moves p req ph R (ask op >>= f) := by
  apply ask_bind_meets hallows
  · intro a ha
    exact hok a ha
  · intro e he
    exact ⟨rfl, herror e he⟩

/-- A call whose port does not concern the phase. -/
theorem ask_quiet {op : IngestOp} (h : op.quiet = true) :
    Moves p req ph (fun r ph' => ph' = ph ∧ ∀ e, r = .error e → e.ofPort = true) (ask op) := by
  apply ask_meets (allows_quiet h _)
  intro r hr
  exact ⟨rfl, next_quiet h r, hr.1⟩

/-- A call that does not concern the phase, and what follows. -/
theorem ask_quiet_bind {op : IngestOp} (h : op.quiet = true) {f : op.Val → IngestM β}
    {R : CoreResult β → IngestPhase → Prop} (hok : ∀ a, Moves p req ph R (f a))
    (herror : ∀ e, e.ofPort = true → R (.error e) ph) : Moves p req ph R (ask op >>= f) := by
  apply bind_moves (ask_quiet h)
  · intro a ph' hph
    rw [hph.1]
    exact hok a
  · intro e ph' hph
    rw [hph.1]
    exact herror e (hph.2 e rfl)

theorem pure_moves {R : CoreResult α → IngestPhase → Prop} {a : α} (h : R (.ok a) ph) :
    Moves p req ph R (pure a) :=
  ⟨rfl, h⟩

theorem throw_moves {R : CoreResult α → IngestPhase → Prop} {e : CoreError} (h : R (.error e) ph) :
    Moves p req ph R (throw e : IngestM α) :=
  ⟨rfl, h⟩

/-- An answer that leaves the phase alone, unless a port fails. -/
def Idles (ph : IngestPhase) (r : CoreResult α) (ph' : IngestPhase) : Prop :=
  ph' = ph ∧ ∀ e, r = .error e → e.ofPort = true

theorem idles_ok {a : α} : Idles ph (.ok a) ph := by
  refine ⟨rfl, ?_⟩
  intro e he
  cases he

theorem resolveSender_moves {value : Json} :
    Moves p req ph (Idles ph) (IngestPipeline.resolveSender req value) := by
  unfold IngestPipeline.resolveSender
  dsimp only
  split_ifs
  · exact pure_moves idles_ok
  · exact ask_quiet rfl

/-- The event that is made of a request carries the request's payload. -/
def Reads (p : IngestPipeline) (req : IngestRequest) (ph : IngestPhase)
    (r : CoreResult CanonicalEventRecord) (ph' : IngestPhase) : Prop :=
  ph' = ph ∧ ∀ event, r = .ok event → ∀ topic key, p.Carries req ⟨topic, key, .event event⟩

theorem reads_error {e : CoreError} : Reads p req ph (.error e) ph := by
  refine ⟨rfl, ?_⟩
  intro event heq
  cases heq

theorem normalizeAndEnrich_moves {deliveryId rawUri : String} (htenant : tenant.tenantId = req.tenantId) :
    Moves p req ph (Reads p req ph) (p.normalizeAndEnrich tenant req deliveryId rawUri) := by
  unfold IngestPipeline.normalizeAndEnrich
  split
  · exact throw_moves reads_error
  · next value hvalue =>
    apply bind_moves resolveSender_moves
    · intro globalUserId ph' hph
      rw [hph.1]
      apply ask_quiet_bind rfl
      · intro aclVersion
        apply ask_quiet_bind rfl
        · intro fresh
          generalize hresult : p.normalize value _ fresh = result
          cases result with
          | error e => exact throw_moves reads_error
          | ok event =>
            apply pure_moves
            refine ⟨rfl, ?_⟩
            intro event' heq topic key
            cases heq
            refine ⟨value, _, fresh, event, hvalue, ?_, ?_, hresult, rfl⟩
            · exact htenant
            · rfl
        · intro e _
          exact reads_error
      · intro e _
        exact reads_error
    · intro e ph' hph
      rw [hph.1]
      exact reads_error

theorem publish_other {message : BusMessage} (h : message.topic ≠ .eventsRaw) :
    Moves p req ph (Idles ph) (ask (.publish message)) := by
  apply ask_meets fun hraw => absurd hraw h
  intro r hr
  refine ⟨rfl, ?_, hr.1⟩
  cases r with
  | error e => rfl
  | ok u => simp [ingestMonitor, IngestPhase.next, h]

theorem publishRevocation_moves {event : CanonicalEventRecord} :
    Moves p req ph (Idles ph) (IngestPipeline.publishRevocation event) := by
  unfold IngestPipeline.publishRevocation
  split_ifs
  · apply ask_quiet_bind rfl
    · intro fresh
      split
      · exact pure_moves idles_ok
      · apply attempt_moves (ask_quiet rfl)
        intro r ph' hph
        rw [hph.1]
        exact publish_other (by simp)
    · intro e he
      refine ⟨rfl, ?_⟩
      intro e' heq
      cases heq
      exact he
  · exact pure_moves idles_ok

/-- A claimed request ends stored, or fails with its claim in hand. -/
def Ends (r : CoreResult IngestOutcome) (ph : IngestPhase) : Prop :=
  match r with
  | .ok outcome => outcome.status ≠ .duplicate ∧ (ph = .stored ∨ ph = .unsaved)
  | .error e => e.ofPort = true ∧ ph.Live

theorem publishEvent_moves {event : CanonicalEventRecord}
    (hevent : ∀ topic key, p.Carries req ⟨topic, key, .event event⟩) :
    Moves p req .claimed Ends (p.publishEvent req event) := by
  have hstored : ∀ e : CoreError, e.ofPort = true → Ends (.error e) .stored := by
    intro e he
    exact ⟨he, .inr rfl⟩
  unfold IngestPipeline.publishEvent
  apply ask_bind_moves _
  · intro _
    exact hevent _ _
  · intro _ _
    show Moves p req .stored Ends _
    -- from here on the payload is on `events.raw`, whatever fails
    have htopic : (if req.isBackfill then BusTopic.eventsBackfill else .eventsRealtime) ≠ .eventsRaw := by
      split_ifs <;> simp
    apply bind_moves (publish_other htopic)
    · intro _ ph' hph
      rw [hph.1]
      split_ifs
      · apply ask_quiet_bind rfl _ hstored
        intro _
        exact pure_moves ⟨by simp, .inl rfl⟩
      · exact pure_moves ⟨by simp, .inl rfl⟩
    · intro e ph' hph
      rw [hph.1]
      exact hstored e (hph.2 e rfl)
  · intro e he
    exact ⟨he.1 e rfl, .inl rfl⟩

theorem deadLetter_moves {deliveryId : String} :
    Moves p req ph Ends (IngestPipeline.deadLetter req deliveryId) := by
  have hput : Moves p req ph (fun _ ph' => ph' = .stored ∨ ph' = .unsaved)
      (ask (.putDlq req.tenantId "normalize_error" req.body)) := by
    refine ask_meets (show _ ∧ _ from ⟨rfl, rfl⟩) ?_
    intro r _
    refine ⟨rfl, ?_⟩
    cases r with
    | ok uri => exact .inl rfl
    | error e => exact .inr rfl
  apply attempt_moves hput
  intro r ph' hph
  exact pure_moves ⟨by simp, hph⟩

theorem processClaimed_moves {deliveryId : String} (htenant : tenant.tenantId = req.tenantId) :
    Moves p req .claimed Ends (p.processClaimed tenant req deliveryId) := by
  unfold IngestPipeline.processClaimed
  apply attempt_moves (ask_quiet rfl)
  intro stored ph hph
  rw [hph.1]
  apply attempt_moves (normalizeAndEnrich_moves htenant)
  intro r ph hr
  rw [hr.1]
  cases r with
  | error e => exact deadLetter_moves
  | ok event =>
    apply bind_moves publishRevocation_moves
    · intro _ ph hph
      rw [hph.1]
      exact publishEvent_moves (hr.2 event rfl)
    · intro e ph hph
      rw [hph.1]
      exact ⟨hph.2 e rfl, .inl rfl⟩

/-- A claimed request that fails has given its claim back. -/
theorem processOrRelease_moves {deliveryId : String} (htenant : tenant.tenantId = req.tenantId) :
    Moves p req .claimed (fun r ph => ph.Settles r) (p.processOrRelease tenant req deliveryId) := by
  apply attempt_moves (processClaimed_moves htenant)
  intro r ph hr
  cases r with
  | ok outcome =>
    apply pure_moves
    simpa [IngestPhase.Settles, hr.1] using hr.2
  | error e =>
    have hrelease : Moves p req ph (fun _ ph' => ph' = .withdrawn) (ask (.release deliveryId)) := by
      apply ask_meets hr.2
      intro r _
      exact ⟨rfl, rfl⟩
    have hwithdrawn : Moves p req ph (fun r ph => ph.Settles r)
        (do let _ ← attempt (ask (.release deliveryId)); throw e : IngestM IngestOutcome) := by
      apply attempt_moves hrelease
      intro _ ph' hph
      exact throw_moves ⟨hr.1, .inr hph⟩
    cases e with
    | deadLetter text => cases hr.1
    | _ => exact hwithdrawn

theorem authenticate_moves : Moves p req ph (Idles ph) (p.authenticate tenant req) := by
  unfold IngestPipeline.authenticate
  split_ifs
  · exact pure_moves idles_ok
  · split
    · apply throw_moves
      refine ⟨rfl, ?_⟩
      intro e he
      cases he
      rfl
    · exact ask_quiet rfl

theorem deliveryId_moves : Moves p req ph (Idles ph) (IngestPipeline.deliveryId req) := by
  unfold IngestPipeline.deliveryId
  split
  · exact pure_moves idles_ok
  · exact ask_quiet rfl

/-- Before the claim a call can only fail. -/
theorem bind_idles {prog : IngestM α} {f : α → IngestM IngestOutcome}
    (hprog : Moves p req .unclaimed (Idles .unclaimed) prog)
    (h : ∀ a, Moves p req .unclaimed (fun r ph => ph.Settles r) (f a)) :
    Moves p req .unclaimed (fun r ph => ph.Settles r) (prog >>= f) := by
  apply bind_moves hprog
  · intro a ph hph
    rw [hph.1]
    exact h a
  · intro e ph hph
    rw [hph.1]
    exact ⟨hph.2 e rfl, .inl rfl⟩

theorem ingestInner_moves :
    Moves p req .unclaimed (fun r ph => ph.Settles r) (p.ingestInner req) := by
  unfold IngestPipeline.ingestInner
  split_ifs
  · exact throw_moves ⟨rfl, .inl rfl⟩
  · apply ask_bind_moves (.getTenant req.tenantId) trivial
    · intro found hfound
      show Moves p req .unclaimed (fun r ph => ph.Settles r) _
      cases found with
      | none => exact throw_moves ⟨rfl, .inl rfl⟩
      | some tenant =>
        have htenant : tenant.tenantId = req.tenantId := hfound.2
        apply bind_idles authenticate_moves
        intro _
        apply bind_idles (ask_quiet rfl)
        intro _
        apply bind_idles deliveryId_moves
        intro eventId
        apply ask_bind_moves (.tryClaim eventId) rfl
        · intro first _
          cases first with
          | true => exact processOrRelease_moves htenant
          | false =>
            apply pure_moves
            simp [IngestPhase.Settles, IngestPhase.next]
        · intro e he
          exact ⟨he.1 e rfl, .inl rfl⟩
    · intro e he
      exact ⟨he.1 e rfl, .inl rfl⟩

/-- What a call answers is what its phase says. -/
theorem ingest_moves : Moves p req .unclaimed (fun r ph => ph.Settles r) (p.ingest req) := by
  apply attempt_moves ingestInner_moves
  intro result ph hresult
  apply ask_bind_moves .elapsedMs trivial
  · intro latencyMs _
    show Moves p req ph (fun r ph => ph.Settles r) _
    cases result with
    | ok outcome => exact pure_moves hresult
    | error e =>
      have he : Moves p req ph (fun r ph => ph.Settles r) (throw e : IngestM IngestOutcome) :=
        throw_moves hresult
      cases e with
      | duplicate eventId => cases hresult.1
      | _ => exact he
  · intro e he
    exact he.2.elim

end Programs

end AiManager.Telemetry
