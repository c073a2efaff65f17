import Mathlib.Algebra.BigOperators.Ring.Finset
import Mathlib.Data.Fintype.Card
import AiManager.Lib.Tally
import AiManager.Telemetry.ZeroLoss

/-! # Metrics of the ingestion

The calls of `ingest` with the counters that they increment on the way; every increment is a step of its own.
Without them the programs are those of the pipeline (`unmetered_ingest`). -/

namespace AiManager.Telemetry

open Lib

/-! ## Counters -/

inductive Counter where
  | accepted
  | duplicates
  | authFailures
  | rateLimited
  | deadLettered
  | errors
  | dedupHits
  | dedupMisses
  deriving DecidableEq

/-- The counters that stand for the end of a call. -/
def Counter.ends : List Counter := [.accepted, .duplicates, .authFailures, .rateLimited, .deadLettered, .errors]

/-- The counters of the source have 64 bits, these have no bound. -/
structure IngestMetrics where
  counters : Counter → ℕ := 0
  /-- Unix seconds of the last accepted ingest; 0 is never -/
  lastAcceptedUnix : ℕ := 0
  latencySamplesMs : List ℕ := []
  perTenant : KMap String ℕ := ∅

inductive MetricsOp where
  | fetchAdd (counter : Counter)
  | storeLastAccepted
  | recordLatency (ms : ℕ)
  | recordTenant (tenantId : String)

def IngestMetrics.perform (nowUnix : ℕ) (m : IngestMetrics) : MetricsOp → IngestMetrics
  | .fetchAdd counter => { m with counters := m.counters + Pi.single counter 1 }
  | .storeLastAccepted => { m with lastAcceptedUnix := nowUnix }
  | .recordLatency ms =>
    let samples := m.latencySamplesMs ++ [ms]
    -- a rolling window to bound memory
    { m with latencySamplesMs := if samples.length > 50000 then samples.drop (samples.length - 25000) else samples }
  | .recordTenant tenantId =>
    { m with perTenant := m.perTenant.put tenantId ((m.perTenant.get tenantId).getD 0 + 1) }

/-! ## Calls -/

inductive MeteredOp where
  | port (op : IngestOp)
  | metrics (op : MetricsOp)

namespace MeteredOp

@[reducible] def Val : MeteredOp → Type
  | port op => op.Val
  | metrics _ => Unit

abbrev Res : MeteredOp → Type := Fallible CoreError Val

end MeteredOp

abbrev MeteredM (α : Type) := ExceptT CoreError (Prog MeteredOp MeteredOp.Res) α

structure MeteredChoice extends IngestChoice where
  nowUnix : ℕ := 0

/-- Metrics do not fail. -/
def IngestPipeline.meteredAnswer (p : IngestPipeline) :
    Answer MeteredOp MeteredOp.Res (IngestShared × IngestMetrics) MeteredChoice := fun c op s =>
  match op with
  | .port op => (p.answer c.toIngestChoice op s.1).map fun (r, shared) => (r, shared, s.2)
  | .metrics op => some (.ok (), s.1, s.2.perform c.nowUnix op)

namespace Metered
variable {α β : Type}

/-- A part of the pipeline that counts nothing. -/
def port (prog : IngestM α) : MeteredM α := ExceptT.mk (prog.run.mapCalls .port fun _ r => r)

def record (op : MetricsOp) : MeteredM Unit := do
  let _ ← attempt (Lib.ask (.metrics op))

def recordAccepted : MeteredM Unit := do
  record (.fetchAdd .accepted)
  record .storeLastAccepted

def recordDedupHit : MeteredM Unit := record (.fetchAdd .dedupHits)

def recordDedupMiss : MeteredM Unit := record (.fetchAdd .dedupMisses)

def ingestInner (p : IngestPipeline) (req : IngestRequest) : MeteredM IngestOutcome := do
  record (.recordTenant req.tenantId)
  if p.isUrlVerification req then throw (.validation "slack_url_verification")
  else do
    match ← port (ask (.getTenant req.tenantId)) with
    | none => throw (.notFound ("tenant " ++ req.tenantId))
    | some tenant => do
      port (p.authenticate tenant req)
      port (ask (.checkRate req.tenantId))
      let eventId ← port (IngestPipeline.deliveryId req)
      let first ← port (ask (.tryClaim eventId))
      if first then do
        recordDedupMiss
        port (p.processOrRelease tenant req eventId)
      else do
        recordDedupHit
        return ⟨eventId, .duplicate, 0⟩

/-- What is recorded for a call that came to an outcome. -/
def recordStatus : IngestStatus → MeteredM Unit
  | .accepted => recordAccepted
  | .duplicate => do
    record (.fetchAdd .duplicates)
    recordDedupHit
  | .deadLettered => record (.fetchAdd .deadLettered)

def ingest (p : IngestPipeline) (req : IngestRequest) : MeteredM IngestOutcome := do
  let result ← attempt (ingestInner p req)
  let latencyMs ← port (ask .elapsedMs)
  record (.recordLatency latencyMs)
  match result with
  | .ok outcome => do
    recordStatus outcome.status
    return { outcome with latencyMs }
  | .error (.auth text) => do
    record (.fetchAdd .authFailures)
    throw (.auth text)
  | .error (.rateLimited retryAfterSecs) => do
    record (.fetchAdd .rateLimited)
    throw (.rateLimited retryAfterSecs)
  | .error (.duplicate eventId) => do
    record (.fetchAdd .duplicates)
    recordDedupHit
    return ⟨eventId, .duplicate, latencyMs⟩
  | .error e => do
    record (.fetchAdd .errors)
    throw e

/-! ## Without metrics -/

/-- The program without its metrics. -/
def unmetered : Prog MeteredOp MeteredOp.Res α → Prog IngestOp IngestOp.Res α
  | .pure a => .pure a
  | .call (.port op) k => .call op fun r => unmetered (k r)
  | .call (.metrics _) k => unmetered (k (.ok ()))

def strip (prog : MeteredM α) : IngestM α := ExceptT.mk (unmetered prog.run)

theorem unmetered_bind (prog : Prog MeteredOp MeteredOp.Res α) (f : α → Prog MeteredOp MeteredOp.Res β) :
    unmetered (prog.bind f) = (unmetered prog).bind fun a => unmetered (f a) := by
  induction prog with
  | pure a => rfl
  | call op k ih =>
    cases op with
    | port op => exact congrArg (Prog.call op) (funext ih)
    | metrics op => exact ih _

@[simp] theorem strip_bind (prog : MeteredM α) (f : α → MeteredM β) :
    strip (prog >>= f) = strip prog >>= fun a => strip (f a) := by
  refine (unmetered_bind prog.run _).trans (congrArg (Prog.bind (unmetered prog.run)) (funext fun r => ?_))
  cases r <;> rfl

@[simp] theorem strip_attempt (prog : MeteredM α) : strip (attempt prog) = attempt (strip prog) :=
  unmetered_bind prog.run fun r => .pure (Except.ok r)

@[simp] theorem strip_port (prog : IngestM α) : strip (port prog) = prog := by
  have hrun : ∀ q : Prog IngestOp IngestOp.Res (CoreResult α),
      unmetered (q.mapCalls MeteredOp.port fun _ r => r) = q := by
    intro q
    induction q with
    | pure a => rfl
    | call op k ih => exact congrArg (Prog.call op) (funext ih)
  exact hrun prog.run

@[simp] theorem strip_pure (a : α) : strip (pure a : MeteredM α) = pure a := rfl

@[simp] theorem strip_throw (e : CoreError) : strip (throw e : MeteredM α) = throw e := rfl

@[simp] theorem strip_record (op : MetricsOp) : strip (record op) = pure () := rfl

@[simp] theorem strip_recordStatus (status : IngestStatus) : strip (recordStatus status) = pure () := by
  cases status <;> rfl

theorem strip_ingestInner (p : IngestPipeline) (req : IngestRequest) : strip (ingestInner p req) = p.ingestInner req := by
  unfold ingestInner IngestPipeline.ingestInner
  rw [strip_bind, strip_record, pure_bind]
  split_ifs
  · rfl
  · rw [strip_bind, strip_port]
    refine bind_congr fun found => ?_
    cases found with
    | none => rfl
    | some tenant =>
      simp only [strip_bind, strip_port]
      refine bind_congr fun _ => bind_congr fun _ => bind_congr fun eventId => bind_congr fun first => ?_
      cases first with
      | false => rfl
      | true =>
        rw [if_pos rfl, if_pos rfl, strip_bind, strip_port]
        rfl

/-- Without metrics it is the `ingest` of the pipeline. -/
theorem strip_ingest (p : IngestPipeline) (req : IngestRequest) : strip (ingest p req) = p.ingest req := by
  unfold ingest IngestPipeline.ingest
  simp only [strip_bind, strip_attempt, strip_ingestInner, strip_port, strip_record, pure_bind]
  refine bind_congr fun result => bind_congr fun latencyMs => ?_
  cases result with
  | ok outcome =>
    rw [strip_bind, strip_recordStatus]
    rfl
  | error e => cases e <;> rfl

/-! ## What a call counts -/

/-- The counters that a call increments, and whether its claim is refused. -/
def weight : (op : MeteredOp) → op.Res → (Counter → ℕ) × ℕ
  | .metrics (.fetchAdd counter), _ => (Pi.single counter 1, 0)
  | .port (.tryClaim _), .ok false => (0, 1)
  | _, _ => 0

/-- The counter for the end of a call. -/
def counterOf : CoreResult IngestOutcome → Counter
  | .ok outcome =>
    match outcome.status with
    | .accepted => .accepted
    | .duplicate => .duplicates
    | .deadLettered => .deadLettered
  | .error (.auth _) => .authFailures
  | .error (.rateLimited _) => .rateLimited
  | .error _ => .errors

def isDuplicate : CoreResult IngestOutcome → Bool
  | .ok outcome => outcome.status = .duplicate
  | .error _ => false

/-- What was counted by a call that returns. A refused claim is a hit twice. -/
structure Counted (r : CoreResult IngestOutcome) (n : (Counter → ℕ) × ℕ) : Prop where
  ends : ∀ c ∈ Counter.ends, n.1 c = if c = counterOf r then 1 else 0
  hits : n.1 .dedupHits = 2 * n.2
  refused : n.2 = if isDuplicate r then 1 else 0

/-- The inner part counts no end, and a refused claim once. -/
structure InnerCounted (r : CoreResult IngestOutcome) (n : (Counter → ℕ) × ℕ) : Prop where
  ends : ∀ c ∈ Counter.ends, n.1 c = 0
  hits : n.1 .dedupHits = n.2
  refused : n.2 = if isDuplicate r then 1 else 0
  error : ∀ e, r = .error e → e.ofPort = true

def meteredMonitor (p : IngestPipeline) :
    Monitor MeteredOp MeteredOp.Res ((IngestRequest × IngestPhase) × (Counter → ℕ) × ℕ) where
  next q op r :=
    match op, r with
    | .port op, r => ((ingestMonitor p).next q.1 op r, q.2 + weight (.port op) r)
    | .metrics op, r => (q.1, q.2 + weight (.metrics op) r)
  allows q op :=
    match op with
    | .port op => (ingestMonitor p).allows q.1 op
    | .metrics _ => True
  replies op r :=
    match op, r with
    | .port op, r => (ingestMonitor p).replies op r
    | .metrics _, r => r = .ok ()

section Programs
variable {p : IngestPipeline} {req : IngestRequest} {ph : IngestPhase} {n : (Counter → ℕ) × ℕ}

/-- A part that takes a call from one phase and one count to others; `R` says to which. -/
abbrev Counts (p : IngestPipeline) (req : IngestRequest) (ph : IngestPhase) (n : (Counter → ℕ) × ℕ)
    (R : CoreResult α → IngestPhase → (Counter → ℕ) × ℕ → Prop) (prog : MeteredM α) : Prop :=
  prog.run.Meets (meteredMonitor p) (fun r q => q.1.1 = req ∧ R r q.1.2 q.2) ((req, ph), n)

theorem bind_counts {prog : MeteredM α} {f : α → MeteredM β} {R : CoreResult α → IngestPhase → (Counter → ℕ) × ℕ → Prop}
    {R' : CoreResult β → IngestPhase → (Counter → ℕ) × ℕ → Prop} (hprog : Counts p req ph n R prog)
    (hok : ∀ a ph' n', R (.ok a) ph' n' → Counts p req ph' n' R' (f a))
    (herror : ∀ e ph' n', R (.error e) ph' n' → R' (.error e) ph' n') : Counts p req ph n R' (prog >>= f) := by
  apply bind_meets hprog
  · rintro a ⟨⟨q, ph'⟩, n'⟩ ⟨rfl, h⟩
    exact hok a ph' n' h
  · intro e q hq
    exact ⟨hq.1, herror e q.1.2 q.2 hq.2⟩

theorem attempt_counts {prog : MeteredM α} {f : CoreResult α → MeteredM β}
    {R : CoreResult α → IngestPhase → (Counter → ℕ) × ℕ → Prop}
    {R' : CoreResult β → IngestPhase → (Counter → ℕ) × ℕ → Prop} (hprog : Counts p req ph n R prog)
    (h : ∀ r ph' n', R r ph' n' → Counts p req ph' n' R' (f r)) : Counts p req ph n R' (attempt prog >>= f) := by
  apply attempt_bind_meets hprog
  rintro r ⟨⟨q, ph'⟩, n'⟩ ⟨rfl, hr⟩
  exact h r ph' n' hr

/-- An increment, and what follows. -/
theorem record_counts (op : MetricsOp) {f : Unit → MeteredM β} {R : CoreResult β → IngestPhase → (Counter → ℕ) × ℕ → Prop}
    (h : Counts p req ph (n + weight (.metrics op) (.ok ())) R (f ())) : Counts p req ph n R (record op >>= f) := by
  refine ⟨trivial, ?_⟩
  rintro r rfl
  exact h

theorem record_last (op : MetricsOp) :
    Counts p req ph n (fun r _ n' => r = .ok () ∧ n' = n + weight (.metrics op) (.ok ())) (record op) := by
  refine ⟨trivial, ?_⟩
  rintro r rfl
  exact ⟨rfl, rfl, rfl⟩

theorem pure_counts {R : CoreResult α → IngestPhase → (Counter → ℕ) × ℕ → Prop} {a : α} (h : R (.ok a) ph n) :
    Counts p req ph n R (pure a) :=
  ⟨rfl, h⟩

theorem throw_counts {R : CoreResult α → IngestPhase → (Counter → ℕ) × ℕ → Prop} {e : CoreError}
    (h : R (.error e) ph n) : Counts p req ph n R (throw e : MeteredM α) :=
  ⟨rfl, h⟩

/-- The claim was made, and was not refused. -/
def Held (ph : IngestPhase) : Prop := ph ≠ .unclaimed ∧ ph ≠ .refused

/-- Once the claim is held it is not tried again. -/
theorem held_next {op : IngestOp} {r : op.Res} (h : Held ph) (hallows : (ingestMonitor p).allows (req, ph) op) :
    Held (ph.next op r) ∧ weight (.port op) r = 0 := by
  cases op with
  | tryClaim id => exact absurd hallows h.1
  | putDlq _ _ _ => cases r <;> exact ⟨⟨nofun, nofun⟩, rfl⟩
  | release _ => cases r <;> exact ⟨⟨nofun, nofun⟩, rfl⟩
  | publish message =>
    cases r with
    | error e => exact ⟨h, rfl⟩
    | ok _ =>
      refine ⟨?_, rfl⟩
      show Held (if message.topic = .eventsRaw then .stored else ph)
      split_ifs
      · exact ⟨nofun, nofun⟩
      · exact h
  | _ => cases r <;> exact ⟨h, rfl⟩

/-- A part of the pipeline that starts with the claim in hand. -/
theorem port_counts {prog : IngestM α} {R : CoreResult α → IngestPhase → Prop} (h : Moves p req ph R prog)
    (hheld : Held ph) : Counts p req ph n (fun r ph' n' => R r ph' ∧ Held ph' ∧ n' = n) (port prog) := by
  have hmeets : ∀ (q : Prog IngestOp IngestOp.Res (CoreResult α)) (ph : IngestPhase), Held ph →
      q.Meets (ingestMonitor p) (fun r q => q.1 = req ∧ R r q.2) (req, ph) →
      (q.mapCalls MeteredOp.port fun _ r => r).Meets (meteredMonitor p)
        (fun r q => q.1.1 = req ∧ R r q.1.2 ∧ Held q.1.2 ∧ q.2 = n) ((req, ph), n) := by
    intro q
    induction q with
    | pure r =>
      intro ph hheld hq
      exact ⟨hq.1, hq.2, hheld, rfl⟩
    | call op k ih =>
      rintro ph hheld ⟨hallows, hq⟩
      refine ⟨hallows, fun r hr => ?_⟩
      obtain ⟨hnext, hweight⟩ := held_next (r := r) hheld hallows
      have hk := ih r (ph.next op r) hnext (hq r hr)
      show Prog.Meets (meteredMonitor p) _ _ ((req, ph.next op r), n + weight (.port op) r)
      rw [hweight, add_zero]
      exact hk
  exact hmeets prog.run ph hheld h

/-- A call that does not concern the claim. -/
theorem port_quiet {op : IngestOp} (h : op.quiet = true) :
    Counts p req ph n (fun r ph' n' => ph' = ph ∧ n' = n ∧ ∀ e, r = .error e → e.ofPort = true) (port (ask op)) := by
  refine ⟨allows_quiet h _, fun r hr => ⟨rfl, next_quiet h r, ?_, hr.1⟩⟩
  have hweight : weight (.port op) r = 0 := by
    cases op <;> first | rfl | cases h
  show n + weight (.port op) r = n
  rw [hweight, add_zero]

/-- Before the claim a part can only fail. -/
def Quiet (n : (Counter → ℕ) × ℕ) (r : CoreResult α) (ph : IngestPhase) (n' : (Counter → ℕ) × ℕ) : Prop :=
  ph = .unclaimed ∧ n' = n ∧ ∀ e, r = .error e → e.ofPort = true

theorem quiet_bind {prog : MeteredM α} {f : α → MeteredM IngestOutcome} (hzero : n = 0)
    (hprog : Counts p req .unclaimed n (Quiet n) prog)
    (h : ∀ a, Counts p req .unclaimed n (fun r _ n => InnerCounted r n) (f a)) :
    Counts p req .unclaimed n (fun r _ n => InnerCounted r n) (prog >>= f) := by
  apply bind_counts hprog
  · rintro a ph' n' ⟨rfl, rfl, -⟩
    exact h a
  · rintro e ph' n' ⟨rfl, rfl, he⟩
    subst hzero
    refine ⟨fun _ _ => rfl, rfl, rfl, ?_⟩
    intro e' heq
    cases heq
    exact he e rfl

theorem authenticate_quiet {tenant : TenantConfig} :
    Counts p req .unclaimed n (Quiet n) (port (p.authenticate tenant req)) := by
  unfold IngestPipeline.authenticate
  split_ifs
  · exact ⟨rfl, rfl, rfl, fun _ he => nomatch he⟩
  · split
    · refine ⟨rfl, rfl, rfl, ?_⟩
      rintro e he
      cases he
      rfl
    · exact port_quiet rfl

theorem deliveryId_quiet : Counts p req .unclaimed n (Quiet n) (port (IngestPipeline.deliveryId req)) := by
  unfold IngestPipeline.deliveryId
  split
  · exact ⟨rfl, rfl, rfl, fun _ he => nomatch he⟩
  · exact port_quiet rfl

/-- A call of a port, and what follows in the phase that its answer leads to. -/
theorem port_bind_counts (op : IngestOp) {f : op.Val → MeteredM β}
    {R : CoreResult β → IngestPhase → (Counter → ℕ) × ℕ → Prop} (hallows : (ingestMonitor p).allows (req, ph) op)
    (hok : ∀ a, (ingestMonitor p).replies op (.ok a) →
      Counts p req (ph.next op (.ok a)) (n + weight (.port op) (.ok a)) R (f a))
    (herror : ∀ e, (ingestMonitor p).replies op (.error e) →
      R (.error e) (ph.next op (.error e)) (n + weight (.port op) (.error e))) :
    Counts p req ph n R (port (ask op) >>= f) := by
  refine ⟨hallows, fun r hr => ?_⟩
  cases r with
  | ok a => exact hok a hr
  | error e => exact ⟨rfl, herror e hr⟩

theorem innerCounted_error {e : CoreError} (he : e.ofPort = true) : InnerCounted (.error e) 0 := by
  refine ⟨fun _ _ => rfl, rfl, rfl, ?_⟩
  intro e' heq
  cases heq
  exact he

/-- A claimed request is not refused. -/
theorem innerCounted_claimed {r : CoreResult IngestOutcome} (hsettles : ph.Settles r) (hheld : Held ph) :
    InnerCounted r (Pi.single .dedupMisses 1, 0) := by
  have hdup : isDuplicate r = false := by
    cases r with
    | error e => rfl
    | ok outcome =>
      rw [isDuplicate, decide_eq_false_iff_not]
      intro hstatus
      rw [IngestPhase.Settles, if_pos hstatus] at hsettles
      exact hheld.2 hsettles
  refine ⟨by decide, rfl, ?_, ?_⟩
  · rw [hdup]
    rfl
  · rintro e rfl
    exact hsettles.1

theorem ingestInner_counts : Counts p req .unclaimed 0 (fun r _ n => InnerCounted r n) (ingestInner p req) := by
  unfold ingestInner
  apply record_counts
  rw [show 0 + weight (.metrics (.recordTenant req.tenantId)) (.ok ()) = 0 from rfl]
  split_ifs
  · exact throw_counts (innerCounted_error rfl)
  · apply port_bind_counts (.getTenant req.tenantId) trivial
    · intro found hfound
      show Counts p req .unclaimed 0 (fun r _ n => InnerCounted r n) _
      cases found with
      | none => exact throw_counts (innerCounted_error rfl)
      | some tenant =>
        have htenant : tenant.tenantId = req.tenantId := hfound.2
        apply quiet_bind rfl authenticate_quiet
        intro _
        apply quiet_bind rfl (port_quiet rfl)
        intro _
        apply quiet_bind rfl deliveryId_quiet
        intro eventId
        apply port_bind_counts (.tryClaim eventId) rfl
        · intro first _
          cases first with
          | true =>
            apply record_counts
            have hweight : 0 + weight (.port (.tryClaim eventId)) (.ok true) +
                weight (.metrics (.fetchAdd .dedupMisses)) (.ok ()) = (Pi.single .dedupMisses 1, 0) :=
              (add_assoc _ _ _).trans ((zero_add _).trans (zero_add _))
            rw [hweight]
            apply Prog.Meets.mono (port_counts (processOrRelease_moves htenant) ⟨nofun, nofun⟩)
            rintro r q ⟨hreq, hsettles, hheld, hn⟩
            refine ⟨hreq, ?_⟩
            rw [hn]
            exact innerCounted_claimed hsettles hheld
          | false =>
            apply record_counts
            apply pure_counts
            show InnerCounted _ (0 + (0, 1) + (Pi.single .dedupHits 1, 0))
            exact ⟨by decide, rfl, rfl, nofun⟩
        · intro e he
          exact innerCounted_error (he.1 e rfl)
    · intro e he
      exact innerCounted_error (he.1 e rfl)

/-- A call that is not refused ends with one increment. -/
theorem InnerCounted.counted {r r' : CoreResult IngestOutcome} (h : InnerCounted r n) (hdup : isDuplicate r = false)
    (hdup' : isDuplicate r' = false) : Counted r' (n + (Pi.single (counterOf r') 1, 0)) := by
  have hn : n.2 = 0 := by rw [h.refused, hdup]; rfl
  constructor
  case ends =>
    intro c hc
    show n.1 c + (Pi.single (counterOf r') 1 : Counter → ℕ) c = _
    rw [h.ends c hc, zero_add, Pi.single_apply]
  case hits =>
    have hne : Counter.dedupHits ≠ counterOf r' := by
      unfold counterOf
      split
      · split <;> nofun
      · nofun
      · nofun
      · nofun
    show n.1 .dedupHits + (Pi.single (counterOf r') 1 : Counter → ℕ) .dedupHits = 2 * n.2
    rw [h.hits, hn, Pi.single_apply, if_neg hne]
    rfl
  case refused =>
    show n.2 = _
    rw [hn, hdup']
    rfl

/-- A refused call ends with one increment and a second hit. -/
theorem InnerCounted.counted_duplicate {r r' : CoreResult IngestOutcome} (h : InnerCounted r n)
    (hdup : isDuplicate r = true) (hdup' : isDuplicate r' = true) :
    Counted r' (n + (Pi.single .duplicates 1, 0) + (Pi.single .dedupHits 1, 0)) := by
  have hn : n.2 = 1 := by rw [h.refused, hdup]; rfl
  have hcounter : counterOf r' = .duplicates := by
    cases r' with
    | error e => cases hdup'
    | ok outcome => rw [counterOf, of_decide_eq_true hdup']
  constructor
  case ends =>
    intro c hc
    have hne : c ≠ .dedupHits := by
      rintro rfl
      exact absurd hc (by decide)
    show n.1 c + (Pi.single .duplicates 1 : Counter → ℕ) c + (Pi.single .dedupHits 1 : Counter → ℕ) c = _
    rw [h.ends c hc, hcounter, zero_add, Pi.single_apply, Pi.single_apply, if_neg hne, add_zero]
  case hits =>
    show n.1 .dedupHits + 0 + 1 = 2 * n.2
    rw [h.hits, hn]
  case refused =>
    show n.2 = _
    rw [hn, hdup']
    rfl

theorem recordStatus_counts {outcome : IngestOutcome} (h : InnerCounted (.ok outcome) n) {outcome' : IngestOutcome}
    (hstatus : outcome'.status = outcome.status) :
    Counts p req ph n (fun r _ n' => r = .ok () ∧ Counted (.ok outcome') n') (recordStatus outcome.status) := by
  obtain ⟨eventId, status, latencyMs⟩ := outcome
  obtain ⟨eventId', status', latencyMs'⟩ := outcome'
  obtain rfl : status' = status := hstatus
  cases status' with
  | accepted =>
    apply record_counts
    apply Prog.Meets.mono (record_last .storeLastAccepted)
    rintro r q ⟨hreq, hr, hn⟩
    refine ⟨hreq, hr, ?_⟩
    rw [hn]
    exact h.counted rfl rfl
  | duplicate =>
    apply record_counts
    apply Prog.Meets.mono (record_last (.fetchAdd .dedupHits))
    rintro r q ⟨hreq, hr, hn⟩
    refine ⟨hreq, hr, ?_⟩
    rw [hn]
    exact h.counted_duplicate rfl rfl
  | deadLettered =>
    apply Prog.Meets.mono (record_last (.fetchAdd .deadLettered))
    rintro r q ⟨hreq, hr, hn⟩
    refine ⟨hreq, hr, ?_⟩
    rw [hn]
    exact h.counted rfl rfl

/-- What a call counts is what it returns. -/
theorem ingest_counts : Counts p req .unclaimed 0 (fun r _ n => Counted r n) (ingest p req) := by
  unfold ingest
  apply attempt_counts ingestInner_counts
  intro result ph n hinner
  apply port_bind_counts .elapsedMs trivial
  · intro latencyMs _
    apply record_counts
    show Counts p req ph (n + 0 + 0) (fun r _ n => Counted r n) _
    rw [add_zero, add_zero]
    cases result with
    | ok outcome =>
      have hstatus : ({ outcome with latencyMs } : IngestOutcome).status = outcome.status := rfl
      apply bind_counts (recordStatus_counts hinner hstatus)
      · rintro _ ph' n' ⟨-, hcounted⟩
        exact pure_counts hcounted
      · rintro e ph' n' ⟨he, -⟩
        cases he
    | error e =>
      have he := hinner.error e rfl
      cases e with
      | duplicate eventId => cases he
      | _ =>
        apply record_counts
        apply throw_counts
        exact hinner.counted rfl rfl
  · intro e he
    exact he.2.elim

end Programs

/-! ## Many calls -/

section Pools
variable {ι : Type}

abbrev MeteredPool (ι : Type) :=
  Pool ι MeteredOp MeteredOp.Res (IngestShared × IngestMetrics) (CoreResult IngestOutcome)

/-- The calls at their start. -/
def start (p : IngestPipeline) (calls : ι → IngestRequest) (s : IngestShared) (m : IngestMetrics) : MeteredPool ι :=
  ⟨(s, m), fun i => (ingest p (calls i)).run, []⟩

/-- The call returned with status duplicate. -/
def answeredDuplicate (pool : MeteredPool ι) (i : ι) : Bool :=
  match pool.threads i with
  | .pure r => isDuplicate r
  | .call _ _ => false

variable [DecidableEq ι]

/-- How often a call incremented a counter. -/
def increments (pool : MeteredPool ι) (i : ι) (c : Counter) : ℕ := (tally weight i pool.trace).1 c

/-- Each call increments one counter of those for its end, these sum up to the number of calls, and there are as many
hits as answers that tell of a duplicate. -/
structure Conserved [Fintype ι] (m : IngestMetrics) (pool : MeteredPool ι) : Prop where
  once : ∀ i, ∃ c ∈ Counter.ends, ∀ c' ∈ Counter.ends, increments pool i c' = if c' = c then 1 else 0
  sum : (Counter.ends.map pool.shared.2.counters).sum = (Counter.ends.map m.counters).sum + Fintype.card ι
  hits : pool.shared.2.counters .dedupHits =
    m.counters .dedupHits + (Finset.univ.filter fun i => answeredDuplicate pool i).card

/-- A delivery id is not tried while it is claimed. -/
def Unclaimed (pool : MeteredPool ι) (x : ι × MeteredChoice) : Prop :=
  ∀ id k, pool.threads x.1 = .call (.port (.tryClaim id)) k → x.2.fault = none →
    (pool.shared.1.dedup.tryClaim x.2.gcNow x.2.claimNow id).1 = true

variable {p : IngestPipeline} {calls : ι → IngestRequest} {s : IngestShared} {m : IngestMetrics}
  {sched : List (ι × MeteredChoice)}

theorem watch_meteredMonitor (q : (IngestRequest × IngestPhase) × (Counter → ℕ) × ℕ) (i : ι)
    (tr : List (Event ι MeteredOp MeteredOp.Res)) :
    (watch (meteredMonitor p).next q i tr).2 = q.2 + tally weight i tr := by
  induction tr with
  | nil => exact (add_zero _).symm
  | cons e tr ih =>
    obtain ⟨j, op, r⟩ := e
    rw [tally_cons, ← add_assoc, ← ih]
    by_cases hi : i = j
    · subst hi
      rw [watch_cons_self, if_pos rfl]
      cases op <;> rfl
    · rw [watch_cons_ne _ _ (Ne.symm hi), if_neg hi, add_zero]

theorem meteredAnswer_replies {c : MeteredChoice} {op : MeteredOp} {t t' : IngestShared × IngestMetrics} {r : op.Res}
    (h : p.meteredAnswer c op t = some (r, t')) : (meteredMonitor p).replies op r := by
  cases op with
  | metrics op => exact (Prod.mk.inj (Option.some.inj h)).1.symm
  | port op =>
    obtain ⟨⟨r', shared⟩, hanswer, heq⟩ := Option.map_eq_some_iff.mp h
    obtain ⟨rfl, -⟩ := Prod.mk.inj heq
    exact answer_replies hanswer

/-- What a call that returned has counted. -/
theorem counted_of_returned {i : ι} {r : CoreResult IngestOutcome}
    (h : ((start p calls s m).run p.meteredAnswer sched).threads i = .pure r) :
    Counted r (tally weight i ((start p calls s m).run p.meteredAnswer sched).trace) := by
  have htracks : (start p calls s m).Tracks (meteredMonitor p) (fun i r q => q.1.1 = calls i ∧ Counted r q.2)
      (fun i => ((calls i, .unclaimed), 0)) := fun _ => ingest_counts
  have hrun : ((start p calls s m).run p.meteredAnswer sched).Tracks (meteredMonitor p)
      (fun i r q => q.1.1 = calls i ∧ Counted r q.2) (fun i => ((calls i, .unclaimed), 0)) ∧ True :=
    Pool.run_induction (I := fun _ => True) (C := fun _ _ => True) (P := fun _ => True)
      (fun _ _ _ _ _ _ _ hs => meteredAnswer_replies hs) (fun _ _ _ _ _ _ _ _ _ _ _ _ _ _ _ _ => trivial) htracks
      trivial sched (fun _ _ => trivial) (.of_forall (fun _ _ => trivial) _ _)
  have hpost := (hrun.1.post_of_returned h).2
  rw [watch_meteredMonitor, zero_add] at hpost
  exact hpost

theorem weight_port {op : IngestOp} (r : op.Res) : (weight (.port op) r).1 = 0 := by
  cases op with
  | tryClaim id =>
    cases r with
    | error e => rfl
    | ok first => cases first <;> rfl
  | _ => rfl

theorem meteredAnswer_counters {c : MeteredChoice} {op : MeteredOp} {t t' : IngestShared × IngestMetrics} {r : op.Res}
    (h : p.meteredAnswer c op t = some (r, t')) : t'.2.counters = t.2.counters + (weight op r).1 := by
  cases op with
  | port op =>
    obtain ⟨⟨r', shared⟩, -, heq⟩ := Option.map_eq_some_iff.mp h
    obtain ⟨rfl, rfl⟩ := Prod.mk.inj heq
    rw [weight_port, add_zero]
  | metrics op =>
    obtain ⟨rfl, rfl⟩ := Prod.mk.inj (Option.some.inj h)
    cases op <;> rfl

theorem snd_weight_ne_zero {op : MeteredOp} {r : op.Res} (h : (weight op r).2 ≠ 0) :
    ∃ id, op = .port (.tryClaim id) ∧ r ≍ (.ok false : CoreResult Bool) := by
  cases op with
  | metrics op => cases op <;> exact absurd rfl h
  | port op =>
    cases op with
    | tryClaim id =>
      cases r with
      | error e => exact absurd rfl h
      | ok first =>
        cases first with
        | true => exact absurd rfl h
        | false => exact ⟨id, rfl, .rfl⟩
    | _ => exact absurd rfl h

/-- A step is no refused claim. -/
theorem unclaimed_iff (pool : MeteredPool ι) (x : ι × MeteredChoice) :
    Unclaimed pool x ↔ ∀ e, pool.event p.meteredAnswer x = some e → (weight e.op e.res).2 = 0 := by
  constructor
  · intro h e he
    by_contra hne
    obtain ⟨hnone, -⟩ | ⟨op, k, r, t, hk, hanswer, hsome, -⟩ := pool.event_cases p.meteredAnswer x
    · cases hnone.symm.trans he
    · obtain rfl := Option.some.inj (hsome.symm.trans he)
      obtain ⟨id, rfl, hr⟩ := snd_weight_ne_zero hne
      obtain rfl := eq_of_heq hr
      obtain ⟨⟨r', shared⟩, hport, heq⟩ := Option.map_eq_some_iff.mp hanswer
      obtain ⟨rfl, -⟩ := Prod.mk.inj heq
      obtain ⟨hfault, hperform⟩ := answer_ok hport
      have hfirst := h id k hk (hfault rfl)
      cases (Except.ok.inj (Prod.mk.inj hperform).1).trans hfirst
  · intro h id k hk hfault
    cases hfirst : (pool.shared.1.dedup.tryClaim x.2.gcNow x.2.claimNow id).1 with
    | true => rfl
    | false =>
      have hanswer : p.meteredAnswer x.2 (.port (.tryClaim id)) pool.shared = some (.ok false,
          { pool.shared.1 with dedup := (pool.shared.1.dedup.tryClaim x.2.gcNow x.2.claimNow id).2 }, pool.shared.2) := by
        unfold IngestPipeline.meteredAnswer IngestPipeline.answer
        rw [← hfirst]
        simp only [hfault, IngestShared.perform]
        rfl
      cases h _ (Pool.event_eq hk hanswer)

/-- The calls that are told of a duplicate are those whose claim was refused. -/
theorem eachStep_unclaimed_iff (hreturned : ∀ i, ((start p calls s m).run p.meteredAnswer sched).Returned i) :
    EachStep (Pool.step p.meteredAnswer) Unclaimed (start p calls s m) sched ↔
      ∀ i, answeredDuplicate ((start p calls s m).run p.meteredAnswer sched) i = false := by
  rw [Pool.eachStep_iff_trace (unclaimed_iff (p := p)) (by intro e he; cases he) sched]
  have hcall : ∀ i, answeredDuplicate ((start p calls s m).run p.meteredAnswer sched) i = false ↔
      ∀ e ∈ ((start p calls s m).run p.meteredAnswer sched).trace, e.who = i → (weight e.op e.res).2 = 0 := by
    intro i
    obtain ⟨r, hr⟩ := hreturned i
    have hrefused := (counted_of_returned hr).refused
    have hdup : answeredDuplicate ((start p calls s m).run p.meteredAnswer sched) i = isDuplicate r := by
      rw [answeredDuplicate, hr]
    have hzero : tally (fun op r => (weight op r).2) i ((start p calls s m).run p.meteredAnswer sched).trace = 0 ↔
        ∀ e ∈ ((start p calls s m).run p.meteredAnswer sched).trace, e.who = i → (weight e.op e.res).2 = 0 :=
      tally_eq_zero_iff
    have hsnd : (tally weight i ((start p calls s m).run p.meteredAnswer sched).trace).2 =
        tally (fun op r => (weight op r).2) i ((start p calls s m).run p.meteredAnswer sched).trace :=
      map_tally (AddMonoidHom.snd (Counter → ℕ) ℕ) i _
    rw [← hzero, hdup, ← hsnd, hrefused]
    cases isDuplicate r <;> decide
  constructor
  · intro h i
    exact (hcall i).mpr fun e he _ => h e he
  · intro h e he
    exact (hcall e.who).mp (h e.who) e he rfl

/-- The counters for the ends of calls, taken together. -/
def endsTotal : (Counter → ℕ) →+ ℕ where
  toFun f := (Counter.ends.map f).sum
  map_zero' := rfl
  map_add' _ _ := List.sum_map_add

theorem endsTotal_eq_one {f : Counter → ℕ} {c : Counter} (hc : c ∈ Counter.ends)
    (h : ∀ c' ∈ Counter.ends, f c' = if c' = c then 1 else 0) : endsTotal f = 1 := by
  have hall : ∀ c ∈ Counter.ends, (Counter.ends.map fun c' => if c' = c then 1 else 0).sum = 1 := by decide
  refine Eq.trans ?_ (hall c hc)
  exact congrArg List.sum (List.map_congr_left h)

theorem counterOf_mem (r : CoreResult IngestOutcome) : counterOf r ∈ Counter.ends := by
  unfold counterOf
  split
  · split <;> decide
  all_goals decide

/-- **Conservation.** Every call is counted once for its end, and each answer that tells of a duplicate makes two hits. -/
theorem counters_run [Fintype ι] (hreturned : ∀ i, ((start p calls s m).run p.meteredAnswer sched).Returned i) :
    (∀ i, ∃ c ∈ Counter.ends, ∀ c' ∈ Counter.ends,
      increments ((start p calls s m).run p.meteredAnswer sched) i c' = if c' = c then 1 else 0) ∧
    (Counter.ends.map ((start p calls s m).run p.meteredAnswer sched).shared.2.counters).sum =
      (Counter.ends.map m.counters).sum + Fintype.card ι ∧
    ((start p calls s m).run p.meteredAnswer sched).shared.2.counters .dedupHits = m.counters .dedupHits +
      2 * (Finset.univ.filter fun i => answeredDuplicate ((start p calls s m).run p.meteredAnswer sched) i).card := by
  have honce : ∀ i, ∃ c ∈ Counter.ends, ∀ c' ∈ Counter.ends,
      increments ((start p calls s m).run p.meteredAnswer sched) i c' = if c' = c then 1 else 0 := by
    intro i
    obtain ⟨r, hr⟩ := hreturned i
    exact ⟨counterOf r, counterOf_mem r, (counted_of_returned hr).ends⟩
  have hcounters : ((start p calls s m).run p.meteredAnswer sched).shared.2.counters = m.counters +
      ∑ i, increments ((start p calls s m).run p.meteredAnswer sched) i := by
    have hempty : (start p calls s m).trace = [] := rfl
    refine (Pool.run_tally (fun op r => (weight op r).1) (fun t => t.2.counters)
      (fun _ _ _ _ _ h => meteredAnswer_counters h) hempty sched).trans ?_
    congr 1
    refine Finset.sum_congr rfl fun i _ => ?_
    exact (map_tally (AddMonoidHom.fst (Counter → ℕ) ℕ) i _).symm
  refine ⟨honce, ?_, ?_⟩
  · show endsTotal _ = endsTotal _ + _
    rw [hcounters, map_add, map_sum]
    congr 1
    rw [Finset.sum_congr rfl fun i _ => (honce i).elim fun c hc => endsTotal_eq_one hc.1 hc.2, Finset.sum_const]
    rw [Finset.card_univ, smul_eq_mul, mul_one]
  · rw [hcounters, Pi.add_apply, Finset.sum_apply, Finset.card_filter, Finset.mul_sum]
    congr 1
    refine Finset.sum_congr rfl fun i _ => ?_
    obtain ⟨r, hr⟩ := hreturned i
    have hcounted := counted_of_returned hr
    rw [increments, hcounted.hits, hcounted.refused, answeredDuplicate, hr]

/-- Metrics are conserved in the runs in which no delivery is tried while it is claimed. -/
theorem conserved_iff [Fintype ι] (p : IngestPipeline) (calls : ι → IngestRequest) (s : IngestShared)
    (m : IngestMetrics) (sched : List (ι × MeteredChoice))
    (hreturned : ∀ i, ((start p calls s m).run p.meteredAnswer sched).Returned i) :
    Conserved m ((start p calls s m).run p.meteredAnswer sched) ↔
      EachStep (Pool.step p.meteredAnswer) Unclaimed (start p calls s m) sched := by
  obtain ⟨honce, hsum, hhits⟩ := counters_run hreturned
  rw [eachStep_unclaimed_iff hreturned]
  have hnone : (∀ i, answeredDuplicate ((start p calls s m).run p.meteredAnswer sched) i = false) ↔
      (Finset.univ.filter fun i => answeredDuplicate ((start p calls s m).run p.meteredAnswer sched) i).card = 0 := by
    rw [Finset.card_eq_zero, Finset.filter_eq_empty_iff]
    exact forall_congr' fun i => by simp
  rw [hnone]
  constructor
  · intro h
    have := h.hits
    omega
  · intro h
    refine ⟨honce, hsum, ?_⟩
    rw [hhits, h]

end Pools

/-! ### A delivery that comes twice -/

section Demo

/-- Deliveries of a tenant with the ids. -/
def deliveries (ids : Bool → String) (i : Bool) : IngestRequest :=
  { delivery "a" with headers := { deliveryId := some (ids i) } }

/-- No port fails, and no time passes. -/
def undisturbed : MeteredChoice := {}

/-- One call to its end, then the other. -/
def inTurn (steps : ℕ) : List (Bool × MeteredChoice) :=
  List.replicate 10 (false, undisturbed) ++ List.replicate steps (true, undisturbed)

def twoIds (i : Bool) : String := if i then "e" else "d"

theorem two_ids_conserved :
    Conserved {} ((start lenient (deliveries twoIds) twoTenants {}).run lenient.meteredAnswer (inTurn 10)) :=
  (conserved_iff lenient (deliveries twoIds) twoTenants {} (inTurn 10) (by decide +kernel)).mpr
    ((eachStep_unclaimed_iff (by decide +kernel)).mpr (by decide +kernel))

/-- One duplicate is counted as two hits. -/
theorem one_id_not_conserved :
    ¬ Conserved {} ((start lenient (deliveries fun _ => "d") twoTenants {}).run lenient.meteredAnswer (inTurn 9)) := by
  intro h
  exact absurd h.hits (by decide +kernel)

end Demo

end Metered

end AiManager.Telemetry
