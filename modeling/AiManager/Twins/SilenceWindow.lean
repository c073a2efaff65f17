import AiManager.Twins.Transient

/-! # The veto window

Silence publishes a draft of medium confidence, and the person was told a deadline for a veto. The
deadline is stored and shown, and nothing compares it with the clock: a silence request before the
deadline publishes as one after it does. Runs in which such requests come late enough, and nobody moves
the deadline meanwhile, respect the window (`silence_waits`). -/

namespace AiManager.Twins

open Lib

/-- The deadline of the row is still to come. -/
def early (now : DateTime) (row : Option DraftDelivery) : Bool :=
  (row.bind fun draft => draft.vetoDeadline).any fun deadline => decide (now < deadline)

theorem early_mono {now now' : DateTime} (hle : now ≤ now') {row : Option DraftDelivery}
    (h : early now row = false) : early now' row = false := by
  unfold early at h ⊢
  cases hdeadline : row.bind fun draft => draft.vetoDeadline with
  | none => rfl
  | some deadline =>
    rw [hdeadline, Option.any_some, decide_eq_false_iff_not, not_lt] at h
    rw [Option.any_some, decide_eq_false_iff_not, not_lt]
    exact le_trans h hle

theorem early_congr {now : DateTime} {draft draft' : DraftDelivery}
    (h : draft'.vetoDeadline = draft.vetoDeadline) :
    early now (some draft') = early now (some draft) := by
  simp only [early, Option.bind_some, h]

/-- Tier and status let silence publish the draft. -/
def publishable (draft : DraftDelivery) (snap : LedgerSnapshot) : Bool :=
  silenceMayPublish snap.confidenceRollup &&
    (decide (draft.status = .pending) || decide (draft.status = .edited))

theorem publishable_of_apply {draft : DraftDelivery} {snap : LedgerSnapshot} {auto : Bool}
    {t : DraftStatus} (hmay : silenceMayPublish snap.confidenceRollup = true)
    (h : applyDeliveryEvent draft.status .mediumSilenceTimeout snap.confidenceRollup auto = some t) :
    publishable draft snap = true := by
  unfold publishable
  rw [hmay]
  revert h
  cases draft.status <;> simp [applyDeliveryEvent]

/-! ## A silence request -/

/-- Where a silence request is; the other calls are free. -/
inductive SilencePhase where
  | free
  | idle (tenantId draftId : String)
  | read (draft : DraftDelivery)
  | going (draft : DraftDelivery)
  | cleared (draft : DraftDelivery)
  | done

namespace SilencePhase

def next (q : SilencePhase) (op : DeliveryOp) (r : op.Res) : SilencePhase :=
  match q, op, r with
  | .idle _ _, .getDraft _ _, .ok (some draft) => .read draft
  | .read draft, .getLedger _ _, .ok (some snap) =>
    if publishable draft snap then .going draft else .done
  | .going draft, .getPublishByLedger _ _, .ok none => .cleared draft
  | .going _, .getPublishByLedger _ _, .ok (some _) => .done
  | .cleared _, .postChannel _ _, _ => .done
  | q, _, _ => q

def Allows : SilencePhase → DeliveryOp → Prop
  | .free, _ => True
  | .idle tenantId draftId, .getDraft t d => t = tenantId ∧ d = draftId
  | .read draft, .getLedger t l => t = draft.tenantId ∧ l = draft.ledgerId
  | .going _, .utcNow => True
  | .going draft, .updateDraft d => d.vetoDeadline = draft.vetoDeadline
  | .going draft, .getPublishByLedger t l => t = draft.tenantId ∧ l = draft.ledgerId
  | .cleared _, .postChannel _ _ => True
  | .done, op => op.OffChannel
  | _, _ => False

/-- The request has read its draft and may still post it. -/
def Holding : SilencePhase → Prop
  | .read _ | .going _ | .cleared _ => True
  | _ => False

end SilencePhase

/-- A stored draft is of the tenant it was read for. -/
def silenceMonitor : Monitor DeliveryOp DeliveryOp.Res SilencePhase where
  next := SilencePhase.next
  allows := SilencePhase.Allows
  replies op r :=
    match op, r with
    | .getDraft t _, .ok (some draft) => draft.tenantId = t
    | _, _ => True

section Programs
variable {svc : DeliveryService} {twin : Twin} {draft d : DraftDelivery} {α : Type}

theorem done_meets {p : DeliveryM α} (h : p.run.CallsOnly DeliveryOp.OffChannel) :
    p.run.Meets silenceMonitor (fun _ _ => True) .done := by
  refine (h.meets (fun op hop => hop) fun op r _ => ?_).mono fun _ _ _ => trivial
  cases op <;> rfl

theorem free_meets (p : DeliveryM α) : p.run.Meets silenceMonitor (fun _ _ => True) .free := by
  have h : ∀ q : Prog DeliveryOp DeliveryOp.Res (TwinResult α),
      q.Meets silenceMonitor (fun _ _ => True) .free := by
    intro q
    induction q with
    | pure a => trivial
    | call op k ih =>
      refine ⟨trivial, fun r _ => ?_⟩
      have hstays : silenceMonitor.next .free op r = .free := by cases op <;> rfl
      rw [hstays]
      exact ih r
  exact h p.run

/-- The draft at hand differs from the one that was read in its status. -/
structure Queued (draft d : DraftDelivery) : Prop where
  tenantId : d.tenantId = draft.tenantId
  ledgerId : d.ledgerId = draft.ledgerId
  vetoDeadline : d.vetoDeadline = draft.vetoDeadline

theorem publishQueued_silence (h : Queued draft d) :
    (publishQueued svc twin d).run.Meets silenceMonitor (fun _ _ => True) (.going draft) := by
  refine ask_bind_meets ⟨h.tenantId, h.ledgerId⟩ (fun found _ => ?_) fun _ _ => trivial
  cases found with
  | some existing =>
    refine done_meets ?_
    exact ask_bind_calls trivial fun _ =>
      attempt_bind_calls (callsOnly_ask trivial) fun _ => trivial
  | none =>
    refine attempt_bind_meets (R := fun _ q => q = .done) (ask_meets trivial fun r _ => rfl) ?_
    rintro post q rfl
    refine done_meets ?_
    cases post with
    | error e => exact publishFailed_offChannel
    | ok post =>
      refine ask_bind_calls trivial fun uuid => ask_bind_calls trivial fun now =>
        ask_bind_calls trivial fun inserted => ?_
      cases inserted with
      | true => exact Prog.CallsOnly.exceptT_bind finishDraft_offChannel fun _ => trivial
      | false =>
        exact ask_bind_calls trivial fun _ =>
          Prog.CallsOnly.exceptT_bind finishDraft_offChannel fun _ => trivial

theorem silenceTimeout_silence (svc : DeliveryService) (twin : Twin) (tenantId draftId : String) :
    (silenceTimeout svc twin tenantId draftId).run.Meets silenceMonitor (fun _ _ => True)
      (.idle tenantId draftId) := by
  have hload : (loadDraft tenantId draftId).run.Meets silenceMonitor
      (fun r q => ∀ y, r = .ok y → q = if publishable y.1 y.2 then .going y.1 else .done)
      (.idle tenantId draftId) := by
    unfold loadDraft
    refine ask_bind_meets ⟨rfl, rfl⟩ (fun found htenant => ?_) fun _ _ _ h => by cases h
    cases found with
    | none => exact fun _ h => by cases h
    | some draft =>
      refine ask_bind_meets ⟨htenant.symm, rfl⟩ (fun found _ => ?_) fun _ _ _ h => by cases h
      cases found with
      | none => exact fun _ h => by cases h
      | some snap =>
        intro y hy
        obtain rfl := Except.ok.inj hy
        rfl
  refine bind_meets hload (fun y q hq => ?_) fun _ _ _ => trivial
  obtain rfl := hq y rfl
  obtain ⟨draft, snap⟩ := y
  dsimp only
  cases hmay : silenceMayPublish snap.confidenceRollup with
  | false => trivial
  | true =>
    rw [Bool.not_true, if_neg Bool.false_ne_true]
    split
    · trivial
    · next next hnext =>
      rw [if_pos (publishable_of_apply hmay hnext)]
      refine ask_bind_meets trivial (fun now _ => ?_) fun _ _ => trivial
      refine ask_bind_meets rfl (fun _ _ => ?_) fun _ _ => trivial
      obtain rfl := apply_mediumSilenceTimeout hnext
      rw [if_pos rfl, tryPublishChannel_queued _ _ rfl]
      exact publishQueued_silence ⟨rfl, rfl, rfl⟩

/-- The program of a call, from the phase in which the call starts. -/
def silenceStart : DeliveryCall → SilencePhase
  | .silenceTimeout _ tenantId draftId => .idle tenantId draftId
  | _ => .free

theorem program_silence (call : DeliveryCall) :
    (call.program svc).run.Meets silenceMonitor (fun _ _ => True) (silenceStart call) := by
  cases call with
  | silenceTimeout twin t d =>
    exact bind_meets (silenceTimeout_silence svc twin t d) (fun _ _ _ => trivial)
      fun _ _ _ => trivial
  | _ => exact free_meets _

end Programs

/-! ## Runs -/

section Pool
variable {ι : Type} [DecidableEq ι] (calls : ι → DeliveryCall)

def silencePhase (pool : DeliveryPool ι) (i : ι) : SilencePhase :=
  watch SilencePhase.next (silenceStart (calls i)) i pool.trace

/-- Silence would publish the draft: its ledger is stored, of medium tier and unpublished. -/
def silencePublishes (s : DeliveryState) (draft : DraftDelivery) : Bool :=
  (s.store.getLedger draft.tenantId draft.ledgerId).any (publishable draft) &&
    (s.store.getPublishByLedger draft.tenantId draft.ledgerId).isNone

/-- A silence request reads a draft that it would publish, before the deadline. -/
def readsEarly (pool : DeliveryPool ι) (x : ι × Choice) : Bool :=
  match calls x.1, pool.event answer x with
  | .silenceTimeout _ _ _, some ⟨_, .getDraft _ _, .ok (some draft)⟩ =>
    silencePublishes pool.shared draft && early x.2.now (some draft)
  | _, _ => false

/-- A silence request posts before the stored deadline. -/
def postsEarly (pool : DeliveryPool ι) (x : ι × Choice) : Bool :=
  match calls x.1, pool.event answer x with
  | .silenceTimeout _ tenantId draftId, some ⟨_, .postChannel _ _, _⟩ =>
    early x.2.now (pool.shared.store.getDraft tenantId draftId)
  | _, _ => false

/-- The request for this draft is past its read, and may still post. -/
def SilenceHolds (pool : DeliveryPool ι) (i : ι) (tenantId draftId : String) : Prop :=
  ∃ twin, calls i = .silenceTimeout twin tenantId draftId ∧ (silencePhase calls pool i).Holding ∧
    ¬ pool.Returned i

/-- A step writes the draft with a deadline to come, while another call, a silence request for it, is
past its read. -/
def PutsOff (pool : DeliveryPool ι) (x : ι × Choice) : Prop :=
  ∃ draft, (pool.event answer x = some ⟨x.1, .putDraft draft, .ok ()⟩ ∨
      pool.event answer x = some ⟨x.1, .updateDraft draft, .ok ()⟩) ∧
    early x.2.now (some draft) = true ∧
    ∃ j, j ≠ x.1 ∧ SilenceHolds calls pool j draft.tenantId draft.draftId

/-- The row and the draft at hand are due. -/
def Due (now : DateTime) (s : DeliveryState) (tenantId draftId : String) (draft : DraftDelivery) :
    Prop :=
  early now (some draft) = false ∧ early now (s.store.getDraft tenantId draftId) = false

/-- What is known of a silence request. -/
def SilencePhase.InTime (now : DateTime) (s : DeliveryState) (tenantId draftId : String) :
    SilencePhase → Prop
  | .free => False
  | .idle t d => t = tenantId ∧ d = draftId
  | .read draft => silencePublishes s draft = true → Due now s tenantId draftId draft
  | .going draft =>
    (s.store.getLedger draft.tenantId draft.ledgerId).any (publishable draft) = true ∧
      (silencePublishes s draft = true → Due now s tenantId draftId draft)
  | .cleared draft => Due now s tenantId draftId draft
  | .done => True

/-- What holds between the steps, up to now. -/
def InTime (now : DateTime) (pool : DeliveryPool ι) : Prop :=
  ∀ i twin t d, calls i = .silenceTimeout twin t d → ¬ pool.Returned i →
    (silencePhase calls pool i).InTime now pool.shared t d

end Pool

section Step
variable {c : Choice} {op : DeliveryOp} {r : op.Res} {s s' : DeliveryState} {now : DateTime}
  {t d : String} {draft : DraftDelivery} {q : SilencePhase}

theorem answer_ledgers (hs : answer c op s = some (r, s')) :
    s'.store.getLedger t d = s.store.getLedger t d := by
  unfold InMemoryTwinStore.getLedger
  rcases answer_store hs with heq | ⟨draft, -, heq⟩ | ⟨draft, -, heq⟩ | ⟨rec, -, heq⟩ | ⟨twin, -, heq⟩
  · rw [heq]
  · rw [heq]; simp
  · rw [heq]; simp
  · rw [heq]; simp
  · rw [heq]; rfl

/-- What silence would publish after a call, it would have published before. -/
theorem silencePublishes_of_after (hs : answer c op s = some (r, s'))
    (h : silencePublishes s' draft = true) : silencePublishes s draft = true := by
  unfold silencePublishes at h ⊢
  rw [Bool.and_eq_true] at h ⊢
  rw [answer_ledgers hs] at h
  refine ⟨h.1, ?_⟩
  by_contra hrecord
  rw [Option.isNone_iff_eq_none, ← ne_eq, ← Option.isSome_iff_ne_none] at hrecord
  have hstays := recordsStay_answer hs _ _ hrecord
  rw [Option.isNone_iff_eq_none] at h
  rw [h.2] at hstays
  cases hstays

/-- A row changes only by a write that succeeds. -/
theorem answer_row (hs : answer c op s = some (r, s')) :
    s'.store.getDraft t d = s.store.getDraft t d ∨
    ∃ draft, draft.tenantId = t ∧ draft.draftId = d ∧ s'.store.getDraft t d = some draft ∧
      (((⟨op, r⟩ : Σ op : DeliveryOp, op.Res) = ⟨.putDraft draft, .ok ()⟩) ∨
        (⟨op, r⟩ : Σ op : DeliveryOp, op.Res) = ⟨.updateDraft draft, .ok ()⟩) := by
  by_cases hop : op.Writes (t, d)
  · cases op with
    | putDraft draft =>
      obtain ⟨htenant, hid⟩ := Prod.mk.inj hop
      obtain ⟨-, rfl⟩ | ⟨rfl, -, hdrafts, -⟩ := answer_putDraft hs
      · exact .inl rfl
      · refine .inr ⟨draft, htenant, hid, ?_, .inl rfl⟩
        show s'.store.drafts.get (t, d) = some draft
        rw [hdrafts, ← hop, Table.get_put_self]
    | updateDraft draft =>
      obtain ⟨htenant, hid⟩ := Prod.mk.inj hop
      obtain ⟨-, rfl⟩ | ⟨rfl, -, hdrafts, -⟩ := answer_updateDraft hs
      · exact .inl rfl
      · refine .inr ⟨draft, htenant, hid, ?_, .inr rfl⟩
        show s'.store.drafts.get (t, d) = some draft
        rw [hdrafts, ← hop, Table.get_put_self]
    | _ => cases hop
  · exact .inl (answer_draft_of_not_writes hs hop)

/-- Time passes, and the row stays due if it was. -/
theorem SilencePhase.InTime.after {now' : DateTime} (h : q.InTime now s t d) (hle : now ≤ now')
    (hs : answer c op s = some (r, s'))
    (hrow : q.Holding → early now' (s.store.getDraft t d) = false →
      early now' (s'.store.getDraft t d) = false) : q.InTime now' s' t d := by
  have hdue : ∀ {draft}, q.Holding → Due now s t d draft → Due now' s' t d draft :=
    fun hq hd => ⟨early_mono hle hd.1, hrow hq (early_mono hle hd.2)⟩
  cases q with
  | free => exact h
  | idle t' d' => exact h
  | read draft => exact fun hpub => hdue trivial (h (silencePublishes_of_after hs hpub))
  | going draft =>
    refine ⟨?_, fun hpub => hdue trivial (h.2 (silencePublishes_of_after hs hpub))⟩
    rw [answer_ledgers hs]
    exact h.1
  | cleared draft => exact hdue trivial h
  | done => trivial

theorem silence_replies (hs : answer c op s = some (r, s')) : silenceMonitor.replies op r := by
  cases op with
  | getDraft t d =>
    rcases r with e | (_ | draft)
    · trivial
    · trivial
    · have hrow : s.store.drafts.get (t, d) = some draft := reading_ok hs
      have hkey : draft.key = (t, d) := Table.key_of_get hrow
      exact (Prod.mk.inj hkey).1
  | _ => trivial

/-- The request itself goes on: reading too early is excluded, and what it writes it has read. -/
theorem SilencePhase.InTime.next {now' : DateTime} (h : q.InTime now s t d) (hle : now ≤ now')
    (hs : answer c op s = some (r, s')) (hallow : q.Allows op)
    (hread : ∀ draft, (⟨op, r⟩ : Σ op : DeliveryOp, op.Res) = ⟨.getDraft t d, .ok (some draft)⟩ →
      silencePublishes s draft = true → early now' (some draft) = false) :
    (q.next op r).InTime now' s' t d := by
  have hstill : ∀ {draft}, op.writesDraft = false → Due now s t d draft → Due now' s' t d draft := by
    intro draft hop hd
    refine ⟨early_mono hle hd.1, ?_⟩
    have hsame : s'.store.getDraft t d = s.store.getDraft t d := by
      refine answer_draft_of_not_writes hs fun hw => ?_
      cases op <;> simp [DeliveryOp.writesDraft, DeliveryOp.Writes] at hop hw
    rw [hsame]
    exact early_mono hle hd.2
  cases q with
  | free => exact h
  | idle t' d' =>
    obtain ⟨rfl, rfl⟩ := h
    cases op with
    | getDraft t₀ d₀ =>
      obtain ⟨rfl, rfl⟩ := hallow
      rcases r with e | (_ | draft)
      · exact ⟨rfl, rfl⟩
      · exact ⟨rfl, rfl⟩
      · intro hpub
        have hrow := reading_ok hs
        obtain ⟨rfl, -⟩ := reading_eq hs
        have hearly := hread draft rfl hpub
        refine ⟨hearly, ?_⟩
        rw [hrow, hearly]
    | _ => exact hallow.elim
  | read draft =>
    cases op with
    | getLedger t₀ l₀ =>
      obtain ⟨rfl, rfl⟩ := hallow
      rcases r with e | (_ | snap)
      · exact h.after hle hs fun _ hrow => by rw [(reading_eq hs).1]; exact hrow
      · exact h.after hle hs fun _ hrow => by rw [(reading_eq hs).1]; exact hrow
      · have hledger := reading_ok hs
        obtain ⟨rfl, -⟩ := reading_eq hs
        show SilencePhase.InTime now' s' t d (if publishable draft snap then _ else _)
        split_ifs with hpublishable
        · refine ⟨by rw [hledger, Option.any_some, hpublishable], fun hpub => ?_⟩
          exact hstill rfl (h hpub)
        · trivial
    | _ => exact hallow.elim
  | going draft =>
    cases op with
    | utcNow =>
      refine h.after hle hs fun _ hrow => ?_
      cases hs
      exact hrow
    | updateDraft draft' =>
      refine ⟨by rw [answer_ledgers hs]; exact h.1, fun hpub => ?_⟩
      have hdue := h.2 (silencePublishes_of_after hs hpub)
      have hearly := early_mono hle hdue.1
      refine ⟨hearly, ?_⟩
      rcases answer_row (t := t) (d := d) hs with hrow | ⟨draft'', -, -, hrow, heq | heq⟩
      · rw [hrow]
        exact early_mono hle hdue.2
      · cases heq
      · cases heq
        rw [hrow, early_congr hallow]
        exact hearly
    | getPublishByLedger t₀ l₀ =>
      obtain ⟨rfl, rfl⟩ := hallow
      rcases r with e | (_ | existing)
      · exact h.after hle hs fun _ hrow => by rw [(reading_eq hs).1]; exact hrow
      · have hnone := reading_ok hs
        obtain ⟨rfl, -⟩ := reading_eq hs
        refine hstill rfl (h.2 ?_)
        rw [silencePublishes, h.1, hnone]
        rfl
      · trivial
    | _ => exact hallow.elim
  | cleared draft =>
    cases op with
    | postChannel ch text => trivial
    | _ => exact hallow.elim
  | done => cases op <;> trivial

end Step

section Run
variable {ι : Type} [DecidableEq ι] {calls : ι → DeliveryCall} {pool : DeliveryPool ι} {i : ι}
  {c : Choice} {op : DeliveryOp} {r : op.Res} {k : op.Res → Prog DeliveryOp DeliveryOp.Res (TwinResult Unit)}
  {s : DeliveryState} {now : DateTime}

theorem inTime_after (hI : InTime calls now pool) (hle : now ≤ c.now)
    (hread : readsEarly calls pool (i, c) = false) (hputs : ¬ PutsOff calls pool (i, c))
    (hk : pool.threads i = .call op k) (hs : answer c op pool.shared = some (r, s))
    (hallow : (silencePhase calls pool i).Allows op) :
    InTime calls c.now (pool.after i op r k s) := by
  have hevent : pool.event answer (i, c) = some ⟨i, op, r⟩ := Pool.event_eq hk hs
  intro j twin t d hj hreturned
  unfold silencePhase
  by_cases hji : j = i
  · subst hji
    rw [Pool.after_trace, watch_cons_self, Pool.after_shared]
    refine (hI j twin t d hj (Pool.not_returned hk)).next hle hs hallow fun draft heq hpub => ?_
    cases heq
    unfold readsEarly at hread
    rw [hj, hevent] at hread
    simpa [hpub] using hread
  · rw [Pool.after_trace, watch_cons_ne _ _ (Ne.symm hji), Pool.after_shared]
    rw [Pool.returned_after_ne _ _ _ _ _ _ hji] at hreturned
    refine (hI j twin t d hj hreturned).after hle hs fun hholding hrow => ?_
    rcases answer_row (t := t) (d := d) hs with heq | ⟨draft, rfl, rfl, heq, hop⟩
    · rw [heq]
      exact hrow
    · rw [heq]
      by_contra hearly
      rw [Bool.not_eq_false] at hearly
      refine hputs ⟨draft, ?_, hearly, j, hji, twin, hj, hholding, hreturned⟩
      rcases hop with hop | hop <;> cases hop
      · exact .inl hevent
      · exact .inr hevent

theorem postsEarly_eq_false (hI : InTime calls now pool) (hle : now ≤ c.now)
    (htracks : ∀ op k, pool.threads i = .call op k → (silencePhase calls pool i).Allows op) :
    postsEarly calls pool (i, c) = false := by
  unfold postsEarly
  split
  · next twin t d who ch text r hcall hevent =>
    have hcall : calls i = .silenceTimeout twin t d := hcall
    unfold Pool.event at hevent
    split at hevent
    · cases hevent
    · next op k hk =>
      rw [Option.map_eq_some_iff] at hevent
      obtain ⟨y, -, heq⟩ := hevent
      cases heq
      have hphase := hI i twin t d hcall (Pool.not_returned hk)
      have hallow := htracks _ k hk
      revert hphase hallow
      cases silencePhase calls pool i with
      | cleared draft => exact fun hdue _ => early_mono hle hdue.2
      | free => exact fun h _ => h.elim
      | _ => exact fun _ h => h.elim
  · rfl

end Run

/-- **Silence waits.** As long as every silence request reads the draft that it would publish after
the deadline, and no other call then moves the deadline beyond the present before it is through, no
silence request posts before the stored deadline. -/
theorem silence_waits {ι : Type} [DecidableEq ι] (svc : DeliveryService) (calls : ι → DeliveryCall)
    (state : DeliveryState) {sched : List (ι × Choice)}
    (htime : sched.Pairwise fun x y => x.2.now ≤ y.2.now)
    (hcond : EachStep (Pool.step answer)
      (fun pool x => readsEarly calls pool x = false ∧ ¬ PutsOff calls pool x)
      (DeliveryPool.start svc calls state) sched) :
    EachStep (Pool.step answer) (fun pool x => postsEarly calls pool x = false)
      (DeliveryPool.start svc calls state) sched := by
  -- by induction over the run, `now` being the time of the last step
  have hrun : ∀ (sched : List (ι × Choice)) (pool : DeliveryPool ι) (now : DateTime),
      pool.Tracks silenceMonitor (fun _ _ _ => True) (fun i => silenceStart (calls i)) →
      InTime calls now pool → (∀ x ∈ sched, now ≤ x.2.now) →
      (sched.Pairwise fun x y => x.2.now ≤ y.2.now) →
      EachStep (Pool.step answer)
        (fun pool x => readsEarly calls pool x = false ∧ ¬ PutsOff calls pool x) pool sched →
      EachStep (Pool.step answer) (fun pool x => postsEarly calls pool x = false) pool sched := by
    intro sched
    induction sched with
    | nil => exact fun _ _ _ _ _ _ _ => trivial
    | cons x xs ih =>
      intro pool now htracks hI hlater htime hcond
      have hle : now ≤ x.2.now := hlater x List.mem_cons_self
      obtain ⟨hfirst, htime⟩ := List.pairwise_cons.mp htime
      refine ⟨postsEarly_eq_false hI hle fun op k hk => htracks.allows hk, ?_⟩
      rcases pool.step_cases answer x with heq | ⟨op, k, r, s, hk, hs, heq⟩
      · rw [heq]
        refine ih pool now htracks hI (fun y hy => hlater y (List.mem_cons_of_mem x hy)) htime ?_
        rw [← heq]
        exact hcond.2
      · have hreply := silence_replies hs
        rw [heq]
        refine ih _ x.2.now (htracks.after hk hreply s)
          (inTime_after hI hle hcond.1.1 hcond.1.2 hk hs (htracks.allows hk)) hfirst htime ?_
        rw [← heq]
        exact hcond.2
  cases sched with
  | nil => trivial
  | cons x xs =>
    refine hrun (x :: xs) _ x.2.now (fun i => program_silence (calls i)) ?_ ?_ htime hcond
    · intro i twin t d hcall _
      show SilencePhase.InTime _ _ _ _ (silenceStart (calls i))
      rw [hcall]
      exact ⟨rfl, rfl⟩
    · intro y hy
      rcases List.mem_cons.mp hy with rfl | hy
      · exact le_refl _
      · exact (List.pairwise_cons.mp htime).1 y hy

/-! ### A silence request at time 0 -/

/-- A draft that its person may veto until time 100. -/
def windowState : DeliveryState where
  store := ((InMemoryTwinStore.new.putLedger mediumLedger).2.putDraft
    { pendingDraft with vetoDeadline := some 100 }).2
  issued := []
  posts := []

def silenceRequest (_ : Unit) : DeliveryCall := .silenceTimeout teamTwin "t" "d"

/-- The request alone, at one time. -/
def silenceAt (now : DateTime) : List (Unit × Choice) :=
  List.replicate 10 ((), { smooth "p" with now := now })

theorem silenceAt_ordered (now : DateTime) :
    (silenceAt now).Pairwise fun x y => x.2.now ≤ y.2.now := by
  simp [silenceAt]

theorem silence_hurries :
    (silenceAt 0).Pairwise (fun x y => x.2.now ≤ y.2.now) ∧
    ¬ EachStep (Pool.step answer) (fun pool x => postsEarly silenceRequest pool x = false)
      (DeliveryPool.start mockService silenceRequest windowState) (silenceAt 0) :=
  ⟨silenceAt_ordered 0, by decide +kernel⟩

theorem silence_waits_until_due :
    EachStep (Pool.step answer) (fun pool x => postsEarly silenceRequest pool x = false)
      (DeliveryPool.start mockService silenceRequest windowState) (silenceAt 100) := by
  have hread : EachStep (Pool.step answer) (fun pool x => readsEarly silenceRequest pool x = false)
      (DeliveryPool.start mockService silenceRequest windowState) (silenceAt 100) := by
    decide +kernel
  refine silence_waits mockService silenceRequest windowState (silenceAt_ordered 100) (hread.mono ?_)
  intro pool x hearly
  refine ⟨hearly, ?_⟩
  rintro ⟨draft, -, -, j, hne, -⟩
  exact hne rfl

end AiManager.Twins
