import AiManager.Twins.DraftIds
import AiManager.Twins.DraftRows

/-! # Approval messages

A compile looks for the draft of its ledger, sends the draft to its person, and only then stores it.
Two compiles of one ledger that cross send two messages, and the draft of the one that comes second is
never stored. Where a compile that sends crosses no other, one message goes out at most, and its draft
is there when the compile returns (`approvals_stored`). -/

namespace AiManager.Twins

open Lib

/-- A first compile sends its draft. -/
def sendsNew (svc : DeliveryService) (x : StartInput) : Bool :=
  createSends svc x && (createStatus svc x = .pending || createStatus svc x = .forceHuman)

/-- A recompile sends the draft that it upgrades. -/
def sendsUpgrade (svc : DeliveryService) (x : StartInput) (existing : DraftDelivery) : Bool :=
  upgradable x existing &&
    (upgradeSends svc x && (upgradeStatus x = .pending || upgradeStatus x = .forceHuman))

/-! ## A compile -/

/-- Where a compile is: before its look, with no draft found or with an open one, with the message out
and the write to come, publishing at once, or with no write and no message to come. -/
inductive StartPhase where
  | idle (x : StartInput)
  | creating (x : StartInput)
  | holding (x : StartInput) (existing : DraftDelivery)
  | sentNew (x : StartInput) (draftId : String)
  | sentOld (existing : DraftDelivery)
  | publishing
  | settled

namespace StartPhase
variable (svc : DeliveryService)

def next (q : StartPhase) (op : DeliveryOp) (r : op.Res) : StartPhase :=
  match q, op, r with
  | .idle x, .getDraftByLedger _ _, .ok none => .creating x
  | .idle x, .getDraftByLedger _ _, .ok (some existing) =>
    if existing.status.openish then .holding x existing else .settled
  | .creating x, .postDraftDm _ draftId _ _, _ => .sentNew x draftId
  | .creating x, .putDraft _, _ => if autoPublishes svc x then .publishing else .settled
  | .holding _ existing, .postDraftDm _ _ _ _, _ => .sentOld existing
  | .holding _ _, .updateDraft _, _ => .settled
  | .sentNew _ _, .putDraft _, _ => .settled
  | .sentOld _, .updateDraft _, _ => .settled
  | q, _, _ => q

/-- Calls that neither write nor send a draft. -/
def Preparing : DeliveryOp → Prop
  | .utcNow | .newUuid | .getSlackMap _ _ | .upsertTwin _ | .postDm _ _ => True
  | _ => False

def Allows : StartPhase → DeliveryOp → Prop
  | .idle x, .getDraftByLedger t l => t = x.twin.tenantId ∧ l = x.snap.ledgerId
  | .creating x, .postDraftDm _ _ _ _ => sendsNew svc x = true
  | .creating x, .putDraft _ => sendsNew svc x = false
  | .holding x existing, .postDraftDm _ draftId _ _ =>
    draftId = existing.draftId ∧ sendsUpgrade svc x existing = true
  | .holding x existing, .updateDraft d =>
    sendsUpgrade svc x existing = false ∧ d.key = existing.key ∧ d.slackDmTs = existing.slackDmTs
  | .sentNew x draftId, .putDraft d =>
    d.key = (x.twin.tenantId, draftId) ∧ d.ledgerKey = (x.twin.tenantId, x.snap.ledgerId) ∧
      d.slackDmTs ≠ ""
  | .sentOld existing, .updateDraft d => d.key = existing.key ∧ d.slackDmTs ≠ ""
  | .publishing, op => op.Publishing
  | .idle _, _ => False
  | _, op => Preparing op

/-- The compile may still write or send a draft. -/
def Open : StartPhase → Bool
  | .creating _ | .holding _ _ | .sentNew _ _ | .sentOld _ | .publishing => true
  | .idle _ | .settled => false

/-- The message is out, and the draft not yet written. -/
def Sent : StartPhase → Bool
  | .sentNew _ _ | .sentOld _ => true
  | _ => false

/-- The compile sends the draft, or has sent it. -/
def Sends : StartPhase → Bool
  | .creating x => sendsNew svc x
  | .holding x existing => sendsUpgrade svc x existing
  | .sentNew _ _ | .sentOld _ => true
  | _ => false

end StartPhase

/-- No call fails but a write that the store refuses, and a message gets a time stamp. -/
def startMonitor (svc : DeliveryService) : Monitor DeliveryOp DeliveryOp.Res StartPhase where
  next := StartPhase.next svc
  allows := StartPhase.Allows svc
  replies op r :=
    match op, r with
    | .putDraft _, _ | .updateDraft _, _ | .putPublishIfAbsent _, _ => True
    | .postDraftDm _ _ _ _, .ok p => p.ts ≠ ""
    | _, .ok _ => True
    | _, .error _ => False

section Programs
variable {svc : DeliveryService} {x : StartInput} {draft existing : DraftDelivery} {α β : Type}
  {q : StartPhase}

theorem preparing_of_aside {op : DeliveryOp} (h : op.Aside) : StartPhase.Preparing op := by
  cases op <;> trivial

theorem allows_preparing {op : DeliveryOp} (hop : StartPhase.Preparing op) (hq : ∀ x, q ≠ .idle x) :
    q.Allows svc op := by
  cases q with
  | idle x => exact absurd rfl (hq x)
  | _ => cases op <;> trivial

theorem next_preparing {op : DeliveryOp} (hop : StartPhase.Preparing op) (r : op.Res) :
    q.next svc op r = q := by
  cases op <;> first | (cases q <;> rfl) | cases hop

theorem creating_ne_idle (y : StartInput) : StartPhase.creating x ≠ .idle y := by
  intro h
  cases h

theorem holding_ne_idle (y : StartInput) : StartPhase.holding x existing ≠ .idle y := by
  intro h
  cases h

theorem sentNew_ne_idle {draftId : String} (y : StartInput) : StartPhase.sentNew x draftId ≠ .idle y := by
  intro h
  cases h

theorem sentOld_ne_idle (y : StartInput) : StartPhase.sentOld existing ≠ .idle y := by
  intro h
  cases h

/-- Preparations leave the phase as it is. -/
theorem preparing_meets {p : DeliveryM α} (h : p.run.CallsOnly StartPhase.Preparing)
    (hq : ∀ x, q ≠ .idle x) : p.run.Meets (startMonitor svc) (fun _ q' => q' = q) q :=
  h.meets (fun _ hop => allows_preparing hop hq) fun _ r hop => next_preparing hop r

/-- The last calls of a compile. -/
theorem preparing_ends {p : DeliveryM α} (h : p.run.CallsOnly StartPhase.Preparing)
    (hq : ∀ x, q ≠ .idle x) (hsent : q.Sent = false) :
    p.run.Meets (startMonitor svc) (fun _ q => q.Sent = false) q :=
  (preparing_meets h hq).mono fun _ q' hq' => by rw [hq', hsent]

theorem publishing_meets {p : DeliveryM α} (h : p.run.CallsOnly DeliveryOp.Publishing) :
    p.run.Meets (startMonitor svc) (fun _ q => q.Sent = false) .publishing := by
  refine (h.meets (fun op hop => ?_) fun op r _ => ?_).mono fun _ q' hq' => by rw [hq']; rfl
  · cases op <;> exact hop
  · cases op <;> rfl

theorem rememberNotify_start {twin : Twin} {state : NotifyState} (hq : ∀ x, q ≠ .idle x) :
    (rememberNotify twin state).run.Meets (startMonitor svc) (fun r p => r = .ok () ∧ p = q) q := by
  refine ask_bind_meets (allows_preparing trivial hq) (fun now _ => ?_) fun _ h => h.elim
  refine attempt_bind_meets (R := fun _ p => p = q) ?_ fun _ _ hp => ⟨rfl, hp⟩
  have hnow : (startMonitor svc).next q .utcNow (.ok now) = q :=
    next_preparing (show StartPhase.Preparing .utcNow from trivial) _
  rw [hnow]
  refine ask_meets (allows_preparing trivial hq) fun r _ => ?_
  exact next_preparing (show StartPhase.Preparing (.upsertTwin _) from trivial) r

/-- What sending a draft in the phase `q` leads to: the phase `q'`, or `q` if the person has no
account. -/
def SentAs (q q' : StartPhase) (draft : DraftDelivery) :
    TwinResult (DraftDelivery × Bool) → StartPhase → Prop
  | .ok y, p =>
    p = q' ∧ y.1.key = draft.key ∧ y.1.ledgerKey = draft.ledgerKey ∧ y.1.slackDmTs ≠ ""
  | .error _, p => p = q

/-- A draft is sent, from a phase `q` that goes to `q'` with the message. -/
theorem sendDraft_start (q' : StartPhase) (hq : ∀ x, q ≠ .idle x) (hq' : ∀ x, q' ≠ .idle x)
    (hallow : ∀ user deadline,
      q.Allows svc (.postDraftDm user draft.draftId x.draftText deadline))
    (hnext : ∀ user deadline r,
      q.next svc (.postDraftDm user draft.draftId x.draftText deadline) r = q') :
    (sendDraft svc x draft).run.Meets (startMonitor svc) (SentAs q q' draft) q := by
  unfold sendDraft
  refine bind_meets (preparing_meets ((resolveChatUserId_aside _ _).mono fun op =>
    preparing_of_aside) hq) (fun user p hp => ?_) fun _ _ hp => hp
  obtain rfl := hp
  refine attempt_bind_meets (R := fun r p => p = q' ∧ ∃ dm, r = .ok dm ∧ dm.ts ≠ "") ?_ ?_
  · refine ask_meets (hallow _ _) fun r hr => ⟨hnext _ _ _, ?_⟩
    cases r with
    | error e => exact hr.elim
    | ok dm => exact ⟨dm, rfl, hr⟩
  · rintro dm p ⟨rfl, dm', rfl, hts⟩
    exact bind_meets (rememberNotify_start hq') (fun _ p hp => ⟨hp.2, rfl, rfl, hts⟩)
      fun _ _ h => by cases h.1

theorem autoPublish_start (hauto : autoPublishes svc x = true) (hno : sendsNew svc x = false) :
    (autoPublish svc x draft).run.Meets (startMonitor svc) (fun _ q => q.Sent = false)
      (.creating x) := by
  have hrest : ∀ d : DraftDelivery, (publishStored svc x d).run.Meets (startMonitor svc)
      (fun _ q => q.Sent = false) (.creating x) := by
    intro d
    have hnext : ∀ r, (startMonitor svc).next (.creating x) (.putDraft d) r = .publishing :=
      fun _ => if_pos hauto
    refine ask_bind_meets hno (fun _ _ => ?_) fun _ _ => by rw [hnext]; rfl
    rw [hnext]
    refine publishing_meets (Prog.CallsOnly.exceptT_bind tryPublishChannel_publishing fun y => ?_)
    exact Prog.CallsOnly.exceptT_bind
      ((rememberNotify_aside _ _).mono fun op h => h.offChannel.publishing) fun _ => trivial
  have hmessage : ∀ text, (do
      let chatUser ← resolveChatUserId x.twin svc.adapterKind
      ask (.postDm chatUser text) : DeliveryM DeliveryPostResult).run.CallsOnly
        StartPhase.Preparing := fun text =>
    Prog.CallsOnly.exceptT_bind ((resolveChatUserId_aside _ _).mono fun op => preparing_of_aside)
      fun user => callsOnly_ask trivial
  unfold autoPublish
  refine attempt_bind_meets (preparing_meets (hmessage _) creating_ne_idle) fun dm q hq => ?_
  obtain rfl := hq
  cases dm with
  | error e => exact hrest draft
  | ok dm => exact hrest _

theorem createDraft_start :
    (createDraft svc x).run.Meets (startMonitor svc) (fun _ q => q.Sent = false)
      (.creating x) := by
  have hput : ∀ d r, ((startMonitor svc).next (.creating x) (.putDraft d) r).Sent = false := by
    intro d r
    show (if autoPublishes svc x then StartPhase.publishing else .settled).Sent = false
    split_ifs <;> rfl
  unfold createDraft
  refine ask_bind_meets trivial (fun uuid _ => ?_) fun _ _ => rfl
  show Prog.Meets _ _ _ (StartPhase.creating x)
  dsimp only
  split_ifs with hquiet hauto
  · have hno : sendsNew svc x = false := by
      unfold sendsNew
      rw [Bool.or_eq_true, decide_eq_true_eq] at hquiet
      rcases hquiet with hshadow | hquiet
      · simp [hshadow]
      · rw [Bool.not_eq_true'] at hquiet
        rw [hquiet, Bool.false_and]
    refine ask_bind_meets hno (fun _ _ => ?_) fun _ _ => hput _ _
    refine preparing_ends (Prog.CallsOnly.exceptT_bind
      ((rememberUnchanged_aside _ _).mono fun op => preparing_of_aside) fun _ => trivial) ?_
      (hput _ _)
    intro y
    show (if autoPublishes svc x then StartPhase.publishing else .settled) ≠ _
    split_ifs <;> nofun
  · refine autoPublish_start hauto ?_
    obtain ⟨-, hstatus, -⟩ := autoPublishes_iff.mp hauto
    simp [sendsNew, hstatus]
  · have hsends : createSends svc x = true := by
      rw [Bool.or_eq_true, not_or, Bool.not_eq_true', Bool.not_eq_false] at hquiet
      exact hquiet.2
    unfold createNotify
    split_ifs with hdm
    · have hnew : sendsNew svc x = true := by rw [sendsNew, hsends, hdm, Bool.true_and]
      refine bind_meets (sendDraft_start (.sentNew x ("dft_" ++ uuid)) creating_ne_idle
        sentNew_ne_idle (fun _ _ => hnew) fun _ _ _ => rfl) (fun y q hq => ?_)
        fun _ q hq => by rw [hq]; rfl
      obtain ⟨rfl, hkey, hledger, hts⟩ := hq
      exact ask_bind_meets ⟨hkey, hledger, hts⟩ (fun _ _ => rfl) fun _ _ => rfl
    · have hnew : sendsNew svc x = false := by
        rw [Bool.not_eq_true] at hdm
        rw [sendsNew, hdm, Bool.and_false]
      exact ask_bind_meets hnew (fun _ _ => hput _ _) fun _ _ => hput _ _

theorem upgradeDraft_start (hup : upgradable x existing = true)
    (hkey : draft.key = existing.key) (hts : draft.slackDmTs = existing.slackDmTs) :
    (upgradeDraft svc x draft).run.Meets (startMonitor svc) (fun _ q => q.Sent = false)
      (.holding x existing) := by
  have hid : draft.draftId = existing.draftId := (Prod.mk.inj hkey).2
  unfold upgradeDraft upgradeNotify
  split_ifs with hsend
  · have hupgrade : sendsUpgrade svc x existing = true := by
      rw [sendsUpgrade, hup, hsend, Bool.true_and]
    refine bind_meets (sendDraft_start (.sentOld existing) holding_ne_idle sentOld_ne_idle
      (fun _ _ => ⟨hid, hupgrade⟩) fun _ _ _ => rfl) (fun y q hq => ?_)
      fun _ q hq => by rw [hq]; rfl
    obtain ⟨rfl, hkey', -, hts'⟩ := hq
    exact ask_bind_meets ⟨hkey'.trans hkey, hts'⟩ (fun _ _ => rfl) fun _ _ => rfl
  · have hupgrade : sendsUpgrade svc x existing = false := by
      rw [Bool.not_eq_true] at hsend
      rw [sendsUpgrade, hsend, Bool.and_false]
    refine bind_meets (R := fun r q => q = .holding x existing ∧
      ∀ y, r = .ok y → y.1 = upgraded svc x draft) ?_ (fun y q hq => ?_)
      fun _ q hq => by rw [hq.1]; rfl
    · refine bind_meets (preparing_meets ((rememberUnchanged_aside _ _).mono fun op =>
        preparing_of_aside) holding_ne_idle) (fun _ q hq => ⟨hq, fun y hy => ?_⟩)
        fun _ _ hq => ⟨hq, fun _ h => by cases h⟩
      obtain rfl := Except.ok.inj hy
      rfl
    · obtain ⟨rfl, hy⟩ := hq
      obtain ⟨d, sent⟩ := y
      obtain rfl := hy _ rfl
      exact ask_bind_meets ⟨hupgrade, hkey, hts⟩ (fun _ _ => rfl) fun _ _ => rfl

theorem restartDraft_start : (restartDraft svc x existing).run.Meets (startMonitor svc)
    (fun _ q => q.Sent = false) (if existing.status.openish then .holding x existing else .settled) := by
  unfold restartDraft
  split_ifs with hup hopen hopen
  · exact upgradeDraft_start hup refreshed_key refreshed_slackDmTs
  · exact absurd (openish_of_upgradable hup) hopen
  · have hupgrade : sendsUpgrade svc x existing = false := by
      rw [Bool.not_eq_true] at hup
      rw [sendsUpgrade, hup, Bool.false_and]
    exact ask_bind_meets ⟨hupgrade, refreshed_key, refreshed_slackDmTs⟩
      (fun _ _ => rfl) fun _ _ => rfl
  · rfl

theorem startAfterCompileOpts_start (svc : DeliveryService) (x : StartInput) :
    ((DeliveryCall.startAfterCompileOpts x).program svc).run.Meets (startMonitor svc)
      (fun _ q => q.Sent = false) (.idle x) := by
  refine bind_meets (R := fun _ q => q.Sent = false) ?_ ?_ fun _ _ hq => hq
  · refine ask_bind_meets ⟨rfl, rfl⟩ (fun found _ => ?_) fun _ h => h.elim
    cases found with
    | none => exact createDraft_start
    | some existing => exact restartDraft_start
  · intro _ _ hq
    exact hq

end Programs

/-! ## Compiles of one ledger -/

/-- The draft that a call sends for approval. -/
def DeliveryOp.sentDraft : DeliveryOp → Option String
  | .postDraftDm _ draftId _ _ => some draftId
  | _ => none

/-- Approval messages that went out. -/
def approvalDms {ι : Type} (tr : List (Event ι DeliveryOp DeliveryOp.Res)) : ℕ :=
  tr.countP fun e => e.op.sentDraft.isSome

/-- No call of the service fails, and a message that arrives has a time stamp. -/
def Choice.Delivering (c : Choice) : Prop := c.NoFailure ∧ ∀ p, c.dm = .ok p → p.ts ≠ ""

namespace StartPhase
variable (svc : DeliveryService) (tenantId ledgerId : String)

/-- The compile is one of the ledger. -/
def About : StartPhase → Prop
  | .idle x | .creating x | .holding x _ | .sentNew x _ =>
    x.twin.tenantId = tenantId ∧ x.snap.ledgerId = ledgerId
  | _ => True

/-- What a compile under way rests on, when `n` messages are out. -/
def Rests (n : ℕ) (s : DeliveryState) : StartPhase → Prop
  | .creating x =>
    sendsNew svc x = true → n = 0 ∧ s.store.draftByLedger.get (tenantId, ledgerId) = none
  | .holding x existing => existing.tenantId = tenantId ∧
    s.store.draftByLedger.get (tenantId, ledgerId) = some existing.draftId ∧
    (sendsUpgrade svc x existing = true → n = 0)
  | .sentNew _ _ => n = 1 ∧ s.store.draftByLedger.get (tenantId, ledgerId) = none
  | .sentOld existing => n = 1 ∧ existing.tenantId = tenantId ∧
    s.store.draftByLedger.get (tenantId, ledgerId) = some existing.draftId
  | _ => True

end StartPhase

section Pool
variable {ι : Type} [DecidableEq ι] (svc : DeliveryService) (calls : ι → StartInput)
  (tenantId ledgerId : String)

def startPhase (pool : DeliveryPool ι) (i : ι) : StartPhase :=
  watch (StartPhase.next svc) (.idle (calls i)) i pool.trace

/-- The compile has looked for the draft, and may still send or write it. -/
def UnderWay (pool : DeliveryPool ι) (i : ι) : Prop :=
  (startPhase svc calls pool i).Open = true ∧ ¬ pool.Returned i

instance (pool : DeliveryPool ι) (i : ι) : Decidable (UnderWay svc calls pool i) :=
  inferInstanceAs (Decidable (_ ∧ _))

/-- A compile looks for the draft and goes on, while another one is under way, and one of the two
sends. -/
def Crosses (pool : DeliveryPool ι) (x : ι × Choice) : Prop :=
  (startPhase svc calls pool x.1).Open = false ∧ UnderWay svc calls (pool.step answer x) x.1 ∧
    ∃ j, j ≠ x.1 ∧ UnderWay svc calls pool j ∧
      ((startPhase svc calls (pool.step answer x) x.1).Sends svc ||
        (startPhase svc calls pool j).Sends svc) = true

/-- The stored draft of the ledger was sent. -/
def SentRow (s : DeliveryState) : Prop :=
  ∃ d, s.store.getDraftByLedger tenantId ledgerId = some d ∧ d.slackDmTs ≠ ""

/-- The one message is out, its draft stored, and every compile under way knows. -/
structure Answered (pool : DeliveryPool ι) : Prop where
  row : SentRow tenantId ledgerId pool.shared
  known : ∀ i, UnderWay svc calls pool i →
    ∃ x existing, startPhase svc calls pool i = .holding x existing ∧ existing.slackDmTs ≠ ""

/-- What holds between the steps. -/
structure Approving (pool : DeliveryPool ι) : Prop where
  indexed : DraftsIndexed pool.shared
  about : ∀ i, (startPhase svc calls pool i).About tenantId ledgerId
  alone : ∀ i j, i ≠ j → UnderWay svc calls pool i → UnderWay svc calls pool j →
    (startPhase svc calls pool i).Sends svc = false
  rests : ∀ i, UnderWay svc calls pool i →
    (startPhase svc calls pool i).Rests svc tenantId ledgerId (approvalDms pool.trace) pool.shared
  count : approvalDms pool.trace = 0 ∨
    (∃ i, UnderWay svc calls pool i ∧ (startPhase svc calls pool i).Sent = true) ∨
    (approvalDms pool.trace = 1 ∧ Answered svc calls tenantId ledgerId pool)
  stored : ∀ e ∈ pool.trace, ∀ draftId, e.op.sentDraft = some draftId →
    pool.shared.store.drafts.has (tenantId, draftId) = true ∨
    ∃ x, startPhase svc calls pool e.who = .sentNew x draftId

end Pool

/-! ### Phases -/

section Phases
variable {svc : DeliveryService} {tenantId ledgerId : String} {n : ℕ} {q : StartPhase}
  {c : Choice} {op : DeliveryOp} {r : op.Res} {s s' : DeliveryState}

theorem StartPhase.open_of_sends (h : q.Sends svc = true) : q.Open = true := by
  cases q <;> first | rfl | cases h

theorem StartPhase.sends_of_sent (svc : DeliveryService) (h : q.Sent = true) : q.Sends svc = true := by
  cases q <;> first | rfl | cases h

theorem StartPhase.About.next (h : q.About tenantId ledgerId) :
    (q.next svc op r).About tenantId ledgerId := by
  unfold StartPhase.next
  split
  · exact h
  · split_ifs
    · exact h
    · trivial
  · exact h
  · split_ifs <;> trivial
  all_goals trivial

theorem StartPhase.Rests.of_index (h : q.Rests svc tenantId ledgerId n s)
    (hindex : s'.store.draftByLedger.get (tenantId, ledgerId) =
      s.store.draftByLedger.get (tenantId, ledgerId)) :
    q.Rests svc tenantId ledgerId n s' := by
  cases q <;> simp only [StartPhase.Rests, hindex] at h ⊢ <;> exact h

/-- What a compile that does not send rests on, no call takes away. -/
theorem StartPhase.Rests.of_not_sends (h : q.Rests svc tenantId ledgerId n s)
    (hno : q.Sends svc = false) (hs : answer c op s = some (r, s')) :
    q.Rests svc tenantId ledgerId n s' := by
  cases q with
  | creating x =>
    intro hsends
    exact absurd hsends (by rw [← Bool.not_eq_true] at hno; exact hno)
  | holding x existing => exact ⟨h.1, answer_draftByLedger hs h.2.1, h.2.2⟩
  | sentNew x draftId => cases hno
  | sentOld existing => cases hno
  | _ => trivial

theorem answer_has (hs : answer c op s = some (r, s')) {k : String × String}
    (h : s.store.drafts.has k = true) : s'.store.drafts.has k = true := by
  cases op with
  | putDraft d =>
    obtain ⟨-, rfl⟩ | ⟨-, -, hdrafts, -⟩ := answer_putDraft hs
    · exact h
    · rw [hdrafts]
      exact has_put_draft h
  | updateDraft d =>
    obtain ⟨-, rfl⟩ | ⟨-, -, hdrafts, -⟩ := answer_updateDraft hs
    · exact h
    · rw [hdrafts]
      exact has_put_draft h
  | _ => rw [(answer_sameRows hs rfl).drafts]; exact h

theorem SentRow.of_rows (h : SentRow tenantId ledgerId s) (hs : SameRows s s') :
    SentRow tenantId ledgerId s' := by
  obtain ⟨d, hd, hts⟩ := h
  refine ⟨d, ?_, hts⟩
  unfold InMemoryTwinStore.getDraftByLedger InMemoryTwinStore.getDraft at hd ⊢
  rw [hs.index, hs.drafts, hd]

/-- The row of the ledger, by the index. -/
theorem sentRow_of_get {d : DraftDelivery}
    (hindex : s.store.draftByLedger.get (tenantId, ledgerId) = some d.draftId)
    (hrow : s.store.drafts.get (tenantId, d.draftId) = some d) (hts : d.slackDmTs ≠ "") :
    SentRow tenantId ledgerId s := by
  refine ⟨d, ?_, hts⟩
  unfold InMemoryTwinStore.getDraftByLedger InMemoryTwinStore.getDraft
  rw [hindex]
  exact hrow

/-- What a compile rests on that found, or did not find, the draft of the ledger. -/
theorem StartPhase.Rests.of_found {x : StartInput} {found : Option DraftDelivery}
    (hindexed : DraftsIndexed s) (hfound : s.store.getDraftByLedger tenantId ledgerId = found)
    (hnone : (∀ d, found = some d → d.slackDmTs = "") → n = 0) :
    ((StartPhase.idle x).next svc (.getDraftByLedger tenantId ledgerId) (.ok found)).Rests svc
      tenantId ledgerId n s := by
  cases found with
  | none =>
    intro _
    exact ⟨hnone (fun d hd => by cases hd), hindexed.index_none hfound⟩
  | some existing =>
    obtain ⟨id, hindex, hget⟩ := InMemoryTwinStore.getDraftByLedger_some hfound
    have hkey : existing.key = (tenantId, id) := Table.key_of_get hget
    obtain ⟨htenant, rfl⟩ := Prod.mk.inj hkey
    show StartPhase.Rests svc tenantId ledgerId _ _
      (if existing.status.openish then .holding x existing else .settled)
    split_ifs
    · refine ⟨htenant, hindex, fun hup => hnone fun d hd => ?_⟩
      obtain rfl := Option.some.inj hd
      simp only [sendsUpgrade, upgradable, Bool.and_eq_true, decide_eq_true_eq] at hup
      exact hup.1.1.2
    · trivial

/-- A compile that found a draft goes on only by holding it. -/
theorem StartPhase.holding_of_found {x : StartInput} {d : DraftDelivery}
    (h : ((StartPhase.idle x).next svc (.getDraftByLedger tenantId ledgerId)
      (.ok (some d))).Open = true) :
    (StartPhase.idle x).next svc (.getDraftByLedger tenantId ledgerId) (.ok (some d)) =
      .holding x d := by
  change (if d.status.openish then StartPhase.holding x d else .settled).Open = true at h
  show (if d.status.openish then StartPhase.holding x d else .settled) = _
  split_ifs at h ⊢
  · rfl
  · cases h

end Phases

/-! ### Steps -/

section Step
variable {ι : Type} [DecidableEq ι] {svc : DeliveryService} {calls : ι → StartInput}
  {tenantId ledgerId : String} {pool : DeliveryPool ι} {i : ι} {c : Choice} {op : DeliveryOp}
  {r : op.Res} {k : op.Res → Prog DeliveryOp DeliveryOp.Res (TwinResult Unit)} {s : DeliveryState}

theorem startPhase_after_self : startPhase svc calls (pool.after i op r k s) i =
    (startPhase svc calls pool i).next svc op r := by
  unfold startPhase
  rw [Pool.after_trace, watch_cons_self]

theorem startPhase_after_ne {j : ι} (hj : j ≠ i) :
    startPhase svc calls (pool.after i op r k s) j = startPhase svc calls pool j := by
  unfold startPhase
  rw [Pool.after_trace, watch_cons_ne _ _ (Ne.symm hj)]

theorem underWay_after_ne {j : ι} (hj : j ≠ i) :
    UnderWay svc calls (pool.after i op r k s) j ↔ UnderWay svc calls pool j := by
  unfold UnderWay
  rw [startPhase_after_ne hj, Pool.returned_after_ne _ _ _ _ _ _ hj]

theorem approvalDms_after : approvalDms (pool.after i op r k s).trace =
    approvalDms pool.trace + if op.sentDraft.isSome then 1 else 0 := by
  rw [Pool.after_trace]
  exact List.countP_cons

theorem phase_about_after (hI : Approving svc calls tenantId ledgerId pool) (j : ι) :
    (startPhase svc calls (pool.after i op r k s) j).About tenantId ledgerId := by
  by_cases hj : j = i
  · subst hj
    rw [startPhase_after_self]
    exact (hI.about j).next
  · rw [startPhase_after_ne hj]
    exact hI.about j

/-- A sender that goes on is alone under way. -/
theorem not_underWay_of_sends (hI : Approving svc calls tenantId ledgerId pool)
    (hk : pool.threads i = .call op k) (hsends : (startPhase svc calls pool i).Sends svc = true)
    {j : ι} (hj : j ≠ i) : ¬ UnderWay svc calls pool j := by
  intro hunder
  have hself : UnderWay svc calls pool i :=
    ⟨StartPhase.open_of_sends hsends, Pool.not_returned hk⟩
  rw [hI.alone i j (Ne.symm hj) hself hunder] at hsends
  cases hsends

/-- A step of a compile under way opens no second sender. -/
theorem alone_after (hI : Approving svc calls tenantId ledgerId pool)
    (hk : pool.threads i = .call op k)
    (hopen : ((startPhase svc calls pool i).next svc op r).Open = true →
      (startPhase svc calls pool i).Open = true)
    (hsends : ((startPhase svc calls pool i).next svc op r).Sends svc = true →
      (startPhase svc calls pool i).Sends svc = true) {a b : ι} (hab : a ≠ b)
    (ha : UnderWay svc calls (pool.after i op r k s) a)
    (hb : UnderWay svc calls (pool.after i op r k s) b) :
    (startPhase svc calls (pool.after i op r k s) a).Sends svc = false := by
  have hunder : ∀ j, UnderWay svc calls (pool.after i op r k s) j → UnderWay svc calls pool j := by
    intro j hj
    by_cases hji : j = i
    · subst hji
      refine ⟨hopen ?_, Pool.not_returned hk⟩
      rw [← startPhase_after_self (k := k) (s := s)]
      exact hj.1
    · exact (underWay_after_ne hji).mp hj
  have halone := hI.alone a b hab (hunder a ha) (hunder b hb)
  by_cases hai : a = i
  · subst hai
    rw [startPhase_after_self]
    by_contra hsends'
    rw [Bool.not_eq_false] at hsends'
    rw [hsends hsends'] at halone
    cases halone
  · rw [startPhase_after_ne hai]
    exact halone

/-- A call that writes and sends nothing, and changes no phase. -/
theorem approving_still (hI : Approving svc calls tenantId ledgerId pool)
    (hk : pool.threads i = .call op k) (hs : answer c op pool.shared = some (r, s))
    (hwrites : op.writesDraft = false) (hsent : op.sentDraft = none)
    (hq : (startPhase svc calls pool i).next svc op r = startPhase svc calls pool i)
    (hpost : ∀ j, (startPhase svc calls (pool.after i op r k s) j).Sent = true →
      ¬ (pool.after i op r k s).Returned j) :
    Approving svc calls tenantId ledgerId (pool.after i op r k s) := by
  have hrows := answer_sameRows hs hwrites
  have hphase : ∀ j, startPhase svc calls (pool.after i op r k s) j = startPhase svc calls pool j := by
    intro j
    by_cases hj : j = i
    · subst hj
      rw [startPhase_after_self, hq]
    · exact startPhase_after_ne hj
  have hunder : ∀ j, UnderWay svc calls (pool.after i op r k s) j → UnderWay svc calls pool j := by
    intro j hj
    by_cases hji : j = i
    · subst hji
      exact ⟨hphase j ▸ hj.1, Pool.not_returned hk⟩
    · exact (underWay_after_ne hji).mp hj
  have hcount : approvalDms (pool.after i op r k s).trace = approvalDms pool.trace := by
    rw [approvalDms_after, hsent]
    rfl
  refine ⟨draftsIndexed_answer hs hI.indexed, phase_about_after hI, ?_, ?_, ?_, ?_⟩
  · intro a b hab ha hb
    rw [hphase]
    exact hI.alone a b hab (hunder a ha) (hunder b hb)
  · intro j hj
    rw [hphase, hcount]
    exact (hI.rests j (hunder j hj)).of_index (by rw [Pool.after_shared, hrows.index])
  · rw [hcount]
    rcases hI.count with hzero | ⟨j, hj, hsentj⟩ | ⟨hone, hrow, hknown⟩
    · exact .inl hzero
    · refine .inr (.inl ⟨j, ⟨?_, hpost j ?_⟩, ?_⟩) <;> rw [hphase]
      · exact hj.1
      · exact hsentj
      · exact hsentj
    · refine .inr (.inr ⟨hone, ?_, fun j hj => ?_⟩)
      · exact hrow.of_rows hrows
      · rw [hphase]
        exact hknown j (hunder j hj)
  · intro e he draftId hid
    rw [Pool.after_trace, List.mem_cons] at he
    rcases he with rfl | he
    · rw [hsent] at hid
      cases hid
    · rw [hphase, Pool.after_shared, hrows.drafts]
      exact hI.stored e he draftId hid

/-- The message of a compile that is alone under way. -/
theorem approving_send (hI : Approving svc calls tenantId ledgerId pool)
    (hk : pool.threads i = .call op k) (hs : answer c op pool.shared = some (r, s))
    (hwrites : op.writesDraft = false) {draftId : String} (hid : op.sentDraft = some draftId)
    (hq : (startPhase svc calls pool i).Sends svc = true)
    (hqsent : (startPhase svc calls pool i).Sent = false)
    (hq' : ((startPhase svc calls pool i).next svc op r).Sent = true)
    (hrests : ∀ n, n = 1 → ((startPhase svc calls pool i).next svc op r).Rests svc tenantId ledgerId n
      pool.shared)
    (hzero : approvalDms pool.trace = 0)
    (hstored : pool.shared.store.drafts.has (tenantId, draftId) = true ∨
      ∃ x, (startPhase svc calls pool i).next svc op r = .sentNew x draftId)
    (hpost : ∀ j, (startPhase svc calls (pool.after i op r k s) j).Sent = true →
      ¬ (pool.after i op r k s).Returned j) :
    Approving svc calls tenantId ledgerId (pool.after i op r k s) := by
  have hrows := answer_sameRows hs hwrites
  have hone : approvalDms (pool.after i op r k s).trace = 1 := by
    rw [approvalDms_after, hid, hzero]
    rfl
  have hqself : (startPhase svc calls (pool.after i op r k s) i).Sent = true := by
    rw [startPhase_after_self]
    exact hq'
  refine ⟨draftsIndexed_answer hs hI.indexed, phase_about_after hI, ?_, ?_, ?_, ?_⟩
  · intro a b hab ha hb
    refine alone_after hI hk (fun _ => StartPhase.open_of_sends hq) (fun _ => hq) hab ha hb
  · intro j hj
    by_cases hji : j = i
    · subst hji
      rw [startPhase_after_self]
      exact (hrests _ hone).of_index (by rw [Pool.after_shared, hrows.index])
    · exact absurd ((underWay_after_ne hji).mp hj) (not_underWay_of_sends hI hk hq hji)
  · exact .inr (.inl ⟨i, ⟨StartPhase.open_of_sends (StartPhase.sends_of_sent svc hqself),
      hpost i hqself⟩, hqself⟩)
  · intro e he id hidd
    rw [Pool.after_trace, List.mem_cons] at he
    rw [Pool.after_shared, hrows.drafts]
    rcases he with rfl | he
    · rw [hid] at hidd
      obtain rfl := Option.some.inj hidd
      rw [startPhase_after_self]
      exact hstored
    · refine (hI.stored e he id hidd).imp_right ?_
      rintro ⟨x, hx⟩
      by_cases hei : e.who = i
      · rw [hei] at hx
        rw [hx] at hqsent
        cases hqsent
      · rw [startPhase_after_ne hei]
        exact ⟨x, hx⟩

/-- A write of a compile that sends no message. -/
theorem approving_write (hI : Approving svc calls tenantId ledgerId pool)
    (hk : pool.threads i = .call op k) (hs : answer c op pool.shared = some (r, s))
    (hid : op.sentDraft = none) (hq : (startPhase svc calls pool i).Open = true)
    (hsends : (startPhase svc calls pool i).Sends svc = false)
    (hq' : ((startPhase svc calls pool i).next svc op r).Open = true →
      (startPhase svc calls pool i).next svc op r = .publishing ∧
        ∀ x existing, startPhase svc calls pool i ≠ .holding x existing)
    (hrow : ∀ x existing, startPhase svc calls pool i = .holding x existing →
      existing.slackDmTs ≠ "" → SentRow tenantId ledgerId pool.shared →
      SentRow tenantId ledgerId s) :
    Approving svc calls tenantId ledgerId (pool.after i op r k s) := by
  have hself : UnderWay svc calls pool i := ⟨hq, Pool.not_returned hk⟩
  have hcount : approvalDms (pool.after i op r k s).trace = approvalDms pool.trace := by
    rw [approvalDms_after, hid]
    rfl
  -- while this compile is under way, no other one is a sender
  have hothers : ∀ j, j ≠ i → UnderWay svc calls pool j →
      (startPhase svc calls pool j).Sends svc = false :=
    fun j hj hunder => hI.alone j i hj hunder hself
  have hpublishing : UnderWay svc calls (pool.after i op r k s) i →
      startPhase svc calls (pool.after i op r k s) i = .publishing ∧
        ∀ x existing, startPhase svc calls pool i ≠ .holding x existing := by
    intro hunder
    have hopen := hunder.1
    rw [startPhase_after_self] at hopen ⊢
    exact hq' hopen
  refine ⟨draftsIndexed_answer hs hI.indexed, phase_about_after hI, ?_, ?_, ?_, ?_⟩
  · intro a b hab ha hb
    refine alone_after hI hk (fun _ => hq) (fun hsends' => ?_) hab ha hb
    rw [(hq' (StartPhase.open_of_sends hsends')).1] at hsends'
    cases hsends'
  · intro j hj
    rw [hcount]
    by_cases hji : j = i
    · subst hji
      rw [(hpublishing hj).1]
      trivial
    · rw [startPhase_after_ne hji]
      have hunder := (underWay_after_ne hji).mp hj
      exact (hI.rests j hunder).of_not_sends (hothers j hji hunder) hs
  · rw [hcount]
    rcases hI.count with hzero | ⟨j, hj, hsentj⟩ | ⟨hone, hsentrow, hknown⟩
    · exact .inl hzero
    · exfalso
      have hsendsj := StartPhase.sends_of_sent svc hsentj
      by_cases hji : j = i
      · rw [hji, hsends] at hsendsj
        cases hsendsj
      · rw [hothers j hji hj] at hsendsj
        cases hsendsj
    · obtain ⟨x, existing, hholding, hts⟩ := hknown i hself
      refine .inr (.inr ⟨hone, hrow x existing hholding hts hsentrow, fun j hj => ?_⟩)
      by_cases hji : j = i
      · subst hji
        exact absurd hholding ((hpublishing hj).2 x existing)
      · rw [startPhase_after_ne hji]
        exact hknown j ((underWay_after_ne hji).mp hj)
  · intro e he id hidd
    rw [Pool.after_trace, List.mem_cons] at he
    rcases he with rfl | he
    · rw [hid] at hidd
      cases hidd
    · rw [Pool.after_shared]
      refine (hI.stored e he id hidd).imp (answer_has hs) ?_
      rintro ⟨x, hx⟩
      by_cases hei : e.who = i
      · rw [hei] at hx
        rw [hx] at hsends
        cases hsends
      · rw [startPhase_after_ne hei]
        exact ⟨x, hx⟩

/-- The write of a compile whose message is out. -/
theorem approving_settle (hI : Approving svc calls tenantId ledgerId pool)
    (hk : pool.threads i = .call op k) (hs : answer c op pool.shared = some (r, s))
    (hid : op.sentDraft = none) (hq : (startPhase svc calls pool i).Sent = true)
    (hq' : (startPhase svc calls pool i).next svc op r = .settled)
    (hone : approvalDms pool.trace = 1) (hrow : SentRow tenantId ledgerId s)
    (hhas : ∀ x draftId, startPhase svc calls pool i = .sentNew x draftId →
      s.store.drafts.has (tenantId, draftId) = true) :
    Approving svc calls tenantId ledgerId (pool.after i op r k s) := by
  have hsends : (startPhase svc calls pool i).Sends svc = true := StartPhase.sends_of_sent svc hq
  have hnobody : ∀ j, ¬ UnderWay svc calls (pool.after i op r k s) j := by
    intro j hj
    by_cases hji : j = i
    · subst hji
      have hopen := hj.1
      rw [startPhase_after_self, hq'] at hopen
      cases hopen
    · exact not_underWay_of_sends hI hk hsends hji ((underWay_after_ne hji).mp hj)
  refine ⟨draftsIndexed_answer hs hI.indexed, phase_about_after hI, ?_, ?_, ?_, ?_⟩
  · exact fun a b _ ha _ => absurd ha (hnobody a)
  · exact fun j hj => absurd hj (hnobody j)
  · refine .inr (.inr ⟨?_, hrow, fun j hj => absurd hj (hnobody j)⟩)
    rw [approvalDms_after, hid, hone]
    rfl
  · intro e he id hidd
    rw [Pool.after_trace, List.mem_cons] at he
    rw [Pool.after_shared]
    rcases he with rfl | he
    · rw [hid] at hidd
      cases hidd
    · rcases hI.stored e he id hidd with hstored | ⟨x, hx⟩
      · exact .inl (answer_has hs hstored)
      · by_cases hei : e.who = i
        · rw [hei] at hx
          exact .inl (hhas x id hx)
        · refine .inr ⟨x, ?_⟩
          rw [startPhase_after_ne hei]
          exact hx

/-- The look for the draft. A compile that goes on crosses no sender. -/
theorem approving_find (hI : Approving svc calls tenantId ledgerId pool) {x : StartInput}
    {found : Option DraftDelivery}
    {k : (DeliveryOp.getDraftByLedger tenantId ledgerId).Res →
      Prog DeliveryOp DeliveryOp.Res (TwinResult Unit)}
    (hq : startPhase svc calls pool i = .idle x)
    (hfound : pool.shared.store.getDraftByLedger tenantId ledgerId = found)
    (hcross : ∀ j, j ≠ i → UnderWay svc calls pool j →
      UnderWay svc calls (pool.after i _ (.ok found) k pool.shared) i →
      (startPhase svc calls (pool.after i _ (.ok found) k pool.shared) i).Sends svc = false ∧
        (startPhase svc calls pool j).Sends svc = false) :
    Approving svc calls tenantId ledgerId
      (pool.after i (.getDraftByLedger tenantId ledgerId) (.ok found) k pool.shared) := by
  have hself : startPhase svc calls (pool.after i (.getDraftByLedger tenantId ledgerId) (.ok found) k
      pool.shared) i = (StartPhase.idle x).next svc (.getDraftByLedger tenantId ledgerId)
        (.ok found) := by
    rw [startPhase_after_self, hq]
  have hcount : approvalDms (pool.after i (.getDraftByLedger tenantId ledgerId) (.ok found) k
      pool.shared).trace = approvalDms pool.trace := approvalDms_after
  have hne : ∀ j, UnderWay svc calls pool j → j ≠ i := by
    intro j hj hji
    have hopen := hj.1
    rw [hji, hq] at hopen
    cases hopen
  -- where a sender may begin, no message is out
  have hnone : UnderWay svc calls (pool.after i (.getDraftByLedger tenantId ledgerId) (.ok found) k
      pool.shared) i → (∀ d, found = some d → d.slackDmTs = "") → approvalDms pool.trace = 0 := by
    intro hunder hts
    rcases hI.count with hzero | ⟨j, hj, hsentj⟩ | ⟨-, ⟨d, hd, hdts⟩, -⟩
    · exact hzero
    · have hno := (hcross j (hne j hj) hj hunder).2
      rw [StartPhase.sends_of_sent svc hsentj] at hno
      cases hno
    · exact absurd (hts d (hfound.symm.trans hd)) hdts
  refine ⟨hI.indexed, phase_about_after hI, ?_, ?_, ?_, ?_⟩
  · intro a b hab ha hb
    by_cases hai : a = i
    · subst hai
      exact (hcross b (Ne.symm hab) ((underWay_after_ne (Ne.symm hab)).mp hb) ha).1
    · rw [startPhase_after_ne hai]
      by_cases hbi : b = i
      · subst hbi
        exact (hcross a hai ((underWay_after_ne hai).mp ha) hb).2
      · exact hI.alone a b hab ((underWay_after_ne hai).mp ha) ((underWay_after_ne hbi).mp hb)
  · intro j hj
    rw [hcount]
    by_cases hji : j = i
    · subst hji
      rw [hself]
      exact .of_found hI.indexed hfound (hnone hj)
    · rw [startPhase_after_ne hji]
      exact hI.rests j ((underWay_after_ne hji).mp hj)
  · rw [hcount]
    rcases hI.count with hzero | ⟨j, hj, hsentj⟩ | ⟨hone, hrow, hknown⟩
    · exact .inl hzero
    · refine .inr (.inl ⟨j, (underWay_after_ne (hne j hj)).mpr hj, ?_⟩)
      rw [startPhase_after_ne (hne j hj)]
      exact hsentj
    · refine .inr (.inr ⟨hone, hrow, fun j hj => ?_⟩)
      by_cases hji : j = i
      · subst hji
        obtain ⟨d, hd, hts⟩ := hrow
        obtain rfl := hfound.symm.trans hd
        have hopen := hj.1
        rw [hself] at hopen
        exact ⟨x, d, hself.trans (StartPhase.holding_of_found hopen), hts⟩
      · rw [startPhase_after_ne hji]
        exact hknown j ((underWay_after_ne hji).mp hj)
  · intro e he id hid
    rw [Pool.after_trace, List.mem_cons] at he
    rcases he with rfl | he
    · cases hid
    · refine (hI.stored e he id hid).imp_right ?_
      rintro ⟨x', hx'⟩
      have hei : e.who ≠ i := by
        intro hei
        rw [hei, hq] at hx'
        cases hx'
      rw [startPhase_after_ne hei]
      exact ⟨x', hx'⟩

theorem approving_creating (hI : Approving svc calls tenantId ledgerId pool) {x : StartInput}
    (hk : pool.threads i = .call op k) (hs : answer c op pool.shared = some (r, s))
    (hq : startPhase svc calls pool i = .creating x)
    (hallow : (StartPhase.creating x).Allows svc op) (hprep : ¬ StartPhase.Preparing op)
    (hpost : ∀ j, (startPhase svc calls (pool.after i op r k s) j).Sent = true →
      ¬ (pool.after i op r k s).Returned j) :
    Approving svc calls tenantId ledgerId (pool.after i op r k s) := by
  have hself : UnderWay svc calls pool i := ⟨by rw [hq]; rfl, Pool.not_returned hk⟩
  have hrests := hI.rests i hself
  rw [hq] at hrests
  cases op with
  | postDraftDm user draftId text deadline =>
    have hnext : (startPhase svc calls pool i).next svc (.postDraftDm user draftId text deadline) r =
        .sentNew x draftId := by rw [hq]; rfl
    obtain ⟨hzero, hindex⟩ := hrests hallow
    refine approving_send hI hk hs rfl rfl ?_ ?_ ?_ ?_ hzero ?_ hpost
    · rw [hq]
      exact hallow
    · rw [hq]
      rfl
    · rw [hnext]
      rfl
    · intro n hn
      rw [hnext]
      exact ⟨hn, hindex⟩
    · exact .inr ⟨x, hnext⟩
  | putDraft d =>
    have hnext : (startPhase svc calls pool i).next svc (.putDraft d) r =
        if autoPublishes svc x then .publishing else .settled := by rw [hq]; rfl
    refine approving_write hI hk hs rfl ?_ ?_ ?_ ?_
    · rw [hq]
      rfl
    · rw [hq]
      exact hallow
    · intro hopen
      rw [hnext] at hopen ⊢
      split_ifs at hopen ⊢
      · refine ⟨rfl, fun x' existing hx' => ?_⟩
        rw [hq] at hx'
        cases hx'
      · cases hopen
    · intro x' existing hx'
      rw [hq] at hx'
      cases hx'
  | _ => first | exact absurd trivial hprep | exact hallow.elim

theorem approving_holding (hI : Approving svc calls tenantId ledgerId pool) {x : StartInput}
    {existing : DraftDelivery} (hk : pool.threads i = .call op k)
    (hs : answer c op pool.shared = some (r, s))
    (hq : startPhase svc calls pool i = .holding x existing)
    (hallow : (StartPhase.holding x existing).Allows svc op) (hprep : ¬ StartPhase.Preparing op)
    (hpost : ∀ j, (startPhase svc calls (pool.after i op r k s) j).Sent = true →
      ¬ (pool.after i op r k s).Returned j) :
    Approving svc calls tenantId ledgerId (pool.after i op r k s) := by
  have hself : UnderWay svc calls pool i := ⟨by rw [hq]; rfl, Pool.not_returned hk⟩
  obtain ⟨htenant, hindex, hzero⟩ : StartPhase.Rests svc tenantId ledgerId _ _ _ :=
    hq ▸ hI.rests i hself
  cases op with
  | postDraftDm user draftId text deadline =>
    have hnext : (startPhase svc calls pool i).next svc (.postDraftDm user draftId text deadline) r =
        .sentOld existing := by rw [hq]; rfl
    obtain ⟨rfl, hsends⟩ := hallow
    refine approving_send hI hk hs rfl rfl ?_ ?_ ?_ ?_ (hzero hsends) ?_ hpost
    · rw [hq]
      exact hsends
    · rw [hq]
      rfl
    · rw [hnext]
      rfl
    · intro n hn
      rw [hnext]
      exact ⟨hn, htenant, hindex⟩
    · exact .inl (hI.indexed _ _ hindex)
  | updateDraft d =>
    have hnext : (startPhase svc calls pool i).next svc (.updateDraft d) r = .settled := by
      rw [hq]
      rfl
    obtain ⟨hsends, hkey, hts⟩ := hallow
    refine approving_write hI hk hs rfl ?_ ?_ ?_ ?_
    · rw [hq]
      rfl
    · rw [hq]
      exact hsends
    · intro hopen
      rw [hnext] at hopen
      cases hopen
    · intro x' existing' hx' hsent hrow
      rw [hq] at hx'
      cases hx'
      obtain ⟨hdtenant, hdid⟩ := Prod.mk.inj hkey
      obtain ⟨-, rfl⟩ | ⟨-, -, hdrafts, hindex', -⟩ := answer_updateDraft hs
      · exact hrow
      · refine sentRow_of_get (d := d) ?_ ?_ (by rw [hts]; exact hsent)
        · rw [hindex', hindex, hdid]
        · have hdkey : d.key = (tenantId, d.draftId) := by rw [← htenant, ← hdtenant]; rfl
          rw [hdrafts, ← hdkey, Table.get_put_self]
  | _ => first | exact absurd trivial hprep | exact hallow.elim

theorem approving_sent (hI : Approving svc calls tenantId ledgerId pool) (hfault : c.fault = none)
    (hk : pool.threads i = .call op k) (hs : answer c op pool.shared = some (r, s))
    (hq : (startPhase svc calls pool i).Sent = true)
    (hallow : (startPhase svc calls pool i).Allows svc op) (hprep : ¬ StartPhase.Preparing op) :
    Approving svc calls tenantId ledgerId (pool.after i op r k s) := by
  have hself : UnderWay svc calls pool i :=
    ⟨StartPhase.open_of_sends (StartPhase.sends_of_sent svc hq), Pool.not_returned hk⟩
  have hrests := hI.rests i hself
  have habout := hI.about i
  cases hphase : startPhase svc calls pool i with
  | sentNew x draftId =>
    rw [hphase] at hallow hrests habout
    obtain ⟨htenant, hledger⟩ := habout
    cases op with
    -- the message is out; now its row is filed under the ledger, which had none
    | putDraft d =>
      obtain ⟨hkey, hledgerKey, hts⟩ := hallow
      rw [htenant] at hkey
      rw [htenant, hledger] at hledgerKey
      obtain ⟨hone, hfree⟩ := hrests
      rw [← hledgerKey] at hfree
      obtain ⟨-, hdrafts, hindex⟩ := answer_putDraft_of_free hs hfault hfree
      obtain ⟨hdtenant, hdid⟩ := Prod.mk.inj hkey
      have hget : s.store.drafts.get (tenantId, draftId) = some d := by
        rw [hdrafts, ← hkey, Table.get_put_self]
      refine approving_settle hI hk hs rfl hq ?_ hone (sentRow_of_get (d := d) ?_ ?_ hts) ?_
      · rw [hphase]
        rfl
      · rw [hindex, ← hledgerKey, KMap.get_put_self]
      · rw [hdid, hget]
      · intro x' id hx'
        rw [hphase] at hx'
        cases hx'
        exact Table.has_iff.mpr ⟨d, hget⟩
    | _ => first | exact absurd trivial hprep | exact hallow.elim
  | sentOld existing =>
    rw [hphase] at hallow hrests
    cases op with
    -- an upgrade writes over the row that the index names
    | updateDraft d =>
      obtain ⟨hkey, hts⟩ := hallow
      obtain ⟨hone, htenant, hindex⟩ := hrests
      obtain ⟨hdtenant, hdid⟩ := Prod.mk.inj hkey
      have hdkey : d.key = (tenantId, d.draftId) := by rw [← htenant, ← hdtenant]; rfl
      have hhas : pool.shared.store.drafts.has d.key = true := by
        rw [hdkey, hdid]
        exact hI.indexed _ _ hindex
      obtain ⟨-, hdrafts, hindex'⟩ := answer_updateDraft_of_has hs hfault hhas
      refine approving_settle hI hk hs rfl hq ?_ hone (sentRow_of_get (d := d) ?_ ?_ hts) ?_
      · rw [hphase]
        rfl
      · rw [hindex', hindex, hdid]
      · rw [hdrafts, ← hdkey, Table.get_put_self]
      · intro x' id hx'
        rw [hphase] at hx'
        cases hx'
    | _ => first | exact absurd trivial hprep | exact hallow.elim
  | _ => rw [hphase] at hq; cases hq

theorem preparing_still (hprep : StartPhase.Preparing op) :
    op.writesDraft = false ∧ op.sentDraft = none := by
  cases op <;> first | exact ⟨rfl, rfl⟩ | cases hprep

theorem approving_step (hI : Approving svc calls tenantId ledgerId pool) (hc : c.NoFailure)
    (hcross : ¬ Crosses svc calls pool (i, c)) (hk : pool.threads i = .call op k)
    (hs : answer c op pool.shared = some (r, s))
    (hallow : (startPhase svc calls pool i).Allows svc op)
    (hpost : ∀ j, (startPhase svc calls (pool.after i op r k s) j).Sent = true →
      ¬ (pool.after i op r k s).Returned j) :
    Approving svc calls tenantId ledgerId (pool.after i op r k s) := by
  -- clock, ids, chat users, twins and plain messages change no phase
  by_cases hprep : StartPhase.Preparing op
  · obtain ⟨hwrites, hsent⟩ := preparing_still hprep
    exact approving_still hI hk hs hwrites hsent (next_preparing hprep r) hpost
  cases hq : startPhase svc calls pool i with
  | idle x =>
    rw [hq] at hallow
    cases op with
    | getDraftByLedger t l =>
      obtain ⟨rfl, rfl⟩ := hallow
      obtain ⟨htenant, hledger⟩ : StartPhase.About tenantId ledgerId (.idle x) := hq ▸ hI.about i
      subst htenant hledger
      obtain rfl := (reading_eq hs).2 hc.1
      obtain ⟨rfl, -⟩ := reading_eq hs
      refine approving_find hI hq rfl fun j hj hunder hself => ?_
      have hstep := Pool.step_eq_after hk hs
      by_contra hno
      refine hcross ⟨by rw [hq]; rfl, by rw [hstep]; exact hself, j, hj, hunder, ?_⟩
      rw [hstep, Bool.or_eq_true]
      by_contra hneither
      rw [not_or, Bool.not_eq_true, Bool.not_eq_true] at hneither
      exact hno hneither
    | _ => exact hallow.elim
  | creating x => exact approving_creating hI hk hs hq (hq ▸ hallow) hprep hpost
  | holding x existing => exact approving_holding hI hk hs hq (hq ▸ hallow) hprep hpost
  | sentNew x draftId => exact approving_sent hI hc.1 hk hs (by rw [hq]; rfl) hallow hprep
  | sentOld existing => exact approving_sent hI hc.1 hk hs (by rw [hq]; rfl) hallow hprep
  | publishing =>
    rw [hq] at hallow
    have hsent : op.sentDraft = none := by
      cases op <;> first | rfl | exact hallow.elim
    have hnext : (startPhase svc calls pool i).next svc op r = .publishing := by
      rw [hq]
      cases op <;> rfl
    refine approving_write hI hk hs hsent (by rw [hq]; rfl) (by rw [hq]; rfl) ?_ ?_
    · refine fun _ => ⟨hnext, fun x existing hx => ?_⟩
      rw [hq] at hx
      cases hx
    · intro x existing hx
      rw [hq] at hx
      cases hx
  | settled =>
    rw [hq] at hallow
    exact absurd hallow hprep

end Step

section Run
variable {ι : Type} [DecidableEq ι] {svc : DeliveryService} {calls : ι → StartInput}
  {tenantId ledgerId : String} {state : DeliveryState}

theorem start_replies {c : Choice} {op : DeliveryOp} {r : op.Res} {s s' : DeliveryState}
    (hc : c.Delivering) (hs : answer c op s = some (r, s')) : (startMonitor svc).replies op r := by
  cases op with
  | putDraft _ | updateDraft _ | putPublishIfAbsent _ => trivial
  | postDraftDm user draftId text deadline =>
    cases r with
    | error e => exact (answer_error hs rfl hc.1).elim
    | ok p => exact hc.2 p (posting_eq hs).1.symm
  | _ =>
    cases r with
    | error e => exact (answer_error hs rfl hc.1).elim
    | ok v => trivial

/-- The compiles of one ledger, side by side. -/
def compiles (svc : DeliveryService) (calls : ι → StartInput) (state : DeliveryState) :
    DeliveryPool ι :=
  DeliveryPool.start svc (fun i => .startAfterCompileOpts (calls i)) state

theorem compiles_approving (hindexed : DraftsIndexed state)
    (hcalls : ∀ i, (calls i).twin.tenantId = tenantId ∧ (calls i).snap.ledgerId = ledgerId) :
    Approving svc calls tenantId ledgerId (compiles svc calls state) where
  indexed := hindexed
  about i := hcalls i
  alone i j _ hi := by cases hi.1
  rests i hi := by cases hi.1
  count := .inl rfl
  stored e he := by cases he

/-- A compile whose message is out has a write to come. -/
theorem not_returned_of_sent {pool : DeliveryPool ι}
    (h : pool.Tracks (startMonitor svc) (fun _ _ q => q.Sent = false) fun i => .idle (calls i))
    {i : ι} (hi : (startPhase svc calls pool i).Sent = true) : ¬ pool.Returned i := by
  rintro ⟨a, ha⟩
  have hpost : (startPhase svc calls pool i).Sent = false := h.post_of_returned ha
  rw [hi] at hpost
  cases hpost

theorem Approving.one_of_sent {pool : DeliveryPool ι}
    (hI : Approving svc calls tenantId ledgerId pool) {i : ι} (hi : UnderWay svc calls pool i)
    (hsent : (startPhase svc calls pool i).Sent = true) : approvalDms pool.trace = 1 := by
  have hrests := hI.rests i hi
  revert hsent hrests
  cases startPhase svc calls pool i with
  | sentNew x draftId => exact fun _ h => h.1
  | sentOld existing => exact fun _ h => h.1
  | _ => exact fun h => by cases h

end Run

/-- **One approval message.** Compiles of one ledger, none of which crosses another while one of the
two sends, send one approval message at most, and when the compile that sent it has returned, its draft
is stored. -/
theorem approvals_stored {ι : Type} [DecidableEq ι] (svc : DeliveryService) {state : DeliveryState}
    (hstate : Reachable svc state) {tenantId ledgerId : String} {calls : ι → StartInput}
    (hcalls : ∀ i, (calls i).twin.tenantId = tenantId ∧ (calls i).snap.ledgerId = ledgerId)
    {sched : List (ι × Choice)} (hok : ∀ x ∈ sched, x.2.Delivering)
    (halone : EachStep (Pool.step answer) (fun pool x => ¬ Crosses svc calls pool x)
      (compiles svc calls state) sched) :
    approvalDms ((compiles svc calls state).run answer sched).trace ≤ 1 ∧
    ∀ e ∈ ((compiles svc calls state).run answer sched).trace, ∀ draftId,
      e.op.sentDraft = some draftId → ((compiles svc calls state).run answer sched).Returned e.who →
      (((compiles svc calls state).run answer sched).shared.store.getDraft tenantId draftId).isSome =
        true := by
  have htracks : (compiles svc calls state).Tracks (startMonitor svc)
      (fun _ _ q => q.Sent = false) fun i => .idle (calls i) :=
    fun i => startAfterCompileOpts_start svc (calls i)
  obtain ⟨hend, hI⟩ := Pool.run_induction (P := Choice.Delivering)
    (I := Approving svc calls tenantId ledgerId)
    (fun _ _ _ _ _ _ hc hs => start_replies hc hs)
    (fun pool i c op k r s _ hI hc hcross hk hs _ hallow hafter =>
      approving_step hI hc.1 hcross hk hs hallow fun _ => not_returned_of_sent hafter)
    htracks (compiles_approving (indexed_of_reachable hstate) hcalls) sched hok halone
  constructor
  · rcases hI.count with hzero | ⟨i, hi, hsent⟩ | ⟨hone, -⟩
    · rw [hzero]
      exact Nat.zero_le 1
    · exact (hI.one_of_sent hi hsent).le
    · exact hone.le
  · intro e he draftId hid hreturned
    rcases hI.stored e he draftId hid with hstored | ⟨x, hx⟩
    · obtain ⟨d, hd⟩ := Table.has_iff.mp hstored
      exact Option.isSome_iff_exists.mpr ⟨d, hd⟩
    · exact absurd hreturned (not_returned_of_sent hend (by rw [hx]; rfl))

/-! ### Two first compiles of one ledger -/

section Example

instance {ι : Type} [DecidableEq ι] [Fintype ι] (svc : DeliveryService) (calls : ι → StartInput)
    (pool : DeliveryPool ι) (x : ι × Choice) : Decidable (Crosses svc calls pool x) :=
  inferInstanceAs (Decidable (_ ∧ _ ∧ ∃ _, _))

/-- Both compile the ledger for the first time. -/
def twoCompiles (_ : Bool) : StartInput := compiled "A"

/-- Eight steps of one of the two. -/
def stepsOf (b : Bool) (uuid : String) : List (Bool × Choice) := List.replicate 8 (b, smooth uuid)

/-- They take turns. -/
def inTurns : List (Bool × Choice) :=
  (List.replicate 8 [(false, smooth "a"), (true, smooth "b")]).flatten

/-- The second draft was sent and is not stored. -/
theorem crossing_orphans :
    approvalDms ((compiles mockService twoCompiles beforeDraft).run answer inTurns).trace = 2 ∧
    ∃ draftId, (∃ e ∈ ((compiles mockService twoCompiles beforeDraft).run answer inTurns).trace,
        e.op.sentDraft = some draftId ∧
          ((compiles mockService twoCompiles beforeDraft).run answer inTurns).Returned e.who) ∧
      (((compiles mockService twoCompiles beforeDraft).run answer inTurns).shared.store.getDraft
        "t" draftId).isSome = false :=
  ⟨by decide +kernel, "dft_b", by decide +kernel, by decide +kernel⟩

theorem twoCompiles_apart : EachStep (Pool.step answer)
    (fun pool x => ¬ Crosses mockService twoCompiles pool x)
    (compiles mockService twoCompiles beforeDraft) (stepsOf false "a" ++ stepsOf true "b") := by
  decide +kernel

theorem smooth_delivering (uuid : String) : (smooth uuid).Delivering := by
  refine ⟨smooth_noFailure uuid, fun p hp => ?_⟩
  obtain rfl := Except.ok.inj hp
  decide

theorem approvals_stored_apart :
    let pool := (compiles mockService twoCompiles beforeDraft).run answer
      (stepsOf false "a" ++ stepsOf true "b")
    approvalDms pool.trace ≤ 1 ∧ ∀ e ∈ pool.trace, ∀ draftId, e.op.sentDraft = some draftId →
      pool.Returned e.who → (pool.shared.store.getDraft "t" draftId).isSome = true := by
  refine approvals_stored mockService (.start beforeDraft rfl rfl) (fun _ => ⟨rfl, rfl⟩) ?_
    twoCompiles_apart
  intro x hx
  rcases List.mem_append.mp hx with hx | hx
  · rw [List.eq_of_mem_replicate hx]
    exact smooth_delivering "a"
  · rw [List.eq_of_mem_replicate hx]
    exact smooth_delivering "b"

end Example

end AiManager.Twins
