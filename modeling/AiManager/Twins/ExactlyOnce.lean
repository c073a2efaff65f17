import AiManager.Twins.Delivery

/-! # Exactly-once publication

Concurrent calls that concern one ledger. A call that finds no publish record goes on to post in the
channel, and records the publish only after the post. Nothing keeps a second call from looking for
the record in between; what follows is that this is the only way to a second post. -/

namespace AiManager.Twins

open Lib

/-- Where a call is on its way to a publish. -/
inductive PublishPhase where
  | idle
  /-- it found no publish record -/
  | checked
  /-- it posted in the channel -/
  | posted
  | done
  deriving DecidableEq

/-- The draft is about the ledger if it is one of `ids`. -/
def AboutLedger (tenantId ledgerId : String) (ids : String → Prop) (d : DraftDelivery) : Prop :=
  d.tenantId = tenantId → ids d.draftId → d.ledgerId = ledgerId

def nextPhase (q : PublishPhase) (op : DeliveryOp) (r : op.Res) : PublishPhase :=
  match op, r with
  | .getPublishByLedger _ _, .ok none => if q = .idle then .checked else q
  | .postChannel _ _, _ => .posted
  | .putPublishIfAbsent _, _ => .done
  | _, _ => q

/-- What a call may do in which phase, and what it may rely on in the answers. -/
def publishMonitor (tenantId ledgerId : String) (ids : String → Prop) :
    Monitor DeliveryOp DeliveryOp.Res PublishPhase where
  next := nextPhase
  allows q op :=
    match op with
    | .getDraft t d => t = tenantId ∧ ids d
    | .getDraftByLedger t l => t = tenantId ∧ l = ledgerId
    | .getPublishByLedger t l => t = tenantId ∧ l = ledgerId ∧ (q = .idle ∨ q = .done)
    | .putDraft d => AboutLedger tenantId ledgerId ids d
    | .updateDraft d => AboutLedger tenantId ledgerId ids d
    | .postChannel _ _ => q = .checked
    | .putPublishIfAbsent rec => q = .posted ∧ rec.ledgerKey = (tenantId, ledgerId)
    | _ => True
  replies op r :=
    match op, r with
    | .putDraft _, _ => True
    | .updateDraft _, _ => True
    | .getDraft t d, .ok (some draft) =>
      draft.key = (t, d) ∧ AboutLedger tenantId ledgerId ids draft
    | .getDraftByLedger _ _, .ok (some draft) => AboutLedger tenantId ledgerId ids draft
    | _, r => ∃ a, r = .ok a

/-! ## The programs follow the monitor

A call that runs without faults checks before it posts, records after it posted, and does not return
in between. -/

section Programs
variable {tenantId ledgerId : String} {ids : String → Prop} {α : Type} {svc : DeliveryService}
  {twin : Twin} {d : DraftDelivery}

theorem publish_aside {q : PublishPhase} {p : DeliveryM α}
    (h : p.run.CallsOnly DeliveryOp.Aside) :
    p.run.Meets (publishMonitor tenantId ledgerId ids) (fun _ q' => q' = q) q := by
  apply h.meets
  · intro op hop
    cases op <;> trivial
  · intro op r hop
    cases op <;> first | rfl | cases hop

/-- All calls but the writes of drafts succeed. -/
theorem publish_no_error {op : DeliveryOp} {e : TwinError} {P : Prop}
    (h : (publishMonitor tenantId ledgerId ids).replies op (.error e))
    (hop : op.writesDraft = false) : P := by
  cases op with
  | putDraft d => cases hop
  | updateDraft d => cases hop
  | _ => obtain ⟨a, ha⟩ := h; cases ha

theorem finishDraft_publish {q : PublishPhase} {s : DraftStatus}
    (hd : AboutLedger tenantId ledgerId ids d) :
    (finishDraft d s).run.Meets (publishMonitor tenantId ledgerId ids) (fun _ q' => q' = q) q :=
  ask_bind_meets trivial
    (fun _ _ => ask_bind_meets hd (fun _ _ => rfl) fun _ _ => rfl) fun _ _ => rfl

/-- The way of a queued draft: check, post, record. -/
theorem publishQueued_publish (hd : AboutLedger tenantId ledgerId ids d)
    (hkey : d.ledgerKey = (tenantId, ledgerId)) :
    (publishQueued svc twin d).run.Meets (publishMonitor tenantId ledgerId ids)
      (fun _ q' => q' ≠ .posted) .idle := by
  obtain ⟨htenant, hledger⟩ := Prod.mk.inj hkey
  unfold publishQueued
  refine ask_bind_meets ⟨htenant, hledger, .inl rfl⟩ (fun found _ => ?_)
    fun e he => publish_no_error he rfl
  cases found with
  | some existing =>
    refine ask_bind_meets trivial (fun now _ => ?_) fun e he => publish_no_error he rfl
    refine attempt_bind_meets (R := fun _ q => q = .idle) ?_ ?_
    · exact ask_meets hd fun _ _ => rfl
    · rintro r q rfl
      exact nofun
  | none =>
    refine attempt_bind_meets (R := fun r q => q = .posted ∧ ∃ p, r = .ok p) ?_ ?_
    · exact ask_meets rfl fun r hr => ⟨rfl, hr⟩
    · rintro _ _ ⟨rfl, post, rfl⟩
      refine ask_bind_meets trivial (fun uuid _ => ?_) fun e he => publish_no_error he rfl
      refine ask_bind_meets trivial (fun now _ => ?_) fun e he => publish_no_error he rfl
      refine ask_bind_meets ⟨rfl, hkey⟩ (fun inserted _ => ?_)
        fun e he => publish_no_error he rfl
      have hdone : ∀ {rest : DraftDelivery → DeliveryM (DraftDelivery × Option PublishRecord)},
          (∀ d, (rest d).run.Meets (publishMonitor tenantId ledgerId ids)
            (fun _ q' => q' ≠ .posted) .done) →
          (finishDraft d .published >>= rest).run.Meets (publishMonitor tenantId ledgerId ids)
            (fun _ q' => q' ≠ .posted) .done := by
        intro rest hrest
        refine bind_meets (finishDraft_publish hd) ?_ ?_
        · rintro d' _ rfl
          exact hrest d'
        · rintro e _ rfl
          exact nofun
      cases inserted with
      | true => exact hdone fun _ => nofun
      | false =>
        refine ask_bind_meets ⟨htenant, hledger, .inr rfl⟩ (fun existing _ => ?_)
          fun e he => publish_no_error he rfl
        cases existing <;> exact hdone fun _ => nofun

/-- A stored draft of one of the calls is about the ledger. -/
theorem ledgerKey_of_about (htenant : d.tenantId = tenantId) (hid : ids d.draftId)
    (hd : AboutLedger tenantId ledgerId ids d) : d.ledgerKey = (tenantId, ledgerId) := by
  have hledger : d.ledgerId = ledgerId := hd htenant hid
  simp [DraftDelivery.ledgerKey, htenant, hledger]

theorem loadDraft_publish {draftId : String} (hid : ids draftId) :
    (loadDraft tenantId draftId).run.Meets (publishMonitor tenantId ledgerId ids)
      (fun r q' => q' = .idle ∧ ∀ x, r = .ok x →
        AboutLedger tenantId ledgerId ids x.1 ∧ x.1.ledgerKey = (tenantId, ledgerId)) .idle := by
  unfold loadDraft
  refine ask_bind_meets ⟨rfl, hid⟩ (fun found hfound => ?_) fun e he => publish_no_error he rfl
  cases found with
  | none => exact Prog.meets_exceptT_throw.mpr ⟨rfl, fun _ h => by cases h⟩
  | some draft =>
    obtain ⟨hkey, habout⟩ := hfound
    obtain ⟨htenant, hdraft⟩ := Prod.mk.inj hkey
    refine ask_bind_meets trivial (fun snap _ => ?_) fun e he => publish_no_error he rfl
    cases snap with
    | none => exact Prog.meets_exceptT_throw.mpr ⟨rfl, fun _ h => by cases h⟩
    | some snap =>
      refine Prog.meets_exceptT_pure.mpr ⟨rfl, ?_⟩
      rintro x ⟨⟩
      exact ⟨habout, ledgerKey_of_about htenant (hdraft ▸ hid) habout⟩

/-- What follows a load meets the monitor if it does so for a draft about the ledger. -/
theorem loadDraft_bind_publish {β : Type} {draftId : String} (hid : ids draftId)
    {f : DraftDelivery × LedgerSnapshot → DeliveryM β}
    (hf : ∀ x, AboutLedger tenantId ledgerId ids x.1 → x.1.ledgerKey = (tenantId, ledgerId) →
      (f x).run.Meets (publishMonitor tenantId ledgerId ids) (fun _ q' => q' ≠ .posted) .idle) :
    (loadDraft tenantId draftId >>= f).run.Meets (publishMonitor tenantId ledgerId ids)
      (fun _ q' => q' ≠ .posted) .idle := by
  refine bind_meets (loadDraft_publish hid) ?_ ?_
  · rintro x _ ⟨rfl, hx⟩
    obtain ⟨habout, hkey⟩ := hx x rfl
    exact hf x habout hkey
  · rintro e _ ⟨rfl, -⟩
    exact nofun

theorem vetoDraft_publish {draftId : String} (hid : ids draftId) :
    (vetoDraft tenantId draftId).run.Meets (publishMonitor tenantId ledgerId ids)
      (fun _ q' => q' ≠ .posted) .idle := by
  refine loadDraft_bind_publish hid fun ⟨draft, snap⟩ hd _ => ?_
  dsimp only
  split
  · exact nofun
  · exact ask_bind_meets trivial (fun _ _ => ask_bind_meets hd (fun _ _ => nofun) fun _ _ => nofun)
      fun _ _ => nofun

theorem editDraft_publish {draftId text : String} (hid : ids draftId) :
    (editDraft tenantId draftId text).run.Meets (publishMonitor tenantId ledgerId ids)
      (fun _ q' => q' ≠ .posted) .idle := by
  refine loadDraft_bind_publish hid fun ⟨draft, snap⟩ hd _ => ?_
  dsimp only
  split
  · exact nofun
  · exact ask_bind_meets trivial (fun _ _ => ask_bind_meets hd (fun _ _ => nofun) fun _ _ => nofun)
      fun _ _ => nofun

theorem tryPublishChannel_publish (hd : AboutLedger tenantId ledgerId ids d)
    (hkey : d.ledgerKey = (tenantId, ledgerId)) :
    (tryPublishChannel svc twin d).run.Meets (publishMonitor tenantId ledgerId ids)
      (fun _ q' => q' ≠ .posted) .idle := by
  obtain ⟨htenant, hledger⟩ := Prod.mk.inj hkey
  unfold tryPublishChannel
  split_ifs
  · exact nofun
  · exact nofun
  · refine ask_bind_meets ⟨htenant, hledger, .inl rfl⟩ (fun found _ => ?_)
      fun e he => publish_no_error he rfl
    cases found <;> exact nofun
  · exact nofun
  · exact publishQueued_publish hd hkey

theorem silenceTimeout_publish {draftId : String} (hid : ids draftId) :
    (silenceTimeout svc twin tenantId draftId).run.Meets (publishMonitor tenantId ledgerId ids)
      (fun _ q' => q' ≠ .posted) .idle := by
  refine loadDraft_bind_publish hid fun ⟨draft, snap⟩ hd hkey => ?_
  dsimp only
  split
  · exact nofun
  · split
    · exact nofun
    · refine ask_bind_meets trivial (fun now _ => ?_) fun _ _ => nofun
      refine ask_bind_meets hd (fun _ _ => ?_) fun _ _ => nofun
      split_ifs
      · exact tryPublishChannel_publish hd hkey
      · exact nofun

theorem explicitPublish_publish {draftId : String} (hid : ids draftId) :
    (explicitPublish svc twin tenantId draftId).run.Meets (publishMonitor tenantId ledgerId ids)
      (fun _ q' => q' ≠ .posted) .idle := by
  refine loadDraft_bind_publish hid fun ⟨draft, snap⟩ hd hkey => ?_
  dsimp only
  split_ifs
  · refine ask_bind_meets ⟨rfl, (Prod.mk.inj hkey).2, .inl rfl⟩ (fun found _ => ?_)
      fun e he => publish_no_error he rfl
    cases found <;> exact nofun
  · exact nofun
  · split
    · exact nofun
    · refine ask_bind_meets trivial (fun now _ => ?_) fun _ _ => nofun
      exact ask_bind_meets hd (fun _ _ => tryPublishChannel_publish hd hkey) fun _ _ => nofun
  · exact tryPublishChannel_publish hd hkey

variable {x : StartInput}

theorem sendDraft_publish :
    (sendDraft svc x d).run.Meets (publishMonitor tenantId ledgerId ids)
      (fun r q' => q' = .idle ∧ ∀ y, r = .ok y → y.1.key = d.key ∧ y.1.ledgerKey = d.ledgerKey)
      .idle := by
  unfold sendDraft
  refine bind_meets (publish_aside (resolveChatUserId_aside _ _)) ?_ ?_
  · rintro chatUser _ rfl
    refine attempt_bind_meets (R := fun _ q => q = .idle) (ask_meets trivial fun _ _ => rfl) ?_
    rintro r _ rfl
    cases r with
    | error e => exact Prog.meets_exceptT_pure.mpr ⟨rfl, by rintro y ⟨⟩; exact ⟨rfl, rfl⟩⟩
    | ok dm =>
      refine bind_meets (publish_aside (rememberNotify_aside _ _)) ?_ ?_
      · rintro _ _ rfl
        exact Prog.meets_exceptT_pure.mpr ⟨rfl, by rintro y ⟨⟩; exact ⟨rfl, rfl⟩⟩
      · rintro e _ rfl
        exact ⟨rfl, fun _ h => by cases h⟩
  · rintro e _ rfl
    exact ⟨rfl, fun _ h => by cases h⟩

theorem AboutLedger.congr {d' : DraftDelivery} (hd : AboutLedger tenantId ledgerId ids d)
    (hkey : d'.key = d.key) (hledger : d'.ledgerKey = d.ledgerKey) :
    AboutLedger tenantId ledgerId ids d' := by
  obtain ⟨htenant, hid⟩ := Prod.mk.inj hkey
  intro ht hi
  rw [(Prod.mk.inj hledger).2]
  exact hd (htenant ▸ ht) (hid ▸ hi)

/-- What follows the sending of a draft about the ledger. -/
theorem bind_sent_publish {β : Type} {p : DeliveryM (DraftDelivery × Bool)}
    {f : DraftDelivery × Bool → DeliveryM β} (hd : AboutLedger tenantId ledgerId ids d)
    (hp : p.run.Meets (publishMonitor tenantId ledgerId ids)
      (fun r q' => q' = .idle ∧ ∀ y, r = .ok y → y.1.key = d.key ∧ y.1.ledgerKey = d.ledgerKey)
      .idle)
    (hf : ∀ y, AboutLedger tenantId ledgerId ids y.1 →
      (f y).run.Meets (publishMonitor tenantId ledgerId ids) (fun _ q' => q' ≠ .posted) .idle) :
    (p >>= f).run.Meets (publishMonitor tenantId ledgerId ids) (fun _ q' => q' ≠ .posted) .idle := by
  refine bind_meets hp ?_ ?_
  · rintro y _ ⟨rfl, hy⟩
    obtain ⟨hkey, hledger⟩ := hy y rfl
    exact hf y (hd.congr hkey hledger)
  · rintro e _ ⟨rfl, -⟩
    exact nofun

theorem pure_sent_publish {b : Bool} :
    (pure (d, b) : DeliveryM (DraftDelivery × Bool)).run.Meets
      (publishMonitor tenantId ledgerId ids)
      (fun r q' => q' = .idle ∧ ∀ y, r = .ok y → y.1.key = d.key ∧ y.1.ledgerKey = d.ledgerKey)
      .idle :=
  Prog.meets_exceptT_pure.mpr ⟨rfl, by rintro y ⟨⟩; exact ⟨rfl, rfl⟩⟩

theorem idle_ne_posted : PublishPhase.idle ≠ .posted := nofun

theorem upgradeNotify_publish :
    (upgradeNotify svc x d).run.Meets (publishMonitor tenantId ledgerId ids)
      (fun r q' => q' = .idle ∧ ∀ y, r = .ok y → y.1.key = d.key ∧ y.1.ledgerKey = d.ledgerKey)
      .idle := by
  unfold upgradeNotify
  split_ifs
  · exact sendDraft_publish
  · refine bind_meets (publish_aside (rememberUnchanged_aside _ _)) ?_ ?_
    · rintro _ _ rfl
      exact pure_sent_publish
    · rintro e _ rfl
      exact ⟨rfl, fun _ h => by cases h⟩

theorem upgradeDraft_publish (hd : AboutLedger tenantId ledgerId ids d) :
    (upgradeDraft svc x d).run.Meets (publishMonitor tenantId ledgerId ids)
      (fun _ q' => q' ≠ .posted) .idle := by
  have hup : AboutLedger tenantId ledgerId ids (upgraded svc x d) := hd.congr rfl rfl
  refine bind_sent_publish hup upgradeNotify_publish fun y hy => ?_
  exact ask_bind_meets (hy.congr rfl rfl) (fun _ _ => idle_ne_posted) fun _ _ => idle_ne_posted

theorem refreshed_keys : (refreshed x d).key = d.key ∧ (refreshed x d).ledgerKey = d.ledgerKey := by
  unfold refreshed
  split_ifs <;> exact ⟨rfl, rfl⟩

theorem restartDraft_publish (hd : AboutLedger tenantId ledgerId ids d) :
    (restartDraft svc x d).run.Meets (publishMonitor tenantId ledgerId ids)
      (fun _ q' => q' ≠ .posted) .idle := by
  have hrefreshed : AboutLedger tenantId ledgerId ids (refreshed x d) :=
    hd.congr refreshed_keys.1 refreshed_keys.2
  unfold restartDraft
  split_ifs
  · exact upgradeDraft_publish hrefreshed
  · exact ask_bind_meets hrefreshed (fun _ _ => idle_ne_posted) fun _ _ => idle_ne_posted
  · exact idle_ne_posted

theorem autoPublish_publish (hd : AboutLedger tenantId ledgerId ids d)
    (hkey : d.ledgerKey = (tenantId, ledgerId)) :
    (autoPublish svc x d).run.Meets (publishMonitor tenantId ledgerId ids)
      (fun _ q' => q' ≠ .posted) .idle := by
  have hdm : (do
      let chatUser ← resolveChatUserId x.twin svc.adapterKind
      ask (.postDm chatUser ("Auto-publishing high confidence status:\n" ++ x.draftText))).run.Meets
        (publishMonitor tenantId ledgerId ids) (fun _ q' => q' = PublishPhase.idle) .idle := by
    refine bind_meets (publish_aside (resolveChatUserId_aside _ _)) ?_ fun _ _ h => h
    rintro chatUser _ rfl
    exact ask_meets trivial fun _ _ => rfl
  have hrest : ∀ d', AboutLedger tenantId ledgerId ids d' → d'.ledgerKey = (tenantId, ledgerId) →
      (publishStored svc x d').run.Meets (publishMonitor tenantId ledgerId ids)
        (fun _ q' => q' ≠ PublishPhase.posted) .idle := by
    intro d' hd' hkey'
    refine ask_bind_meets hd' (fun _ _ => ?_) fun _ _ => idle_ne_posted
    refine bind_meets (tryPublishChannel_publish hd' hkey') ?_ fun _ _ h => h
    intro y q hq
    refine bind_meets (publish_aside (rememberNotify_aside _ _)) ?_ ?_
    · rintro _ _ rfl
      exact hq
    · rintro e _ rfl
      exact hq
  unfold autoPublish
  refine attempt_bind_meets hdm ?_
  rintro (e | dm) _ rfl
  · exact hrest d hd hkey
  · exact hrest _ (hd.congr rfl rfl) hkey

theorem createNotify_publish :
    (createNotify svc x d).run.Meets (publishMonitor tenantId ledgerId ids)
      (fun r q' => q' = .idle ∧ ∀ y, r = .ok y → y.1.key = d.key ∧ y.1.ledgerKey = d.ledgerKey)
      .idle := by
  unfold createNotify
  split_ifs
  · exact sendDraft_publish
  · exact pure_sent_publish

theorem createDraft_publish (htenant : x.twin.tenantId = tenantId)
    (hledger : x.snap.ledgerId = ledgerId) :
    (createDraft svc x).run.Meets (publishMonitor tenantId ledgerId ids)
      (fun _ q' => q' ≠ .posted) .idle := by
  have hkey : ∀ uuid s, (newDraft svc x uuid s).ledgerKey = (tenantId, ledgerId) := by
    intro uuid s
    simp [newDraft, DraftDelivery.ledgerKey, htenant, hledger]
  have habout : ∀ uuid s, AboutLedger tenantId ledgerId ids (newDraft svc x uuid s) :=
    fun uuid s _ _ => (Prod.mk.inj (hkey uuid s)).2
  refine ask_bind_meets trivial (fun uuid _ => ?_) fun e he => publish_no_error he rfl
  dsimp only
  split_ifs
  · refine ask_bind_meets (habout _ _) (fun _ _ => ?_) fun _ _ => idle_ne_posted
    refine bind_meets (publish_aside (rememberUnchanged_aside _ _)) ?_ ?_ <;>
      (rintro _ _ rfl; exact idle_ne_posted)
  · exact autoPublish_publish (habout _ _) (hkey _ _)
  · refine bind_sent_publish (habout uuid _) createNotify_publish fun y hy => ?_
    exact ask_bind_meets hy (fun _ _ => idle_ne_posted) fun _ _ => idle_ne_posted

theorem startAfterCompileOpts_publish (htenant : x.twin.tenantId = tenantId)
    (hledger : x.snap.ledgerId = ledgerId) :
    (startAfterCompileOpts svc x).run.Meets (publishMonitor tenantId ledgerId ids)
      (fun _ q' => q' ≠ .posted) .idle := by
  unfold startAfterCompileOpts
  refine ask_bind_meets ⟨htenant, hledger⟩ (fun found hfound => ?_)
    fun e he => publish_no_error he rfl
  cases found with
  | some existing => exact restartDraft_publish hfound
  | none => exact createDraft_publish htenant hledger

end Programs
/-! ## The pool -/

section Pool
variable {ι : Type} [DecidableEq ι]

def phaseOf (pool : DeliveryPool ι) (i : ι) : PublishPhase := watch nextPhase .idle i pool.trace

/-- The call is between its check and its record. -/
def InWindow (pool : DeliveryPool ι) (i : ι) : Prop :=
  (phaseOf pool i = .checked ∨ phaseOf pool i = .posted) ∧ ¬ pool.Returned i

instance (pool : DeliveryPool ι) (i : ι) : Decidable (InWindow pool i) :=
  inferInstanceAs (Decidable (_ ∧ _))

/-- A step finds no publish record, and its call goes on, while another call is between its check
and its record. -/
def Overtakes (pool : DeliveryPool ι) (x : ι × Choice) : Prop :=
  (∃ t l, pool.event answer x = some ⟨x.1, .getPublishByLedger t l, .ok none⟩) ∧
    ¬ (pool.step answer x).Returned x.1 ∧ ∃ j, j ≠ x.1 ∧ InWindow pool j

/-- Neither a store call nor a chat call fails. -/
def Choice.NoFailure (c : Choice) : Prop :=
  c.fault = none ∧ (∃ p, c.dm = .ok p) ∧ ∃ p, c.channel = .ok p

/-- The call is about the ledger: it compiled it, or its draft, if there is one, belongs to it. -/
def DeliveryCall.Concerns (tenantId ledgerId : String) (st : InMemoryTwinStore) :
    DeliveryCall → Prop
  | .explicitPublish _ t d | .silenceTimeout _ t d | .vetoDraft t d | .editDraft t d _ =>
    t = tenantId ∧ ∀ draft, st.getDraft t d = some draft → draft.ledgerId = ledgerId
  | .startAfterCompileOpts x => x.twin.tenantId = tenantId ∧ x.snap.ledgerId = ledgerId

/-- The draft a call names. -/
def DeliveryCall.names (draftId : String) : DeliveryCall → Prop
  | .explicitPublish _ _ d | .silenceTimeout _ _ d | .vetoDraft _ d | .editDraft _ d _ =>
    d = draftId
  | .startAfterCompileOpts _ => False

/-- What holds between the steps. -/
structure Once (tenantId ledgerId : String) (ids : String → Prop) (pool : DeliveryPool ι) :
    Prop where
  about : ∀ k d, pool.shared.store.drafts.get k = some d → AboutLedger tenantId ledgerId ids d
  indexed : pool.shared.store.PublishIndexed
  alone : ∀ i j, InWindow pool i → InWindow pool j → i = j
  fresh : ∀ i, phaseOf pool i = .checked → ¬ pool.Returned i →
    channelPosts pool.trace = 0 ∧
      pool.shared.store.publishByLedger.has (tenantId, ledgerId) = false
  recorded : channelPosts pool.trace = 0 ∨
    pool.shared.store.publishByLedger.has (tenantId, ledgerId) = true ∨
    ∃ i, phaseOf pool i = .posted
  atMostOne : channelPosts pool.trace ≤ 1

variable {tenantId ledgerId : String} {ids : String → Prop} {pool : DeliveryPool ι} {c : Choice}
  {op : DeliveryOp} {r : op.Res} {s : DeliveryState} {i : ι}

theorem once_replies (hI : Once tenantId ledgerId ids pool) (hc : c.NoFailure)
    (hs : answer c op pool.shared = some (r, s)) :
    (publishMonitor tenantId ledgerId ids).replies op r := by
  obtain ⟨hfault, ⟨p, hdm⟩, ⟨p', hchannel⟩⟩ := hc
  cases op with
  | utcNow => cases hs; exact ⟨_, rfl⟩
  | newUuid => obtain ⟨-, rfl, -⟩ := newUuid_eq hs; exact ⟨_, rfl⟩
  | getDraft t d =>
    obtain rfl := (reading_eq hs).2 hfault
    cases hget : pool.shared.store.getDraft t d with
    | none => exact ⟨_, rfl⟩
    | some draft => exact ⟨Table.key_of_get hget, hI.about _ _ hget⟩
  | getDraftByLedger t l =>
    obtain rfl := (reading_eq hs).2 hfault
    cases hget : pool.shared.store.getDraftByLedger t l with
    | none => exact ⟨_, rfl⟩
    | some draft =>
      unfold InMemoryTwinStore.getDraftByLedger at hget
      split at hget
      · exact hI.about _ _ hget
      · cases hget
  | getLedger _ _ | getPublishByLedger _ _ | getSlackMap _ _ =>
    exact ⟨_, (reading_eq hs).2 hfault⟩
  | putDraft _ | updateDraft _ => trivial
  | putPublishIfAbsent rec =>
    obtain ⟨-, hne, -⟩ | ⟨rfl, -⟩ := writing_eq (f := fun st => st.putPublishIfAbsent rec) hs
    · exact absurd hfault hne
    · unfold InMemoryTwinStore.putPublishIfAbsent
      split_ifs <;> exact ⟨_, rfl⟩
  | upsertTwin t =>
    obtain ⟨-, hne, -⟩ | ⟨rfl, -⟩ := writing_eq (f := fun st => st.upsertTwin t) hs
    · exact absurd hfault hne
    · exact ⟨_, rfl⟩
  | postDm _ _ | postDraftDm _ _ _ _ => exact ⟨p, (posting_eq hs).1.trans hdm⟩
  | postChannel _ _ => exact ⟨p', (posting_eq hs).1.trans hchannel⟩

theorem phaseOf_after_ne {k : op.Res → Prog DeliveryOp DeliveryOp.Res (TwinResult Unit)} {j : ι}
    (hj : j ≠ i) : phaseOf (pool.after i op r k s) j = phaseOf pool j := by
  unfold phaseOf
  rw [Pool.after_trace, watch_cons_ne _ _ (Ne.symm hj)]

theorem phaseOf_after_self {k : op.Res → Prog DeliveryOp DeliveryOp.Res (TwinResult Unit)} :
    phaseOf (pool.after i op r k s) i = nextPhase (phaseOf pool i) op r := by
  unfold phaseOf
  rw [Pool.after_trace, watch_cons_self]

theorem inWindow_after_ne {k : op.Res → Prog DeliveryOp DeliveryOp.Res (TwinResult Unit)} {j : ι}
    (hj : j ≠ i) : InWindow (pool.after i op r k s) j ↔ InWindow pool j := by
  unfold InWindow
  rw [phaseOf_after_ne hj, Pool.returned_after_ne pool i op r k s hj]

/-- The drafts stay about the ledger under every allowed call. -/
theorem about_after (hI : Once tenantId ledgerId ids pool)
    (hs : answer c op pool.shared = some (r, s)) {q : PublishPhase}
    (hallow : (publishMonitor tenantId ledgerId ids).allows q op) (k : String × String)
    (d : DraftDelivery) (hd : s.store.drafts.get k = some d) :
    AboutLedger tenantId ledgerId ids d := by
  obtain rfl | rfl | hold := answer_drafts hs hd
  · exact hallow
  · exact hallow
  · exact hI.about k d hold

section Step
variable {k : op.Res → Prog DeliveryOp DeliveryOp.Res (TwinResult Unit)}

/-- A call that stays in its phase is in its window after the step only if it was before. -/
theorem inWindow_of_after (hk : pool.threads i = .call op k)
    (hphase : nextPhase (phaseOf pool i) op r = phaseOf pool i) {j : ι}
    (hj : InWindow (pool.after i op r k s) j) : InWindow pool j := by
  by_cases h : j = i
  · subst h
    obtain ⟨hq, -⟩ := hj
    rw [phaseOf_after_self, hphase] at hq
    exact ⟨hq, Pool.not_returned hk⟩
  · exact (inWindow_after_ne h).mp hj

/-- A step that neither posts nor records, and does not open a window. -/
theorem once_quiet (hI : Once tenantId ledgerId ids pool) (hk : pool.threads i = .call op k)
    (hs : answer c op pool.shared = some (r, s))
    (hallow : (publishMonitor tenantId ledgerId ids).allows (phaseOf pool i) op)
    (hphase : nextPhase (phaseOf pool i) op r = phaseOf pool i)
    (hpost : ∀ ch t, op ≠ .postChannel ch t) (hput : ∀ rec, op ≠ .putPublishIfAbsent rec) :
    Once tenantId ledgerId ids (pool.after i op r k s) := by
  have hposts : channelPosts (pool.after i op r k s).trace = channelPosts pool.trace := by
    rw [Pool.after_trace]
    unfold channelPosts
    rw [List.countP_cons_of_neg]
    cases op with
    | postChannel ch t => exact absurd rfl (hpost ch t)
    | _ => simp
  have hall : ∀ j, phaseOf (pool.after i op r k s) j = phaseOf pool j := by
    intro j
    by_cases h : j = i
    · subst h
      rw [phaseOf_after_self, hphase]
    · exact phaseOf_after_ne h
  have hwindow := fun j => inWindow_of_after (r := r) (s := s) (j := j) hk hphase
  obtain ⟨hledger, hpublishes⟩ := answer_publishes hs hput
  refine ⟨about_after hI hs hallow, ?_, ?_, ?_, ?_, ?_⟩
  · exact hI.indexed.congr hledger hpublishes
  · intro j j' hj hj'
    exact hI.alone j j' (hwindow j hj) (hwindow j' hj')
  · intro j hj hret
    have hold := hwindow j ⟨.inl hj, hret⟩
    rw [hposts, Pool.after_shared, hledger]
    exact hI.fresh j (hall j ▸ hj) hold.2
  · rw [hposts, Pool.after_shared, hledger]
    simp only [hall]
    exact hI.recorded
  · rw [hposts]
    exact hI.atMostOne

/-- The check: no other call may be in its window. -/
theorem once_check {t l : String}
    {k : DeliveryOp.Res (.getPublishByLedger t l) → Prog DeliveryOp DeliveryOp.Res (TwinResult Unit)}
    (hI : Once tenantId ledgerId ids pool) (hk : pool.threads i = .call (.getPublishByLedger t l) k)
    (hs : answer c (.getPublishByLedger t l) pool.shared = some (.ok none, s))
    (hfault : c.fault = none) (hkey : t = tenantId ∧ l = ledgerId)
    (hidle : phaseOf pool i = .idle) (hposted : ∀ j, phaseOf pool j = .posted → ¬ pool.Returned j)
    (hC : ¬ Overtakes pool (i, c)) :
    Once tenantId ledgerId ids (pool.after i (.getPublishByLedger t l) (.ok none) k s) := by
  obtain ⟨rfl, rfl⟩ := hkey
  obtain ⟨rfl, hval⟩ := reading_eq hs
  have hfree : pool.shared.store.publishByLedger.has (t, l) = false :=
    InMemoryTwinStore.getPublishByLedger_none hI.indexed (Except.ok.inj (hval hfault)).symm
  -- if the call goes on, nobody else is between check and record
  have hothers : ¬ (pool.after i (.getPublishByLedger t l) (.ok none) k pool.shared).Returned i →
      ∀ j, j ≠ i → ¬ InWindow pool j := by
    intro hret j hj hwin
    refine hC ⟨⟨t, l, Pool.event_eq hk hs⟩, ?_, j, hj, hwin⟩
    rwa [Pool.step_eq_after hk hs]
  have hposts : channelPosts (pool.after i (.getPublishByLedger t l) (.ok none) k pool.shared).trace
      = channelPosts pool.trace := by
    rw [Pool.after_trace]
    exact List.countP_cons_of_neg (by simp)
  refine ⟨fun key d hd => hI.about key d hd, hI.indexed, ?_, ?_, ?_, ?_⟩
  · intro j j' hj hj'
    by_cases h : j = i
    · by_cases h' : j' = i
      · rw [h, h']
      · subst h
        exact absurd ((inWindow_after_ne h').mp hj') (hothers hj.2 j' h')
    · by_cases h' : j' = i
      · subst h'
        exact absurd ((inWindow_after_ne h).mp hj) (hothers hj'.2 j h)
      · exact hI.alone j j' ((inWindow_after_ne h).mp hj) ((inWindow_after_ne h').mp hj')
  · intro j hj hret
    rw [hposts]
    refine ⟨?_, hfree⟩
    by_cases h : j = i
    · subst h
      rcases hI.recorded with hzero | hhas | ⟨j', hj'⟩
      · exact hzero
      · rw [hfree] at hhas
        cases hhas
      · have hne : j' ≠ j := by
          rintro rfl
          rw [hidle] at hj'
          cases hj'
        exact absurd ⟨.inr hj', hposted j' hj'⟩ (hothers hret j' hne)
    · have hold := (inWindow_after_ne h).mp ⟨.inl hj, hret⟩
      exact (hI.fresh j (phaseOf_after_ne h ▸ hj) hold.2).1
  · rw [hposts]
    rcases hI.recorded with hzero | hhas | ⟨j, hj⟩
    · exact .inl hzero
    · exact .inr (.inl hhas)
    · refine .inr (.inr ⟨j, ?_⟩)
      rw [phaseOf_after_ne]
      · exact hj
      · rintro rfl
        rw [hidle] at hj
        cases hj
  · rw [hposts]
    exact hI.atMostOne

/-- The post: the call is alone in its window, and nothing was posted before. -/
theorem once_post {ch text : String}
    {k : DeliveryOp.Res (.postChannel ch text) → Prog DeliveryOp DeliveryOp.Res (TwinResult Unit)}
    {r : DeliveryOp.Res (.postChannel ch text)}
    (hI : Once tenantId ledgerId ids pool) (hk : pool.threads i = .call (.postChannel ch text) k)
    (hs : answer c (.postChannel ch text) pool.shared = some (r, s))
    (hchecked : phaseOf pool i = .checked) :
    Once tenantId ledgerId ids (pool.after i (.postChannel ch text) r k s) := by
  have hstore := (posting_eq hs).2.1
  have hwin : InWindow pool i := ⟨.inl hchecked, Pool.not_returned hk⟩
  have hzero := (hI.fresh i hchecked (Pool.not_returned hk)).1
  have hone : channelPosts (pool.after i (.postChannel ch text) r k s).trace = 1 := by
    rw [Pool.after_trace]
    unfold channelPosts at hzero ⊢
    rw [List.countP_cons_of_pos rfl, hzero]
  have hself : phaseOf (pool.after i (.postChannel ch text) r k s) i = .posted := phaseOf_after_self
  have hwindow : ∀ j, InWindow (pool.after i (.postChannel ch text) r k s) j → InWindow pool j := by
    intro j hj
    by_cases h : j = i
    · exact h ▸ hwin
    · exact (inWindow_after_ne h).mp hj
  refine ⟨fun key d hd => hI.about key d (hstore ▸ hd), ?_, ?_, ?_, .inr (.inr ⟨i, hself⟩), hone.le⟩
  · rw [Pool.after_shared, hstore]
    exact hI.indexed
  · intro j j' hj hj'
    exact hI.alone j j' (hwindow j hj) (hwindow j' hj')
  · intro j hj hret
    have hji : j = i := hI.alone j i (hwindow j ⟨.inl hj, hret⟩) hwin
    rw [hji, hself] at hj
    cases hj

/-- The record: the call leaves its window, and the ledger is published. -/
theorem once_record {rec : PublishRecord}
    {k : DeliveryOp.Res (.putPublishIfAbsent rec) → Prog DeliveryOp DeliveryOp.Res (TwinResult Unit)}
    {r : DeliveryOp.Res (.putPublishIfAbsent rec)}
    (hI : Once tenantId ledgerId ids pool) (hk : pool.threads i = .call (.putPublishIfAbsent rec) k)
    (hs : answer c (.putPublishIfAbsent rec) pool.shared = some (r, s)) (hfault : c.fault = none)
    (hphase : phaseOf pool i = .posted) (hkey : rec.ledgerKey = (tenantId, ledgerId)) :
    Once tenantId ledgerId ids (pool.after i (.putPublishIfAbsent rec) r k s) := by
  obtain ⟨-, hne, -⟩ | ⟨-, rfl⟩ := writing_eq (f := fun st => st.putPublishIfAbsent rec) hs
  · exact absurd hfault hne
  have hwin : InWindow pool i := ⟨.inr hphase, Pool.not_returned hk⟩
  have hself : phaseOf (pool.after i (.putPublishIfAbsent rec) r k
      { pool.shared with store := (pool.shared.store.putPublishIfAbsent rec).2 }) i = .done :=
    phaseOf_after_self
  have hposts : channelPosts (pool.after i (.putPublishIfAbsent rec) r k
      { pool.shared with store := (pool.shared.store.putPublishIfAbsent rec).2 }).trace =
      channelPosts pool.trace := by
    rw [Pool.after_trace]
    exact List.countP_cons_of_neg (by simp)
  -- with the recording call gone, the window is empty
  have hnone : ∀ j, ¬ InWindow (pool.after i (.putPublishIfAbsent rec) r k
      { pool.shared with store := (pool.shared.store.putPublishIfAbsent rec).2 }) j := by
    intro j hj
    by_cases h : j = i
    · rw [h] at hj
      rcases hj.1 with hq | hq <;> (rw [hself] at hq; cases hq)
    · exact h (hI.alone j i ((inWindow_after_ne h).mp hj) hwin)
  refine ⟨?_, hI.indexed.putPublishIfAbsent rec, fun j _ hj => absurd hj (hnone j), ?_, ?_, ?_⟩
  · intro key d hd
    rw [Pool.after_shared, InMemoryTwinStore.putPublishIfAbsent_drafts] at hd
    exact hI.about key d hd
  · intro j hj hret
    exact absurd ⟨.inl hj, hret⟩ (hnone j)
  · refine .inr (.inl ?_)
    rw [← hkey]
    exact InMemoryTwinStore.has_putPublishIfAbsent_self rec
  · rw [hposts]
    exact hI.atMostOne

end Step

/-! ### Runs -/

theorem once_step {k : op.Res → Prog DeliveryOp DeliveryOp.Res (TwinResult Unit)}
    (hI : Once tenantId ledgerId ids pool) (hc : c.NoFailure)
    (hposted : ∀ j, phaseOf pool j = .posted → ¬ pool.Returned j) (hC : ¬ Overtakes pool (i, c))
    (hk : pool.threads i = .call op k) (hs : answer c op pool.shared = some (r, s))
    (hallow : (publishMonitor tenantId ledgerId ids).allows (phaseOf pool i) op) :
    Once tenantId ledgerId ids (pool.after i op r k s) := by
  cases op with
  | postChannel ch text => exact once_post hI hk hs hallow
  | putPublishIfAbsent rec => exact once_record hI hk hs hc.1 hallow.1 hallow.2
  | getPublishByLedger t l =>
    obtain ⟨ht, hl, hphase⟩ := hallow
    rcases hphase with hidle | hdone
    · rcases r with e | (_ | existing)
      · cases (reading_eq hs).2 hc.1
      · exact once_check hI hk hs hc.1 ⟨ht, hl⟩ hidle hposted hC
      · exact once_quiet hI hk hs ⟨ht, hl, .inl hidle⟩ rfl nofun nofun
    · refine once_quiet hI hk hs ⟨ht, hl, .inr hdone⟩ ?_ nofun nofun
      rw [hdone]
      rcases r with e | (_ | existing) <;> rfl
  | _ => exact once_quiet hI hk hs hallow rfl nofun nofun

section Start
variable {svc : DeliveryService} {st : InMemoryTwinStore}

/-- The result of a call is dropped. -/
theorem bind_drop_publish {α : Type} {p : DeliveryM α}
    (h : p.run.Meets (publishMonitor tenantId ledgerId ids) (fun _ q' => q' ≠ .posted) .idle) :
    (p >>= fun _ => (pure () : DeliveryM Unit)).run.Meets (publishMonitor tenantId ledgerId ids)
      (fun _ q' => q' ≠ .posted) .idle :=
  bind_meets h (fun _ _ hq => hq) fun _ _ hq => hq

/-- Every call that concerns the ledger follows the monitor. -/
theorem program_publish {call : DeliveryCall} (hcall : call.Concerns tenantId ledgerId st)
    (hids : ∀ d, call.names d → ids d) :
    (call.program svc).run.Meets (publishMonitor tenantId ledgerId ids) (fun _ q' => q' ≠ .posted)
      .idle := by
  cases call with
  | explicitPublish twin t d =>
    obtain ⟨rfl, -⟩ := hcall
    exact bind_drop_publish (explicitPublish_publish (hids d rfl))
  | silenceTimeout twin t d =>
    obtain ⟨rfl, -⟩ := hcall
    exact bind_drop_publish (silenceTimeout_publish (hids d rfl))
  | vetoDraft t d =>
    obtain ⟨rfl, -⟩ := hcall
    exact bind_drop_publish (vetoDraft_publish (hids d rfl))
  | editDraft t d text =>
    obtain ⟨rfl, -⟩ := hcall
    exact bind_drop_publish (editDraft_publish (hids d rfl))
  | startAfterCompileOpts x =>
    exact bind_drop_publish (startAfterCompileOpts_publish hcall.1 hcall.2)

omit [DecidableEq ι] in
/-- A stored draft that a call names is about the ledger. -/
theorem about_of_concerns {calls : ι → DeliveryCall}
    (hcalls : ∀ i, (calls i).Concerns tenantId ledgerId st) {k : String × String}
    {d : DraftDelivery} (hd : st.drafts.get k = some d) :
    AboutLedger tenantId ledgerId (fun id => ∃ i, (calls i).names id) d := by
  rintro htenant ⟨i, hi⟩
  have hget : st.getDraft tenantId d.draftId = some d := by
    have hkey : d.key = k := Table.key_of_get hd
    rw [← htenant]
    show st.drafts.get d.key = some d
    rw [hkey, hd]
  have hc := hcalls i
  revert hi hc
  cases calls i with
  | startAfterCompileOpts x => exact fun hi => hi.elim
  | _ =>
    rintro ⟨⟩ ⟨rfl, hledger⟩
    exact hledger d hget

variable {calls : ι → DeliveryCall} {state : DeliveryState}

theorem start_tracks (hcalls : ∀ i, (calls i).Concerns tenantId ledgerId st) :
    (DeliveryPool.start svc calls state).Tracks
      (publishMonitor tenantId ledgerId fun id => ∃ i, (calls i).names id)
      (fun _ _ q => q ≠ .posted) fun _ => .idle :=
  fun i => program_publish (hcalls i) fun _ hd => ⟨i, hd⟩

theorem start_once (hindexed : state.store.PublishIndexed)
    (hcalls : ∀ i, (calls i).Concerns tenantId ledgerId state.store) :
    Once tenantId ledgerId (fun id => ∃ i, (calls i).names id)
      (DeliveryPool.start svc calls state) where
  about _ _ hd := about_of_concerns hcalls hd
  indexed := hindexed
  alone i _ hi _ := by rcases hi.1 with h | h <;> cases h
  fresh i hi := by cases hi
  recorded := .inl rfl
  atMostOne := Nat.zero_le 1

end Start

/-- **At most one post.** Concurrent calls about one ledger, none of whose store and chat calls
fails, post in the channel at most once, in every schedule in which no call overtakes another. -/
theorem channelPosts_le_one (svc : DeliveryService) {tenantId ledgerId : String}
    {calls : ι → DeliveryCall} {state : DeliveryState} (hindexed : state.store.PublishIndexed)
    (hcalls : ∀ i, (calls i).Concerns tenantId ledgerId state.store)
    {sched : List (ι × Choice)} (hok : ∀ x ∈ sched, x.2.NoFailure)
    (halone : EachStep (Pool.step answer) (fun pool x => ¬ Overtakes pool x)
      (DeliveryPool.start svc calls state) sched) :
    channelPosts ((DeliveryPool.start svc calls state).run answer sched).trace ≤ 1 := by
  have hrun := Pool.run_induction (P := Choice.NoFailure)
    (fun _ _ _ _ _ hI hc hs => once_replies hI hc hs)
    (fun pool i c op k r s htracks hI hc hC hk hs _ hallow _ =>
      have hposted : ∀ j, phaseOf pool j = .posted → ¬ pool.Returned j := by
        rintro j hj ⟨a, ha⟩
        exact htracks.post_of_returned ha hj
      once_step hI hc hposted hC hk hs hallow)
    (start_tracks hcalls) (start_once hindexed hcalls) sched hok halone
  exact hrun.2.atMostOne

/-! ### Two publishers of one draft -/

section Example

/-- Both publishers approve the same draft. -/
def bothPublish (_ : Bool) : DeliveryCall := .explicitPublish teamTwin "t" "d"

theorem bothPublish_concerns (b : Bool) : (bothPublish b).Concerns "t" "L" draftState.store :=
  ⟨rfl, fun draft hd => by cases hd; rfl⟩

/-- The second publisher looks for the publish record before the first one writes it. -/
def overtaking : List (Bool × Choice) :=
  List.replicate 5 (true, smooth "a") ++ List.replicate 3 (false, smooth "a") ++
    List.replicate 4 (true, smooth "a") ++ List.replicate 8 (false, smooth "b")

/-- The second publisher starts when the first one is done. -/
def oneByOne : List (Bool × Choice) :=
  List.replicate 12 (true, smooth "a") ++ List.replicate 12 (false, smooth "b")

theorem smooth_noFailure (uuid : String) : (smooth uuid).NoFailure :=
  ⟨rfl, ⟨_, rfl⟩, _, rfl⟩

theorem draftState_indexed : draftState.store.PublishIndexed := fun _ _ h => by cases h

theorem overtaking_noFailure : ∀ x ∈ overtaking, x.2.NoFailure := by
  intro x hx
  simp only [overtaking, List.mem_append, List.mem_replicate] at hx
  rcases hx with ((⟨-, rfl⟩ | ⟨-, rfl⟩) | ⟨-, rfl⟩) | ⟨-, rfl⟩ <;> exact smooth_noFailure _

theorem overtaking_posts_twice :
    (∀ b, (bothPublish b).Concerns "t" "L" draftState.store) ∧
    draftState.store.PublishIndexed ∧ (∀ x ∈ overtaking, x.2.NoFailure) ∧
    channelPosts ((DeliveryPool.start mockService bothPublish draftState).run answer
      overtaking).trace = 2 :=
  ⟨bothPublish_concerns, draftState_indexed, overtaking_noFailure, by decide⟩

theorem oneByOne_noFailure : ∀ x ∈ oneByOne, x.2.NoFailure := by
  intro x hx
  simp only [oneByOne, List.mem_append, List.mem_replicate] at hx
  rcases hx with ⟨-, rfl⟩ | ⟨-, rfl⟩ <;> exact smooth_noFailure _

/-- Nobody else is between check and record at any step. -/
theorem oneByOne_alone :
    EachStep (Pool.step answer) (fun pool x => ∀ j, j ≠ x.1 → ¬ InWindow pool j)
      (DeliveryPool.start mockService bothPublish draftState) oneByOne := by
  decide

theorem oneByOne_posts_once :
    channelPosts ((DeliveryPool.start mockService bothPublish draftState).run answer
      oneByOne).trace ≤ 1 :=
  channelPosts_le_one mockService draftState_indexed bothPublish_concerns oneByOne_noFailure
    (oneByOne_alone.mono fun _ _ h => fun ⟨_, _, j, hj, hwin⟩ => h j hj hwin)

end Example

end Pool

end AiManager.Twins
