import AiManager.Twins.Delivery

/-! # Vetoes

Concurrent calls on one draft. Every call reads the draft, decides, and writes the whole row back. A
call that read the draft before the veto still holds the old status; what follows is that such a
call is the only thing that can undo a veto. -/

namespace AiManager.Twins

open Lib

/-- What a call has in hand. -/
inductive DraftHold where
  | none
  /-- the id of a draft that it has not put yet -/
  | made (draftId : String)
  /-- a draft that it read in a status other than vetoed, or put -/
  | holds (draftId : String)
  /-- it wrote the veto of the draft -/
  | vetoed (draftId : String)
  deriving DecidableEq

def draftIdOf (uuid : String) : String := "dft_" ++ uuid

namespace DraftHold

def reads (q : DraftHold) (draft : DraftDelivery) : DraftHold :=
  if draft.status = .vetoed then q else .holds draft.draftId

def next (q : DraftHold) (op : DeliveryOp) (r : op.Res) : DraftHold :=
  match op, r with
  | .newUuid, .ok uuid => if q = .none then .made (draftIdOf uuid) else q
  | .getDraft _ _, .ok (some draft) => q.reads draft
  | .getDraftByLedger _ _, .ok (some draft) => q.reads draft
  | .putDraft draft, .ok _ => .holds draft.draftId
  | .updateDraft draft, .ok _ => if draft.status = .vetoed then .vetoed draft.draftId else q
  | _, _ => q

end DraftHold

/-- A draft of the tenant; the one in question is about its ledger. -/
def Files (tenantId draftId ledgerId : String) (d : DraftDelivery) : Prop :=
  d.tenantId = tenantId ∧ (d.draftId = draftId → d.ledgerId = ledgerId)

/-- A call works on the draft or the ledger it was started for, and writes and posts only what it
has in hand. -/
def vetoMonitor (tenantId draftId ledgerId : String) :
    Monitor DeliveryOp DeliveryOp.Res DraftHold where
  next := DraftHold.next
  allows q op :=
    match op with
    | .getDraft t d => t = tenantId ∧ d = draftId
    | .getDraftByLedger t l => t = tenantId ∧ l = ledgerId
    | .putDraft draft => draft.ledgerKey = (tenantId, ledgerId) ∧ q = .made draft.draftId
    | .updateDraft draft => Files tenantId draftId ledgerId draft ∧ q = .holds draft.draftId
    | .postChannel _ _ => ∃ d, q = .holds d
    | _ => True
  replies op r :=
    match op, r with
    | .getDraft t d, .ok (some draft) =>
      draft.key = (t, d) ∧ (t = tenantId → Files tenantId draftId ledgerId draft)
    | .getDraftByLedger t _, .ok (some draft) => t = tenantId → Files tenantId draftId ledgerId draft
    | _, _ => True

/-! ## The programs follow the monitor -/

section Programs
variable {tenantId draftId ledgerId : String} {α β : Type} {svc : DeliveryService} {twin : Twin}
  {d : DraftDelivery} {x : StartInput} {q : DraftHold}

theorem veto_aside {p : DeliveryM α} (h : p.run.CallsOnly DeliveryOp.Aside) :
    p.run.Meets (vetoMonitor tenantId draftId ledgerId) (fun _ q' => q' = q) q := by
  apply h.meets
  · intro op hop
    cases op <;> trivial
  · intro op r hop
    cases op <;> first | rfl | cases hop

theorem bind_aside_veto {p : DeliveryM α} {f : α → DeliveryM β}
    {post : TwinResult β → DraftHold → Prop} (h : p.run.CallsOnly DeliveryOp.Aside)
    (hok : ∀ a, (f a).run.Meets (vetoMonitor tenantId draftId ledgerId) post q)
    (herror : ∀ e, post (.error e) q) :
    (p >>= f).run.Meets (vetoMonitor tenantId draftId ledgerId) post q := by
  refine bind_meets (veto_aside h) ?_ ?_
  · rintro a _ rfl
    exact hok a
  · rintro e _ rfl
    exact herror e

/-- The draft in hand of a call. -/
structure InHand (tenantId draftId ledgerId : String) (d : DraftDelivery) (q : DraftHold) : Prop
    where
  files : Files tenantId draftId ledgerId d
  holds : q = .holds d.draftId

theorem InHand.congr {d' : DraftDelivery} (h : InHand tenantId draftId ledgerId d q)
    (hkey : d'.key = d.key) (hledger : d'.ledgerKey = d.ledgerKey) :
    InHand tenantId draftId ledgerId d' q := by
  obtain ⟨htenant, hid⟩ := Prod.mk.inj hkey
  have hledgerId : d'.ledgerId = d.ledgerId := (Prod.mk.inj hledger).2
  refine ⟨⟨htenant.trans h.files.1, fun heq => ?_⟩, hid ▸ h.holds⟩
  exact hledgerId.trans (h.files.2 (hid ▸ heq))

theorem updateDraft_veto {post : TwinResult Unit → DraftHold → Prop}
    (h : InHand tenantId draftId ledgerId d q) (hok : post (.ok ()) (q.next (.updateDraft d) (.ok ())))
    (herror : ∀ e, post (.error e) q) :
    (ask (.updateDraft d)).run.Meets (vetoMonitor tenantId draftId ledgerId) post q := by
  refine ask_meets ⟨h.files, h.holds⟩ fun r _ => ?_
  cases r with
  | ok u => exact hok
  | error e => exact herror e

/-- The last write of a publish leaves the draft in hand. -/
theorem finishDraft_veto {s : DraftStatus} (hs : s ≠ .vetoed) (h : InHand tenantId draftId ledgerId d q) :
    (finishDraft d s).run.Meets (vetoMonitor tenantId draftId ledgerId) (fun _ q' => q' = q) q := by
  unfold finishDraft
  refine ask_bind_meets trivial (fun now _ => ?_) fun _ _ => rfl
  refine ask_bind_meets ⟨h.files, h.holds⟩ (fun _ _ => ?_) fun _ _ => rfl
  exact if_neg hs

theorem bind_finish_veto {s : DraftStatus} {f : DraftDelivery → DeliveryM β} (hs : s ≠ .vetoed)
    (h : InHand tenantId draftId ledgerId d q)
    (hf : ∀ d', (f d').run.Meets (vetoMonitor tenantId draftId ledgerId) (fun _ _ => True) q) :
    (finishDraft d s >>= f).run.Meets (vetoMonitor tenantId draftId ledgerId) (fun _ _ => True)
      q := by
  refine bind_meets (finishDraft_veto hs h) ?_ fun _ _ _ => trivial
  rintro d' _ rfl
  exact hf d'

/-- A fresh publish id leaves the draft in hand. -/
theorem newUuid_next (h : q ≠ .none) (r : DeliveryOp.Res .newUuid) : q.next .newUuid r = q := by
  rcases r with e | uuid
  · rfl
  · exact if_neg h

theorem InHand.ne_none (h : InHand tenantId draftId ledgerId d q) : q ≠ .none := by
  rw [h.holds]
  nofun

theorem publishFailed_veto {channel body : String} {e : TwinError}
    (h : InHand tenantId draftId ledgerId d q) :
    (publishFailed svc twin d channel body e).run.Meets (vetoMonitor tenantId draftId ledgerId)
      (fun _ _ => True) q := by
  unfold publishFailed
  dsimp only
  split_ifs
  · refine attempt_bind_meets (veto_aside (resolveChatUserId_aside _ _)) ?_
    rintro chatUser q rfl
    refine attempt_bind_meets (R := fun _ q' => q' = q) (ask_meets trivial fun _ _ => rfl) ?_
    rintro r q rfl
    cases r with
    | ok dm =>
      refine ask_bind_meets trivial (fun uuid _ => ?_) fun _ _ => trivial
      change Prog.Meets _ _ _ (q.next .newUuid (.ok uuid))
      rw [newUuid_next h.ne_none]
      refine ask_bind_meets trivial (fun now _ => ?_) fun _ _ => trivial
      refine ask_bind_meets trivial (fun inserted _ => ?_) fun _ _ => trivial
      exact bind_finish_veto nofun h fun _ => trivial
    | error e2 => exact bind_finish_veto nofun h fun _ => trivial
  · exact bind_finish_veto nofun h fun _ => trivial

theorem publishQueued_veto (h : InHand tenantId draftId ledgerId d q) :
    (publishQueued svc twin d).run.Meets (vetoMonitor tenantId draftId ledgerId)
      (fun _ _ => True) q := by
  unfold publishQueued
  refine ask_bind_meets trivial (fun found _ => ?_) fun _ _ => trivial
  cases found with
  | some existing =>
    refine ask_bind_meets trivial (fun now _ => ?_) fun _ _ => trivial
    refine attempt_bind_meets (R := fun _ _ => True) ?_ fun _ _ _ => trivial
    exact updateDraft_veto ⟨h.files, h.holds⟩ trivial fun _ => trivial
  | none =>
    refine attempt_bind_meets (R := fun _ q' => q' = q)
      (ask_meets ⟨_, h.holds⟩ fun _ _ => rfl) ?_
    rintro r q rfl
    cases r with
    | error e => exact publishFailed_veto h
    | ok post =>
      refine ask_bind_meets trivial (fun uuid _ => ?_) fun _ _ => trivial
      change Prog.Meets _ _ _ (q.next .newUuid (.ok uuid))
      rw [newUuid_next h.ne_none]
      refine ask_bind_meets trivial (fun now _ => ?_) fun _ _ => trivial
      refine ask_bind_meets trivial (fun inserted _ => ?_) fun _ _ => trivial
      cases inserted with
      | true => exact bind_finish_veto nofun h fun _ => trivial
      | false =>
        refine ask_bind_meets trivial (fun existing _ => ?_) fun _ _ => trivial
        cases existing <;> exact bind_finish_veto nofun h fun _ => trivial

/-- A vetoed draft is not published; any other must be in hand. -/
theorem tryPublishChannel_veto (h : d.status ≠ .vetoed → InHand tenantId draftId ledgerId d q) :
    (tryPublishChannel svc twin d).run.Meets (vetoMonitor tenantId draftId ledgerId)
      (fun _ _ => True) q := by
  unfold tryPublishChannel
  split_ifs with hvetoed
  · trivial
  · trivial
  · exact ask_bind_meets trivial (fun found _ => by cases found <;> trivial) fun _ _ => trivial
  · trivial
  · exact publishQueued_veto (h hvetoed)

/-- What a load leaves in hand. -/
theorem loadDraft_bind_veto {f : DraftDelivery × LedgerSnapshot → DeliveryM β}
    {post : TwinResult β → DraftHold → Prop} (herror : ∀ e q, post (.error e) q)
    (hf : ∀ y q, y.1.draftId = draftId →
      (y.1.status ≠ .vetoed → InHand tenantId draftId ledgerId y.1 q) → (f y).run.Meets (vetoMonitor tenantId draftId ledgerId) post q) :
    (loadDraft tenantId draftId >>= f).run.Meets (vetoMonitor tenantId draftId ledgerId) post
      .none := by
  unfold loadDraft
  refine bind_meets (R := fun r q => ∀ y, r = .ok y → y.1.draftId = draftId ∧
    (y.1.status ≠ .vetoed → InHand tenantId draftId ledgerId y.1 q)) ?_
    (fun y q hq => hf y q (hq y rfl).1 (hq y rfl).2) fun e q _ => herror e q
  refine ask_bind_meets ⟨rfl, rfl⟩ (fun found hfound => ?_) fun _ _ _ h => by cases h
  cases found with
  | none => exact fun _ h => by cases h
  | some draft =>
    refine ask_bind_meets trivial (fun snap _ => ?_) fun _ _ _ h => by cases h
    cases snap with
    | none => exact fun _ h => by cases h
    | some snap =>
      rintro y ⟨⟩
      exact ⟨(Prod.mk.inj hfound.1).2, fun hstatus => ⟨hfound.2 rfl, if_neg hstatus⟩⟩

/-- A veto that succeeds has written. -/
theorem vetoDraft_veto :
    (vetoDraft tenantId draftId).run.Meets (vetoMonitor tenantId draftId ledgerId)
      (fun r q => ∀ y, r = .ok y → q = .vetoed draftId) .none := by
  refine loadDraft_bind_veto (fun _ _ _ h => by cases h) fun ⟨draft, snap⟩ q hid hq => ?_
  dsimp only
  split
  · exact fun _ h => by cases h
  · next next hnext =>
    obtain ⟨hkey, hholds⟩ := hq (ne_vetoed_of_apply hnext)
    refine ask_bind_meets trivial (fun now _ => ?_) fun _ _ _ h => by cases h
    refine ask_bind_meets ⟨hkey, hholds⟩ (fun _ _ => ?_) fun _ _ _ h => by cases h
    exact fun _ _ => (if_pos (apply_veto hnext)).trans (congrArg _ hid)

theorem editDraft_veto {text : String} :
    (editDraft tenantId draftId text).run.Meets (vetoMonitor tenantId draftId ledgerId)
      (fun _ _ => True) .none := by
  refine loadDraft_bind_veto (fun _ _ => trivial) fun ⟨draft, snap⟩ q hid hq => ?_
  dsimp only
  split
  · trivial
  · next next hnext =>
    obtain ⟨hkey, hholds⟩ := hq (ne_vetoed_of_apply hnext)
    refine ask_bind_meets trivial (fun now _ => ?_) fun _ _ => trivial
    exact ask_bind_meets ⟨hkey, hholds⟩ (fun _ _ => trivial) fun _ _ => trivial

/-- A transition of the draft in hand, and what the rest finds. -/
theorem bind_update_veto {d' : DraftDelivery} {f : Unit → DeliveryM β}
    (h : InHand tenantId draftId ledgerId d q) (hkey : d'.key = d.key)
    (hledger : d'.ledgerKey = d.ledgerKey)
    (hf : ∀ q, (d'.status ≠ .vetoed → InHand tenantId draftId ledgerId d' q) →
      (f ()).run.Meets (vetoMonitor tenantId draftId ledgerId) (fun _ _ => True) q) :
    (ask (.updateDraft d') >>= f).run.Meets (vetoMonitor tenantId draftId ledgerId)
      (fun _ _ => True) q := by
  have hd' : InHand tenantId draftId ledgerId d' q := h.congr hkey hledger
  refine ask_bind_meets ⟨hd'.files, hd'.holds⟩ (fun _ _ => hf _ fun hstatus => ?_)
    fun _ _ => trivial
  exact ⟨hd'.files, (if_neg hstatus).trans hd'.holds⟩

theorem silenceTimeout_veto :
    (silenceTimeout svc twin tenantId draftId).run.Meets (vetoMonitor tenantId draftId ledgerId)
      (fun _ _ => True) .none := by
  refine loadDraft_bind_veto (fun _ _ => trivial) fun ⟨draft, snap⟩ q hid hq => ?_
  dsimp only
  split
  · trivial
  · split
    · trivial
    · next next hnext =>
      have hdraft : draft.status ≠ .vetoed := ne_vetoed_of_apply hnext
      refine ask_bind_meets trivial (fun now _ => ?_) fun _ _ => trivial
      refine bind_update_veto (hq hdraft) rfl rfl fun q' hq' => ?_
      split_ifs
      · exact tryPublishChannel_veto hq'
      · trivial

theorem explicitPublish_veto :
    (explicitPublish svc twin tenantId draftId).run.Meets (vetoMonitor tenantId draftId ledgerId)
      (fun _ _ => True) .none := by
  refine loadDraft_bind_veto (fun _ _ => trivial) fun ⟨draft, snap⟩ q hid hq => ?_
  dsimp only
  split_ifs with hpublished hvetoed hqueued
  · exact ask_bind_meets trivial (fun found _ => by cases found <;> trivial) fun _ _ => trivial
  · trivial
  · split
    · trivial
    · refine ask_bind_meets trivial (fun now _ => ?_) fun _ _ => trivial
      exact bind_update_veto (hq hvetoed) rfl rfl fun q' hq' => tryPublishChannel_veto hq'
  · exact tryPublishChannel_veto hq

/-- Sending changes nothing of what is in hand. -/
theorem sendDraft_veto :
    (sendDraft svc x d).run.Meets (vetoMonitor tenantId draftId ledgerId)
      (fun r q' => q' = q ∧ ∀ y, r = .ok y → y.1.key = d.key ∧ y.1.ledgerKey = d.ledgerKey) q := by
  unfold sendDraft
  refine bind_aside_veto (resolveChatUserId_aside _ _) (fun chatUser => ?_)
    fun _ => ⟨rfl, fun _ h => by cases h⟩
  refine attempt_bind_meets (R := fun _ q' => q' = q) (ask_meets trivial fun _ _ => rfl) ?_
  rintro r q rfl
  cases r with
  | error e => exact ⟨rfl, by rintro y ⟨⟩; exact ⟨rfl, rfl⟩⟩
  | ok dm =>
    refine bind_aside_veto (rememberNotify_aside _ _) (fun _ => ?_)
      fun _ => ⟨rfl, fun _ h => by cases h⟩
    exact ⟨rfl, by rintro y ⟨⟩; exact ⟨rfl, rfl⟩⟩

theorem upgradeNotify_veto :
    (upgradeNotify svc x d).run.Meets (vetoMonitor tenantId draftId ledgerId)
      (fun r q' => q' = q ∧ ∀ y, r = .ok y → y.1.key = d.key ∧ y.1.ledgerKey = d.ledgerKey) q := by
  unfold upgradeNotify
  split_ifs
  · exact sendDraft_veto
  · refine bind_aside_veto (rememberUnchanged_aside _ _) (fun _ => ?_)
      fun _ => ⟨rfl, fun _ h => by cases h⟩
    exact ⟨rfl, by rintro y ⟨⟩; exact ⟨rfl, rfl⟩⟩

theorem upgradeDraft_veto (h : InHand tenantId draftId ledgerId d q) :
    (upgradeDraft svc x d).run.Meets (vetoMonitor tenantId draftId ledgerId) (fun _ _ => True)
      q := by
  have hup : InHand tenantId draftId ledgerId (upgraded svc x d) q := h.congr rfl rfl
  unfold upgradeDraft
  refine bind_meets upgradeNotify_veto ?_ fun _ _ _ => trivial
  rintro ⟨existing, dmSent⟩ q ⟨rfl, hsame⟩
  obtain ⟨hkey, hledger⟩ := hsame _ rfl
  have hin : InHand tenantId draftId ledgerId { existing with updatedAt := x.now } q :=
    hup.congr hkey hledger
  exact ask_bind_meets ⟨hin.files, hin.holds⟩ (fun _ _ => trivial) fun _ _ => trivial

theorem openish_ne_vetoed {s : DraftStatus} (h : s.openish = true) : s ≠ .vetoed := by
  rintro rfl
  cases h

/-- An open draft is brought up to date, any other stays as it is. -/
theorem restartDraft_veto (h : d.status ≠ .vetoed → InHand tenantId draftId ledgerId d q) :
    (restartDraft svc x d).run.Meets (vetoMonitor tenantId draftId ledgerId) (fun _ _ => True)
      q := by
  have hopen : d.status.openish = true → InHand tenantId draftId ledgerId (refreshed x d) q := by
    intro ho
    refine (h (openish_ne_vetoed ho)).congr ?_ ?_ <;> simp only [refreshed, ho] <;> rfl
  unfold restartDraft
  split_ifs with hup ho
  · refine upgradeDraft_veto (hopen ?_)
    simp only [upgradable, Bool.and_eq_true] at hup
    exact hup.2
  · have hin := hopen ho
    exact ask_bind_meets ⟨hin.files, hin.holds⟩ (fun _ _ => trivial) fun _ _ => trivial
  · trivial

/-- A draft that its call has not put yet. -/
structure Made (tenantId ledgerId : String) (d : DraftDelivery) (q : DraftHold) : Prop where
  ledgerKey : d.ledgerKey = (tenantId, ledgerId)
  made : q = .made d.draftId

theorem Made.congr {d' : DraftDelivery} (h : Made tenantId ledgerId d q) (hkey : d'.key = d.key)
    (hledger : d'.ledgerKey = d.ledgerKey) : Made tenantId ledgerId d' q := by
  have hid : d'.draftId = d.draftId := (Prod.mk.inj hkey).2
  exact ⟨hledger ▸ h.ledgerKey, hid ▸ h.made⟩

theorem Made.files (h : Made tenantId ledgerId d q) : Files tenantId draftId ledgerId d :=
  ⟨(Prod.mk.inj h.ledgerKey).1, fun _ => (Prod.mk.inj h.ledgerKey).2⟩

/-- A put draft is in hand. -/
theorem bind_put_veto {f : Unit → DeliveryM β} (h : Made tenantId ledgerId d q)
    (hf : ∀ q, InHand tenantId draftId ledgerId d q →
      (f ()).run.Meets (vetoMonitor tenantId draftId ledgerId) (fun _ _ => True) q) :
    (ask (.putDraft d) >>= f).run.Meets (vetoMonitor tenantId draftId ledgerId)
      (fun _ _ => True) q :=
  ask_bind_meets ⟨h.ledgerKey, h.made⟩ (fun _ _ => hf _ ⟨h.files, rfl⟩) fun _ _ => trivial

theorem autoPublish_veto (h : Made tenantId ledgerId d q) :
    (autoPublish svc x d).run.Meets (vetoMonitor tenantId draftId ledgerId) (fun _ _ => True)
      q := by
  unfold autoPublish
  refine attempt_bind_meets (R := fun _ q' => q' = q) ?_ ?_
  · refine bind_aside_veto (resolveChatUserId_aside _ _) (fun chatUser => ?_) fun _ => rfl
    exact ask_meets trivial fun _ _ => rfl
  · rintro r q rfl
    have hrest : ∀ d', Made tenantId ledgerId d' q →
        (publishStored svc x d').run.Meets (vetoMonitor tenantId draftId ledgerId) (fun _ _ => True) q := by
      intro d' hmade
      refine bind_put_veto hmade fun q' hq' => ?_
      refine bind_meets (tryPublishChannel_veto fun _ => hq') (fun y q _ => ?_) fun _ _ _ => trivial
      exact bind_aside_veto (rememberNotify_aside _ _) (fun _ => trivial) fun _ => trivial
    cases r with
    | error e => exact hrest d h
    | ok dm => exact hrest _ (h.congr rfl rfl)

theorem createNotify_veto :
    (createNotify svc x d).run.Meets (vetoMonitor tenantId draftId ledgerId)
      (fun r q' => q' = q ∧ ∀ y, r = .ok y → y.1.key = d.key ∧ y.1.ledgerKey = d.ledgerKey) q := by
  unfold createNotify
  split_ifs
  · exact sendDraft_veto
  · exact ⟨rfl, by rintro y ⟨⟩; exact ⟨rfl, rfl⟩⟩

theorem createDraft_veto (htenant : x.twin.tenantId = tenantId)
    (hledger : x.snap.ledgerId = ledgerId) :
    (createDraft svc x).run.Meets (vetoMonitor tenantId draftId ledgerId) (fun _ _ => True)
      .none := by
  have hmade : ∀ uuid s, Made tenantId ledgerId (newDraft svc x uuid s) (.made (draftIdOf uuid)) := by
    intro uuid s
    refine ⟨?_, rfl⟩
    simp [newDraft, DraftDelivery.ledgerKey, htenant, hledger]
  refine ask_bind_meets trivial (fun uuid _ => ?_) fun _ _ => trivial
  dsimp only
  split_ifs
  · refine bind_put_veto (hmade uuid _) fun q' _ => ?_
    exact bind_aside_veto (rememberUnchanged_aside _ _) (fun _ => trivial) fun _ => trivial
  · exact autoPublish_veto (hmade uuid _)
  · refine bind_meets createNotify_veto ?_ fun _ _ _ => trivial
    rintro ⟨draft, dmSent⟩ _ ⟨rfl, hsame⟩
    obtain ⟨hkey, hledgerKey⟩ := hsame _ rfl
    exact bind_put_veto ((hmade uuid _).congr hkey hledgerKey) fun _ _ => trivial

theorem startAfterCompileOpts_veto (htenant : x.twin.tenantId = tenantId)
    (hledger : x.snap.ledgerId = ledgerId) :
    (startAfterCompileOpts svc x).run.Meets (vetoMonitor tenantId draftId ledgerId)
      (fun _ _ => True) .none := by
  unfold startAfterCompileOpts
  refine ask_bind_meets ⟨htenant, hledger⟩ (fun found hfound => ?_) fun _ _ => trivial
  cases found with
  | some existing => exact restartDraft_veto fun h => ⟨hfound htenant, if_neg h⟩
  | none => exact createDraft_veto htenant hledger

end Programs

/-! ## The pool -/

/-- Calls that undo a veto: a post, a put of the draft, and an update of it to another status. -/
def Undoes (tenantId draftId : String) : DeliveryOp → Prop
  | .postChannel _ _ => True
  | .putDraft draft => draft.key = (tenantId, draftId)
  | .updateDraft draft => draft.key = (tenantId, draftId) ∧ draft.status ≠ .vetoed
  | _ => False

/-- The draft, once it is there, is filed under its ledger, and its id is not given out again. -/
def Filed (tenantId draftId ledgerId : String) (s : DeliveryState) : Prop :=
  ∀ d, s.store.drafts.get (tenantId, draftId) = some d →
    d.ledgerId = ledgerId ∧ s.store.draftByLedger.get (tenantId, ledgerId) = some draftId ∧
      ∀ uuid, draftIdOf uuid = draftId → uuid ∈ s.issued

section Pool
variable {ι : Type} [DecidableEq ι]

def holdOf (pool : DeliveryPool ι) (i : ι) : DraftHold := watch DraftHold.next .none i pool.trace

/-- The call made the draft, or read it in a status other than vetoed. -/
def Grips (draftId : String) (pool : DeliveryPool ι) (i : ι) : Prop :=
  holdOf pool i = .holds draftId ∨ holdOf pool i = .made draftId

instance (draftId : String) (pool : DeliveryPool ι) (i : ι) : Decidable (Grips draftId pool i) :=
  inferInstanceAs (Decidable (_ ∨ _))

/-- What the call has left to do undoes no veto. -/
def Harmless (tenantId draftId : String) (pool : DeliveryPool ι) (i : ι) : Prop :=
  (pool.threads i).CallsOnly fun op => ¬ Undoes tenantId draftId op

/-- A veto is written while another call has the draft in hand that can still undo it. -/
def RacesVeto (tenantId draftId : String) (pool : DeliveryPool ι) (x : ι × Choice) : Prop :=
  (∃ draft, pool.event answer x = some ⟨x.1, .updateDraft draft, .ok ()⟩ ∧
      draft.key = (tenantId, draftId) ∧ draft.status = .vetoed) ∧
    ∃ j, j ≠ x.1 ∧ Grips draftId pool j ∧ ¬ Harmless tenantId draftId pool j

/-- The veto stands. -/
structure Stands (tenantId draftId : String) (pool : DeliveryPool ι) : Prop where
  status : ∃ d, pool.shared.store.drafts.get (tenantId, draftId) = some d ∧ d.status = .vetoed
  harmless : ∀ i, Grips draftId pool i → Harmless tenantId draftId pool i

/-- What holds between the steps. -/
structure VetoInv (tenantId draftId ledgerId : String) (pool : DeliveryPool ι) : Prop where
  filed : Filed tenantId draftId ledgerId pool.shared
  held : ∀ i id, holdOf pool i = .holds id →
    pool.shared.store.draftByLedger.get (tenantId, ledgerId) = some id
  made : ∀ i uuid, holdOf pool i = .made (draftIdOf uuid) → uuid ∈ pool.shared.issued
  stands : ∀ i, holdOf pool i = .vetoed draftId → Stands tenantId draftId pool

variable {tenantId draftId ledgerId : String} {pool : DeliveryPool ι} {c : Choice}
  {op : DeliveryOp} {r : op.Res} {s : DeliveryState} {i : ι}

theorem Filed.files (h : Filed tenantId draftId ledgerId s) {d : DraftDelivery}
    (hd : s.store.drafts.get d.key = some d) (htenant : d.tenantId = tenantId) :
    Files tenantId draftId ledgerId d := by
  refine ⟨htenant, fun hid => (h d ?_).1⟩
  rw [← htenant, ← hid]
  exact hd

theorem veto_replies (hI : VetoInv tenantId draftId ledgerId pool)
    (hs : answer c op pool.shared = some (r, s)) :
    (vetoMonitor tenantId draftId ledgerId).replies op r := by
  cases op with
  | getDraft t d =>
    rcases r with e | (_ | draft)
    · trivial
    · trivial
    · have hget := reading_ok hs
      have hkey : draft.key = (t, d) := Table.key_of_get hget
      refine ⟨hkey, fun ht => hI.filed.files ?_ ((Prod.mk.inj hkey).1.trans ht)⟩
      rw [hkey]
      exact hget
  | getDraftByLedger t l =>
    rcases r with e | (_ | draft)
    · trivial
    · trivial
    · obtain ⟨id, -, hget⟩ := InMemoryTwinStore.getDraftByLedger_some (reading_ok hs)
      have hkey : draft.key = (t, id) := Table.key_of_get hget
      refine fun ht => hI.filed.files ?_ ((Prod.mk.inj hkey).1.trans ht)
      rw [hkey]
      exact hget
  | _ => trivial

/-! ### What a step puts into a call's hands -/

section Step
variable {s₀ : DeliveryState} {q : DraftHold}

/-- The call reads a stored draft, under its id or under its ledger. -/
def Reads (s : DeliveryState) (draft : DraftDelivery) (op : DeliveryOp) : Prop :=
  s.store.drafts.get draft.key = some draft ∧
    (op = .getDraft draft.tenantId draft.draftId ∨
      ∃ l, op = .getDraftByLedger draft.tenantId l ∧
        s.store.draftByLedger.get (draft.tenantId, l) = some draft.draftId)

theorem reads_of_getDraft {t d : String} {draft : DraftDelivery}
    (h : s₀.store.drafts.get (t, d) = some draft) : Reads s₀ draft (.getDraft t d) := by
  have hkey : draft.key = (t, d) := Table.key_of_get h
  obtain ⟨rfl, rfl⟩ := Prod.mk.inj hkey
  exact ⟨h, .inl rfl⟩

theorem reads_of_getDraftByLedger {t l : String} {draft : DraftDelivery}
    (h : s₀.store.getDraftByLedger t l = some draft) :
    Reads s₀ draft (.getDraftByLedger t l) := by
  obtain ⟨id, hindex, hget⟩ := InMemoryTwinStore.getDraftByLedger_some h
  have hkey : draft.key = (t, id) := Table.key_of_get hget
  obtain ⟨rfl, rfl⟩ := Prod.mk.inj hkey
  exact ⟨hget, .inr ⟨l, rfl, hindex⟩⟩

theorem reads_cases (q : DraftHold) (draft : DraftDelivery) :
    q.reads draft = q ∨ (draft.status ≠ .vetoed ∧ q.reads draft = .holds draft.draftId) := by
  unfold DraftHold.reads
  split_ifs with h
  · exact .inl rfl
  · exact .inr ⟨h, rfl⟩

/-- Everything that can come into a call's hands. -/
theorem next_cases (q : DraftHold) (hs : answer c op s₀ = some (r, s)) :
    q.next op r = q ∨
    (∃ draft, Reads s₀ draft op ∧ draft.status ≠ .vetoed ∧ q.next op r = .holds draft.draftId) ∨
    (∃ uuid, uuid ∉ s₀.issued ∧ uuid ∈ s.issued ∧ q.next op r = .made (draftIdOf uuid)) ∨
    (∃ draft, op = .putDraft draft ∧ q.next op r = .holds draft.draftId ∧
      s.store.draftByLedger = s₀.store.draftByLedger.put draft.ledgerKey draft.draftId) ∨
    ∃ draft, op = .updateDraft draft ∧ draft.status = .vetoed ∧
      answer c (.updateDraft draft) s₀ = some (.ok (), s) ∧
      q.next op r = .vetoed draft.draftId := by
  cases op with
  | newUuid =>
    obtain ⟨hfresh, rfl, rfl⟩ := newUuid_eq hs
    -- the first id that a call draws is that of the draft it may make
    change (if q = .none then DraftHold.made (draftIdOf c.uuid) else q) = _ ∨ _
    by_cases hq : q = .none
    · exact .inr (.inr (.inl ⟨c.uuid, hfresh, List.mem_cons_self, if_pos hq⟩))
    · exact .inl (if_neg hq)
  | getDraft t d =>
    rcases r with e | (_ | draft)
    · exact .inl rfl
    · exact .inl rfl
    · rcases reads_cases q draft with hsame | hheld
      · exact .inl hsame
      · exact .inr (.inl ⟨draft, reads_of_getDraft (reading_ok hs), hheld⟩)
  | getDraftByLedger t l =>
    rcases r with e | (_ | draft)
    · exact .inl rfl
    · exact .inl rfl
    · rcases reads_cases q draft with hsame | hheld
      · exact .inl hsame
      · exact .inr (.inl ⟨draft, reads_of_getDraftByLedger (reading_ok hs), hheld⟩)
  | putDraft draft =>
    obtain ⟨⟨e, rfl⟩, -⟩ | ⟨rfl, -, -, hindex, -⟩ := answer_putDraft hs
    · exact .inl rfl
    · exact .inr (.inr (.inr (.inl ⟨draft, rfl, rfl, hindex⟩)))
  | updateDraft draft =>
    rcases r with e | u
    · exact .inl rfl
    · by_cases hstatus : draft.status = .vetoed
      · exact .inr (.inr (.inr (.inr ⟨draft, rfl, hstatus, hs, if_pos hstatus⟩)))
      · exact .inl (if_neg hstatus)
  | _ => exact .inl rfl

end Step

/-! ### What a step keeps -/

section Keep
variable {k : op.Res → Prog DeliveryOp DeliveryOp.Res (TwinResult Unit)}

theorem draftIdOf_inj {u v : String} (h : draftIdOf u = draftIdOf v) : u = v :=
  String.append_right_inj _ |>.mp h

theorem holdOf_after_ne {j : ι} (hj : j ≠ i) : holdOf (pool.after i op r k s) j = holdOf pool j := by
  unfold holdOf
  rw [Pool.after_trace, watch_cons_ne _ _ (Ne.symm hj)]

theorem holdOf_after_self : holdOf (pool.after i op r k s) i = (holdOf pool i).next op r := by
  unfold holdOf
  rw [Pool.after_trace, watch_cons_self]

theorem filed_after (hI : VetoInv tenantId draftId ledgerId pool)
    (hs : answer c op pool.shared = some (r, s))
    (hallow : (vetoMonitor tenantId draftId ledgerId).allows (holdOf pool i) op) :
    Filed tenantId draftId ledgerId s := by
  have hold : ∀ d, pool.shared.store.drafts.get (tenantId, draftId) = some d →
      d.ledgerId = ledgerId ∧ s.store.draftByLedger.get (tenantId, ledgerId) = some draftId ∧
        ∀ uuid, draftIdOf uuid = draftId → uuid ∈ s.issued := by
    intro d hd
    obtain ⟨hledger, hindex, hissued⟩ := hI.filed d hd
    exact ⟨hledger, answer_draftByLedger hs hindex, fun u hu => answer_issued hs (hissued u hu)⟩
  intro d hd
  by_cases hw : op.Writes (tenantId, draftId)
  · cases op with
    | putDraft draft =>
      obtain ⟨-, rfl⟩ | ⟨-, -, hdrafts, hindex, hissued⟩ := answer_putDraft hs
      · exact hold d hd
      · obtain ⟨hledger, hmade⟩ := hallow
        obtain ⟨-, hid⟩ := Prod.mk.inj (show draft.key = (tenantId, draftId) from hw)
        rw [hdrafts, ← hw, Table.get_put_self] at hd
        cases hd
        refine ⟨(Prod.mk.inj hledger).2, ?_, fun u hu => ?_⟩
        · rw [hindex, ← hledger, KMap.get_put_self]
          exact congrArg some hid
        · rw [hissued]
          apply hI.made i
          rw [hmade, hu]
          exact congrArg _ hid
    | updateDraft draft =>
      obtain ⟨-, rfl⟩ | ⟨-, hhas, hdrafts, -⟩ := answer_updateDraft hs
      · exact hold d hd
      · obtain ⟨⟨-, hledger⟩, -⟩ := hallow
        obtain ⟨-, hid⟩ := Prod.mk.inj (show draft.key = (tenantId, draftId) from hw)
        obtain ⟨d₀, hd₀⟩ := Table.has_iff.mp hhas
        rw [hdrafts, ← hw, Table.get_put_self] at hd
        cases hd
        exact ⟨hledger hid, (hold d₀ (hw ▸ hd₀)).2⟩
    | _ => cases hw
  · rw [answer_draft_of_not_writes hs hw] at hd
    exact hold d hd

theorem held_after (hI : VetoInv tenantId draftId ledgerId pool)
    (hs : answer c op pool.shared = some (r, s))
    (hallow : (vetoMonitor tenantId draftId ledgerId).allows (holdOf pool i) op) (j : ι)
    (id : String) (hj : holdOf (pool.after i op r k s) j = .holds id) :
    s.store.draftByLedger.get (tenantId, ledgerId) = some id := by
  by_cases h : j = i
  · subst h
    rw [holdOf_after_self] at hj
    rcases next_cases (holdOf pool j) hs with hq | ⟨d, ⟨hget, hop⟩, -, hq⟩ | ⟨u, -, -, hq⟩ |
      ⟨d, rfl, hq, hindex⟩ | ⟨d, -, -, -, hq⟩ <;> rw [hq] at hj
    · exact answer_draftByLedger hs (hI.held j id hj)
    · cases hj
      apply answer_draftByLedger hs
      rcases hop with rfl | ⟨l, rfl, hindex⟩
      · obtain ⟨ht, hid⟩ := hallow
        have hget' : pool.shared.store.drafts.get (tenantId, draftId) = some d := by
          rw [← ht, ← hid]
          exact hget
        rw [(hI.filed d hget').2.1, hid]
      · obtain ⟨ht, hl⟩ := hallow
        rw [← ht, ← hl]
        exact hindex
    · cases hj
    · cases hj
      rw [hindex, ← hallow.1, KMap.get_put_self]
    · cases hj
  · rw [holdOf_after_ne h] at hj
    exact answer_draftByLedger hs (hI.held j id hj)

theorem made_after (hI : VetoInv tenantId draftId ledgerId pool)
    (hs : answer c op pool.shared = some (r, s)) (j : ι) (uuid : String)
    (hj : holdOf (pool.after i op r k s) j = .made (draftIdOf uuid)) : uuid ∈ s.issued := by
  by_cases h : j = i
  · subst h
    rw [holdOf_after_self] at hj
    rcases next_cases (holdOf pool j) hs with hq | ⟨d, -, -, hq⟩ | ⟨u, -, hu, hq⟩ |
      ⟨d, -, hq, -⟩ | ⟨d, -, -, -, hq⟩ <;> rw [hq] at hj
    · exact answer_issued hs (hI.made j uuid hj)
    · cases hj
    · rwa [← draftIdOf_inj (DraftHold.made.inj hj)]
    · cases hj
    · cases hj
  · rw [holdOf_after_ne h] at hj
    exact answer_issued hs (hI.made j uuid hj)

/-- A call that has something in hand has the vetoed draft in hand. -/
theorem held_eq (hI : VetoInv tenantId draftId ledgerId pool) (hst : Stands tenantId draftId pool)
    {id : String} (h : holdOf pool i = .holds id) : id = draftId := by
  obtain ⟨d, hd, -⟩ := hst.status
  have hindex := (hI.filed d hd).2.1
  rw [hI.held i id h] at hindex
  exact Option.some.inj hindex

/-- While a veto stands, no call undoes it. -/
theorem not_undoes (hI : VetoInv tenantId draftId ledgerId pool)
    (hst : Stands tenantId draftId pool) (hk : pool.threads i = .call op k)
    (hallow : (vetoMonitor tenantId draftId ledgerId).allows (holdOf pool i) op) :
    ¬ Undoes tenantId draftId op := by
  have hgrip : Grips draftId pool i → ¬ Undoes tenantId draftId op := by
    intro h
    have hharmless := hst.harmless i h
    unfold Harmless at hharmless
    rw [hk] at hharmless
    exact hharmless.1
  cases op with
  | postChannel ch text =>
    obtain ⟨id, hid⟩ := hallow
    exact hgrip (.inl (held_eq hI hst hid ▸ hid))
  | putDraft draft =>
    by_cases hkey : draft.key = (tenantId, draftId)
    · have hid : draft.draftId = draftId := (Prod.mk.inj hkey).2
      exact hgrip (.inr (hid ▸ hallow.2))
    · exact hkey
  | updateDraft draft => exact hgrip (.inl (held_eq hI hst hallow.2 ▸ hallow.2))
  | _ => exact not_false

/-- A step while a veto stands. -/
theorem stands_after (hI : VetoInv tenantId draftId ledgerId pool)
    (hst : Stands tenantId draftId pool) (hk : pool.threads i = .call op k)
    (hs : answer c op pool.shared = some (r, s))
    (hallow : (vetoMonitor tenantId draftId ledgerId).allows (holdOf pool i) op) :
    Stands tenantId draftId (pool.after i op r k s) := by
  have hundoes := not_undoes hI hst hk hallow
  obtain ⟨d, hd, hstatus⟩ := hst.status
  refine ⟨?_, fun j hj => ?_⟩
  · by_cases hw : op.Writes (tenantId, draftId)
    · cases op with
      | putDraft draft => exact absurd hw hundoes
      | updateDraft draft =>
        have hvetoed : draft.status = .vetoed := by
          by_contra hne
          exact hundoes ⟨hw, hne⟩
        obtain ⟨-, rfl⟩ | ⟨-, -, hdrafts, -⟩ := answer_updateDraft hs
        · exact ⟨d, hd, hstatus⟩
        · refine ⟨draft, ?_, hvetoed⟩
          rw [Pool.after_shared, hdrafts, ← hw, Table.get_put_self]
      | _ => cases hw
    · refine ⟨d, ?_, hstatus⟩
      rw [Pool.after_shared, answer_draft_of_not_writes hs hw]
      exact hd
  · by_cases h : j = i
    · subst h
      -- what the call has in hand of the draft it had before
      have hgrip : Grips draftId pool j := by
        unfold Grips at hj ⊢
        rw [holdOf_after_self] at hj
        rcases next_cases (holdOf pool j) hs with hq | ⟨d', ⟨hget, hop⟩, hne, hq⟩ |
          ⟨u, hfresh, -, hq⟩ | ⟨d', rfl, hq, -⟩ | ⟨d', -, -, -, hq⟩ <;> rw [hq] at hj
        · exact hj
        · -- a read finds it vetoed
          have hid : d'.draftId = draftId := by
            rcases hj with hj | hj <;> cases hj
            rfl
          have htenant : d'.tenantId = tenantId := by
            rcases hop with rfl | ⟨l, rfl, -⟩ <;> exact hallow.1
          rw [show d'.key = (tenantId, draftId) by rw [← hid, ← htenant]; rfl, hd] at hget
          cases hget
          exact absurd hstatus hne
        · -- its id is not given out again
          have hid : draftIdOf u = draftId := by
            rcases hj with hj | hj <;> cases hj
            rfl
          exact absurd ((hI.filed d hd).2.2 u hid) hfresh
        · have hid : d'.draftId = draftId := by
            rcases hj with hj | hj <;> cases hj
            rfl
          exact .inr (hid ▸ hallow.2)
        · rcases hj with hj | hj <;> cases hj
      have hharmless := hst.harmless j hgrip
      unfold Harmless at hharmless ⊢
      rw [hk] at hharmless
      rw [Pool.after_threads_self]
      exact hharmless.2 r
    · unfold Harmless
      rw [Pool.after_threads_ne _ _ _ _ _ _ h]
      apply hst.harmless j
      unfold Grips at hj ⊢
      rwa [holdOf_after_ne h] at hj

/-- The step that writes the veto. -/
theorem stands_of_veto {draft : DraftDelivery}
    {k : DeliveryOp.Res (.updateDraft draft) → Prog DeliveryOp DeliveryOp.Res (TwinResult Unit)}
    (hk : pool.threads i = .call (.updateDraft draft) k)
    (hs : answer c (.updateDraft draft) pool.shared = some (.ok (), s))
    (hkey : draft.key = (tenantId, draftId)) (hstatus : draft.status = .vetoed)
    (hC : ¬ RacesVeto tenantId draftId pool (i, c)) :
    Stands tenantId draftId (pool.after i (.updateDraft draft) (.ok ()) k s) := by
  refine ⟨⟨draft, ?_, hstatus⟩, fun j hj => ?_⟩
  · obtain ⟨⟨e, he⟩, -⟩ | ⟨-, -, hdrafts, -⟩ := answer_updateDraft hs
    · cases he
    · rw [Pool.after_shared, hdrafts, ← hkey, Table.get_put_self]
  · by_cases h : j = i
    · subst h
      unfold Grips at hj
      rw [holdOf_after_self] at hj
      have hq : (holdOf pool j).next (.updateDraft draft) (.ok ()) = .vetoed draft.draftId :=
        if_pos hstatus
      rw [hq] at hj
      rcases hj with hj | hj <;> cases hj
    · have hgrip : Grips draftId pool j := by
        unfold Grips at hj ⊢
        rwa [holdOf_after_ne h] at hj
      unfold Harmless
      rw [Pool.after_threads_ne _ _ _ _ _ _ h]
      by_contra hharm
      exact hC ⟨⟨draft, Pool.event_eq hk hs, hkey, hstatus⟩, j, h, hgrip, hharm⟩

theorem veto_step (hI : VetoInv tenantId draftId ledgerId pool) (hk : pool.threads i = .call op k)
    (hs : answer c op pool.shared = some (r, s))
    (hallow : (vetoMonitor tenantId draftId ledgerId).allows (holdOf pool i) op)
    (hC : ¬ RacesVeto tenantId draftId pool (i, c)) :
    VetoInv tenantId draftId ledgerId (pool.after i op r k s) where
  filed := filed_after hI hs hallow
  held := held_after hI hs hallow
  made := made_after hI hs
  stands j hj := by
    by_cases h : j = i
    · subst h
      rw [holdOf_after_self] at hj
      rcases next_cases (holdOf pool j) hs with hq | ⟨d, -, -, hq⟩ | ⟨u, -, -, hq⟩ |
        ⟨d, -, hq, -⟩ | ⟨d, rfl, hstatus, hok, hq⟩ <;> rw [hq] at hj
      · exact stands_after hI (hI.stands j hj) hk hs hallow
      · cases hj
      · cases hj
      · cases hj
      · obtain ⟨rfl, -⟩ := Prod.mk.inj (Option.some.inj (hs.symm.trans hok))
        have hkey : d.key = (tenantId, draftId) :=
          Prod.ext hallow.1.1 (DraftHold.vetoed.inj hj)
        exact stands_of_veto hk hs hkey hstatus hC
    · rw [holdOf_after_ne h] at hj
      exact stands_after hI (hI.stands j hj) hk hs hallow

end Keep

/-! ### Runs -/

section Run
variable {svc : DeliveryService} {calls : ι → DeliveryCall} {state : DeliveryState}

theorem bind_drop_veto {α : Type} {p : DeliveryM α} {P : Prop}
    (h : p.run.Meets (vetoMonitor tenantId draftId ledgerId)
      (fun r q => P → ∀ y, r = .ok y → q = .vetoed draftId) .none) :
    (p >>= fun _ => (pure () : DeliveryM Unit)).run.Meets (vetoMonitor tenantId draftId ledgerId)
      (fun r q => P → r = .ok () → q = .vetoed draftId) .none :=
  bind_meets h (fun a _ hq hP _ => hq hP a rfl) fun _ _ _ _ h => by cases h

/-- Every call on the draft follows the monitor, and a veto that succeeds has written. -/
theorem program_veto {call : DeliveryCall} (hcall : call.OnDraft tenantId draftId ledgerId) :
    (call.program svc).run.Meets (vetoMonitor tenantId draftId ledgerId)
      (fun r q => call = .vetoDraft tenantId draftId → r = .ok () → q = .vetoed draftId) .none := by
  cases call with
  | explicitPublish twin t d =>
    obtain ⟨rfl, rfl⟩ := hcall
    exact bind_drop_veto (explicitPublish_veto.mono fun _ _ _ => nofun)
  | silenceTimeout twin t d =>
    obtain ⟨rfl, rfl⟩ := hcall
    exact bind_drop_veto (silenceTimeout_veto.mono fun _ _ _ => nofun)
  | vetoDraft t d =>
    obtain ⟨rfl, rfl⟩ := hcall
    exact bind_drop_veto (vetoDraft_veto.mono fun _ _ h _ => h)
  | editDraft t d text =>
    obtain ⟨rfl, rfl⟩ := hcall
    exact bind_drop_veto (editDraft_veto.mono fun _ _ _ => nofun)
  | startAfterCompileOpts x =>
    exact bind_drop_veto ((startAfterCompileOpts_veto hcall.1 hcall.2).mono fun _ _ _ => nofun)

theorem start_tracks_veto (hcalls : ∀ i, (calls i).OnDraft tenantId draftId ledgerId) :
    (DeliveryPool.start svc calls state).Tracks (vetoMonitor tenantId draftId ledgerId)
      (fun i r q => calls i = .vetoDraft tenantId draftId → r = .ok () → q = .vetoed draftId)
      fun _ => .none :=
  fun i => program_veto (hcalls i)

theorem start_vetoInv (hfiled : Filed tenantId draftId ledgerId state) :
    VetoInv tenantId draftId ledgerId (DeliveryPool.start svc calls state) where
  filed := hfiled
  held _ _ h := by cases h
  made _ _ h := by cases h
  stands _ h := by cases h

theorem channelPosts_after {k : op.Res → Prog DeliveryOp DeliveryOp.Res (TwinResult Unit)}
    (hpost : ∀ ch text, op ≠ .postChannel ch text) :
    channelPosts (pool.after i op r k s).trace = channelPosts pool.trace := by
  rw [Pool.after_trace]
  unfold channelPosts
  rw [List.countP_cons_of_neg]
  cases op with
  | postChannel ch text => exact absurd rfl (hpost ch text)
  | _ => simp

/-- **A veto is final.** Once a veto has returned, the draft stays vetoed and nothing is posted, in
every run in which no veto is written while another call can still undo it. -/
theorem veto_is_final (svc : DeliveryService) {tenantId draftId ledgerId : String}
    {calls : ι → DeliveryCall} {state : DeliveryState}
    (hfiled : Filed tenantId draftId ledgerId state)
    (hcalls : ∀ i, (calls i).OnDraft tenantId draftId ledgerId) {v : ι}
    (hv : calls v = .vetoDraft tenantId draftId) {before later : List (ι × Choice)}
    (hveto : ((DeliveryPool.start svc calls state).run answer before).threads v = .pure (.ok ()))
    (hrun : EachStep (Pool.step answer) (fun pool x => ¬ RacesVeto tenantId draftId pool x)
      (DeliveryPool.start svc calls state) (before ++ later)) :
    let vetoed := (DeliveryPool.start svc calls state).run answer before
    let final := (DeliveryPool.start svc calls state).run answer (before ++ later)
    (∃ d, final.shared.store.getDraft tenantId draftId = some d ∧ d.status = .vetoed) ∧
      channelPosts final.trace = channelPosts vetoed.trace := by
  intro vetoed final
  obtain ⟨hbefore, hlater⟩ := eachStep_append.mp hrun
  have hfinal : final = vetoed.run answer later := Pool.run_append _ _ _ _
  obtain ⟨htracks, hinv⟩ := Pool.run_induction (P := fun _ => True)
    (fun _ _ _ _ _ hI _ hs => veto_replies hI hs)
    (fun _ _ _ _ _ _ _ _ hI _ hC hk hs _ hallow _ => veto_step hI hk hs hallow hC)
    (start_tracks_veto hcalls) (start_vetoInv hfiled) before (fun _ _ => trivial) hbefore
  -- from here on the veto stands
  obtain ⟨htracks', hinv', hposts⟩ := Pool.run_induction (P := fun _ => True)
    (I := fun pool => (VetoInv tenantId draftId ledgerId pool ∧ pool.threads v = .pure (.ok ())) ∧
      channelPosts pool.trace = channelPosts vetoed.trace)
    (fun _ _ _ _ _ hI _ hs => veto_replies hI.1.1 hs)
    (fun pool i c op k r s htr hI _ hC hk hs _ hallow _ => by
      obtain ⟨⟨hinv, hret⟩, hposts⟩ := hI
      have hst := hinv.stands v (htr.post_of_returned hret hv rfl)
      have hundoes := not_undoes hinv hst hk hallow
      refine ⟨⟨veto_step hinv hk hs hallow hC, ?_⟩, ?_⟩
      · rw [← Pool.step_eq_after hk hs]
        exact Pool.step_of_returned hret _
      · rw [channelPosts_after, hposts]
        rintro ch text rfl
        exact hundoes trivial)
    htracks ⟨⟨hinv, hveto⟩, rfl⟩ later (fun _ _ => trivial) hlater
  rw [hfinal]
  have hst := hinv'.1.stands v (htracks'.post_of_returned hinv'.2 hv rfl)
  exact ⟨hst.status, hposts⟩

end Run

/-! ### A veto and a publish of one draft -/

def vetoAndPublish : Bool → DeliveryCall
  | true => .vetoDraft "t" "d"
  | false => .explicitPublish teamTwin "t" "d"

theorem vetoAndPublish_onDraft (b : Bool) : (vetoAndPublish b).OnDraft "t" "d" "L" := by
  cases b <;> exact ⟨rfl, rfl⟩

theorem draftState_filed : Filed "t" "d" "L" draftState := by
  intro d hd
  cases hd
  refine ⟨rfl, rfl, fun uuid h => ?_⟩
  have hlen := congrArg String.length h
  simp only [draftIdOf, String.length_append] at hlen
  change 4 + uuid.length = 1 at hlen
  omega

/-- The publisher reads the draft before the veto is written. -/
theorem veto_undone :
    let start := DeliveryPool.start mockService vetoAndPublish draftState
    let vetoed := start.run answer
      (List.replicate 3 (false, smooth "a") ++ List.replicate 4 (true, smooth "a"))
    let final := vetoed.run answer (List.replicate 8 (false, smooth "a"))
    (∀ b, (vetoAndPublish b).OnDraft "t" "d" "L") ∧ Filed "t" "d" "L" draftState ∧
    vetoed.threads true = .pure (.ok ()) ∧
    (vetoed.shared.store.getDraft "t" "d").map (·.status) = some .vetoed ∧
    (final.shared.store.getDraft "t" "d").map (·.status) = some .published ∧
    channelPosts final.trace = channelPosts vetoed.trace + 1 := by
  refine ⟨vetoAndPublish_onDraft, draftState_filed, rfl, ?_, ?_, ?_⟩ <;> decide

/-- Nobody else has the draft in hand at any step. -/
theorem vetoFirst_alone :
    EachStep (Pool.step answer) (fun pool x => ∀ j, j ≠ x.1 → ¬ Grips "d" pool j)
      (DeliveryPool.start mockService vetoAndPublish draftState)
      (List.replicate 4 (true, smooth "a") ++ List.replicate 4 (false, smooth "a")) := by
  decide

theorem veto_is_final_vetoFirst :
    let start := DeliveryPool.start mockService vetoAndPublish draftState
    let vetoed := start.run answer (List.replicate 4 (true, smooth "a"))
    let final := start.run answer
      (List.replicate 4 (true, smooth "a") ++ List.replicate 4 (false, smooth "a"))
    (∃ d, final.shared.store.getDraft "t" "d" = some d ∧ d.status = .vetoed) ∧
      channelPosts final.trace = channelPosts vetoed.trace :=
  veto_is_final mockService draftState_filed vetoAndPublish_onDraft (v := true) rfl rfl
    (vetoFirst_alone.mono fun _ _ h => fun ⟨_, j, hj, hgrips, _⟩ => h j hj hgrips)

end Pool

end AiManager.Twins
