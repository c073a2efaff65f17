import AiManager.Twins.DraftRows

/-! # Where a decision leaves a draft

A veto or an explicit publish while the store does not fail and chat answers in a given way: the status in
which the call leaves the draft is a function of what was there before and of the answers (`vetoDraft_decides`,
`explicitPublish_decides`), and the draft becomes the latest. -/

namespace AiManager.Twins

open Lib

/-- How chat answers. -/
structure ChatAnswers where
  dm : TwinResult DeliveryPostResult
  channel : TwinResult DeliveryPostResult

/-- The store does not fail, chat answers as told, and the clock reads a time in `T`. -/
structure Steady (w : ChatAnswers) (T : DateTime → Prop) (c : Choice) : Prop where
  fault : c.fault = none
  dm : c.dm = w.dm
  channel : c.channel = w.channel
  now : T c.now

/-- Only drafts and publishes are written. -/
def OnlyDrafts (s s' : DeliveryState) : Prop :=
  s'.store = { s.store with
    drafts := s'.store.drafts
    publishByLedger := s'.store.publishByLedger
    publishes := s'.store.publishes }

structure SamePublishes (s s' : DeliveryState) : Prop where
  index : s'.store.publishByLedger = s.store.publishByLedger
  records : s'.store.publishes = s.store.publishes

/-- The row of the draft is `draft`; all else but publishes is as it was in `s₀`. -/
structure Works (s₀ : DeliveryState) (draft : DraftDelivery) (s : DeliveryState) : Prop extends
    Holds s₀ draft s where
  only : OnlyDrafts s₀ s

/-- The row of `draft` has come to the status `st` at a time in `T`. -/
def Decides (s₀ : DeliveryState) (draft : DraftDelivery) (T : DateTime → Prop) (st : DraftStatus)
    (s : DeliveryState) : Prop :=
  ∃ d, d.key = draft.key ∧ d.twinId = draft.twinId ∧ d.ledgerId = draft.ledgerId ∧ d.status = st ∧
    T d.updatedAt ∧ Works s₀ d s ∧ (st ≠ .published → SamePublishes s₀ s)

theorem OnlyDrafts.trans {s₁ s₂ s₃ : DeliveryState} (h : OnlyDrafts s₁ s₂) (h' : OnlyDrafts s₂ s₃) :
    OnlyDrafts s₁ s₃ := by
  unfold OnlyDrafts at *
  rw [h', h]

theorem SamePublishes.refl (s : DeliveryState) : SamePublishes s s := ⟨rfl, rfl⟩

theorem SamePublishes.trans {s₁ s₂ s₃ : DeliveryState} (h : SamePublishes s₁ s₂) (h' : SamePublishes s₂ s₃) :
    SamePublishes s₁ s₃ :=
  ⟨h'.index.trans h.index, h'.records.trans h.records⟩

theorem SamePublishes.getPublishByLedger {s s' : DeliveryState} (h : SamePublishes s s') (t l : String) :
    s'.store.getPublishByLedger t l = s.store.getPublishByLedger t l := by
  unfold InMemoryTwinStore.getPublishByLedger
  rw [h.index, h.records]

section Calls
variable {c : Choice} {op : DeliveryOp} {r : op.Res} {s s' : DeliveryState}

/-- The calls of a decision write neither twins nor new drafts. -/
def DeliveryOp.Deciding : DeliveryOp → Prop
  | .putDraft _ | .upsertTwin _ => False
  | _ => True

theorem answer_onlyDrafts (h : answer c op s = some (r, s')) (hop : op.Deciding) : OnlyDrafts s s' := by
  unfold OnlyDrafts
  rcases answer_store h with heq | ⟨d, rfl, -⟩ | ⟨d, -, heq⟩ | ⟨rec, -, heq⟩ | ⟨t, rfl, -⟩
  · rw [heq]
  · cases hop
  · rw [heq]
    unfold InMemoryTwinStore.updateDraft
    split_ifs <;> rfl
  · rw [heq]
    unfold InMemoryTwinStore.putPublishIfAbsent
    split_ifs <;> rfl
  · cases hop

theorem answer_samePublishes (h : answer c op s = some (r, s'))
    (hop : ∀ rec, op ≠ .putPublishIfAbsent rec) : SamePublishes s s' :=
  ⟨(answer_publishes h hop).1, (answer_publishes h hop).2⟩

/-- Reads and fresh values. -/
def DeliveryOp.Asks : DeliveryOp → Prop
  | .utcNow | .newUuid | .getPublishByLedger _ _ | .getSlackMap _ _ => True
  | _ => False

theorem answer_asks (h : answer c op s = some (r, s')) (hop : op.Asks) (hfault : c.fault = none) :
    (∃ a, r = .ok a) ∧ s'.store = s.store := by
  cases op with
  | utcNow => cases h; exact ⟨⟨_, rfl⟩, rfl⟩
  | newUuid =>
    obtain ⟨-, rfl, rfl⟩ := newUuid_eq h
    exact ⟨⟨_, rfl⟩, rfl⟩
  | getPublishByLedger _ _ | getSlackMap _ _ =>
    obtain ⟨rfl, hr⟩ := reading_eq h
    exact ⟨⟨_, hr hfault⟩, rfl⟩
  | _ => cases hop

end Calls

section Rules
variable {w : ChatAnswers} {T : DateTime → Prop} {s₀ s s' : DeliveryState} {draft draft' : DraftDelivery}
  {α β : Type} {post : TwinResult β → DeliveryState → Prop}

theorem Works.of_store (h : Works s₀ draft s) (hs : s'.store = s.store) : Works s₀ draft s' := by
  refine ⟨⟨?_, ?_⟩, ?_⟩
  · rw [hs]
    exact h.others
  · rw [hs]
    exact h.row
  · unfold OnlyDrafts
    rw [hs]
    exact h.only

theorem Works.of_publish {c : Choice} {rec : PublishRecord} {r : TwinResult Bool} (h : Works s₀ draft s)
    (hs : answer c (.putPublishIfAbsent rec) s = some (r, s')) : Works s₀ draft s' :=
  ⟨h.of_sameRows (answer_sameRows hs rfl), h.only.trans (answer_onlyDrafts hs trivial)⟩

theorem SamePublishes.of_store (h : SamePublishes s₀ s) (hs : s'.store = s.store) : SamePublishes s₀ s' :=
  ⟨by rw [hs, h.index], by rw [hs, h.records]⟩

/-- A read, or a fresh value, when the rest is fine in every state with this store. -/
theorem asks_bind {op : DeliveryOp} {f : op.Val → DeliveryM β} (hop : op.Asks)
    (h : ∀ a s', s'.store = s.store → (f a).run.Ensures answer (Steady w T) post s') :
    (ask op >>= f).run.Ensures answer (Steady w T) post s := by
  refine ask_bind_ensures (fun c a s' hc hs => h a s' (answer_asks hs hop hc.fault).2) fun c e s' hc hs => ?_
  obtain ⟨⟨a, ha⟩, -⟩ := answer_asks hs hop hc.fault
  cases ha

/-- A read, answered by what is stored. -/
theorem reads_bind {op : DeliveryOp} {v : op.Val} {f : op.Val → DeliveryM β}
    (hop : ∀ c, answer c op s = s.reading c v) (h : (f v).run.Ensures answer (Steady w T) post s) :
    (ask op >>= f).run.Ensures answer (Steady w T) post s := by
  refine ask_bind_ensures (fun c a s' _ hs => ?_) fun c e s' hc hs => ?_
  · rw [hop] at hs
    obtain rfl := reading_ok hs
    obtain ⟨rfl, -⟩ := reading_eq hs
    exact h
  · rw [hop] at hs
    cases (reading_eq hs).2 hc.fault

theorem now_bind {f : DateTime → DeliveryM β}
    (h : ∀ now, T now → (f now).run.Ensures answer (Steady w T) post s) :
    (ask .utcNow >>= f).run.Ensures answer (Steady w T) post s := by
  refine ask_bind_ensures (fun c now s' hc hs => ?_) fun c e s' _ hs => by cases hs
  cases hs
  exact h c.now hc.now

/-- A post is answered as told, and leaves the store. -/
theorem postChannel_bind {channel body : String} {f : TwinResult DeliveryPostResult → DeliveryM β}
    (h : ∀ s', s'.store = s.store → (f w.channel).run.Ensures answer (Steady w T) post s') :
    (attempt (ask (.postChannel channel body)) >>= f).run.Ensures answer (Steady w T) post s := by
  refine attempt_bind_ensures (R := fun r s' => r = w.channel ∧ s'.store = s.store)
    (ask_ensures fun c r s' hc hs => ?_) ?_
  · obtain ⟨hr, hstore, -⟩ := posting_eq hs
    exact ⟨hr.trans hc.channel, hstore⟩
  · rintro r s' ⟨rfl, hs⟩
    exact h s' hs

theorem postDm_bind {user body : String} {f : TwinResult DeliveryPostResult → DeliveryM β}
    (h : ∀ s', s'.store = s.store → (f w.dm).run.Ensures answer (Steady w T) post s') :
    (attempt (ask (.postDm user body)) >>= f).run.Ensures answer (Steady w T) post s := by
  refine attempt_bind_ensures (R := fun r s' => r = w.dm ∧ s'.store = s.store)
    (ask_ensures fun c r s' hc hs => ?_) ?_
  · obtain ⟨hr, hstore, -⟩ := posting_eq hs
    exact ⟨hr.trans hc.dm, hstore⟩
  · rintro r s' ⟨rfl, hs⟩
    exact h s' hs

/-- A record is put; the answer tells whether it is new. -/
theorem publish_bind {rec : PublishRecord} {f : Bool → DeliveryM β} (h : Works s₀ draft s)
    (hok : ∀ inserted s', Works s₀ draft s' → (f inserted).run.Ensures answer (Steady w T) post s') :
    (ask (.putPublishIfAbsent rec) >>= f).run.Ensures answer (Steady w T) post s := by
  refine ask_bind_ensures (fun c a s' _ hs => hok a s' (h.of_publish hs)) fun c e s' hc hs => ?_
  obtain ⟨-, hne, -⟩ | ⟨hr, -⟩ := writing_eq (f := fun st => st.putPublishIfAbsent rec) hs
  · exact absurd hc.fault hne
  · unfold InMemoryTwinStore.putPublishIfAbsent at hr
    split_ifs at hr

/-- An update of the row at work. -/
theorem work_bind {f : Unit → DeliveryM β} (h : Works s₀ draft s) (hkey : draft'.key = draft.key)
    (hok : ∀ s', Works s₀ draft' s' → SamePublishes s s' → (f ()).run.Ensures answer (Steady w T) post s') :
    (ask (.updateDraft draft') >>= f).run.Ensures answer (Steady w T) post s := by
  have hhas : s.store.drafts.has draft'.key = true := Table.has_iff.mpr ⟨draft, by rw [hkey, h.row]⟩
  refine ask_bind_ensures (fun c _ s' _ hs => ?_) fun c e s' hc hs => ?_
  · obtain ⟨-, hholds⟩ | ⟨⟨e, he⟩, -⟩ := answer_updateDraft_holds h.toHolds hkey hs
    · refine hok s' ⟨hholds, h.only.trans (answer_onlyDrafts hs trivial)⟩ (answer_samePublishes hs ?_)
      intro rec hrec
      cases hrec
    · cases he
  · cases (answer_updateDraft_of_has hs hc.fault hhas).1

end Rules

/-! ## Publishing -/

/-- The error of a post for which a direct message is tried instead. -/
def channelTrouble (channel : String) (e : TwinError) : Bool :=
  Text.contains e.text "not_in_channel" || Text.contains e.text "channel_not_found"
    || Text.contains e.text "is_archived" || decide (channel = "C_TEAM") || decide (channel = "")

def publishChannel (twin : Twin) : String := if twin.channelId = "" then "C_TEAM" else twin.channelId

/-- Where a draft ends that is posted. -/
def publishEnd (w : ChatAnswers) (twin : Twin) : DraftStatus :=
  match w.channel with
  | .ok _ => .published
  | .error e =>
    if channelTrouble (publishChannel twin) e then
      match w.dm with
      | .ok _ => .published
      | .error _ => .publishFailed
    else .publishFailed

section Publish
variable {w : ChatAnswers} {T : DateTime → Prop} {s₀ s : DeliveryState} {draft : DraftDelivery}
  {svc : DeliveryService} {twin : Twin} {β : Type}

theorem finish_decides {st : DraftStatus} {f : DraftDelivery → DeliveryM β}
    {post : TwinResult β → DeliveryState → Prop} (h : Works s₀ draft s)
    (hpub : st ≠ .published → SamePublishes s₀ s)
    (hf : ∀ d s', Decides s₀ draft T st s' → (f d).run.Ensures answer (Steady w T) post s') :
    (finishDraft draft st >>= f).run.Ensures answer (Steady w T) post s := by
  unfold finishDraft
  rw [bind_assoc]
  refine now_bind fun now hnow => ?_
  rw [bind_assoc]
  refine work_bind h rfl fun s' h' hsame => hf _ s' ?_
  exact ⟨{ draft with status := st, updatedAt := now }, rfl, rfl, rfl, rfl, hnow, h',
    fun hst => (hpub hst).trans hsame⟩

theorem publishFailed_decides {body : String} {e : TwinError} (h : Works s₀ draft s)
    (hpub : SamePublishes s₀ s) (hw : w.channel = .error e) :
    (publishFailed svc twin draft (publishChannel twin) body e).run.Ensures answer (Steady w T)
      (fun _ s' => Decides s₀ draft T (publishEnd w twin) s') s := by
  have hend : publishEnd w twin = if channelTrouble (publishChannel twin) e then
      match w.dm with | .ok _ => .published | .error _ => .publishFailed else .publishFailed := by
    unfold publishEnd
    rw [hw]
  rw [hend]
  show (if channelTrouble (publishChannel twin) e then _ else _ : DeliveryM _).run.Ensures _ _ _ _
  split_ifs
  · refine attempt_bind_ensures (R := fun _ s' => s'.store = s.store) ?_ fun user s₁ h₁ => ?_
    · refine (resolveChatUserId_calls (K := DeliveryOp.Asks) (fun _ _ => trivial) twin svc.adapterKind).ensures
        (I := fun s' : DeliveryState => s'.store = s.store) ?_ rfl
      intro c op r s₁ s₂ hc hop hs hI
      exact (answer_asks hs hop hc.fault).2.trans hI
    · refine postDm_bind fun s₂ h₂ => ?_
      have hstore := h₂.trans h₁
      have h₂ := h.of_store hstore
      cases w.dm with
      | error e₂ => exact finish_decides h₂ (fun _ => hpub.of_store hstore) fun d s₃ h₃ => h₃
      | ok dm =>
        dsimp only
        refine asks_bind trivial fun uuid s₃ h₃ => ?_
        refine now_bind fun now _ => ?_
        refine publish_bind (h₂.of_store h₃) fun inserted s₄ h₄ => ?_
        exact finish_decides h₄ (fun hne => absurd rfl hne) fun d s₅ h₅ => h₅
  · exact finish_decides h (fun _ => hpub) fun d s₁ h₁ => h₁

/-- A queued draft ends as chat answers, unless its ledger is published already. -/
theorem publishQueued_decides (h : Works s₀ draft s) (hpub : SamePublishes s₀ s) :
    (publishQueued svc twin draft).run.Ensures answer (Steady w T) (fun _ s' => Decides s₀ draft T
      (if (s₀.store.getPublishByLedger draft.tenantId draft.ledgerId).isSome then .published
        else publishEnd w twin) s') s := by
  unfold publishQueued
  refine reads_bind (v := s.store.getPublishByLedger draft.tenantId draft.ledgerId) (fun _ => rfl) ?_
  rw [hpub.getPublishByLedger]
  cases s₀.store.getPublishByLedger draft.tenantId draft.ledgerId with
  | some existing =>
    dsimp only
    refine now_bind fun now hnow => ?_
    refine attempt_bind_ensures (R := fun _ s' => Decides s₀ draft T .published s') ?_ fun _ _ h₁ => h₁
    refine ask_ensures fun c r s₁ hc hs => ?_
    obtain rfl := (answer_updateDraft_of_has hs hc.fault (Table.has_iff.mpr ⟨draft, h.row⟩)).1
    obtain ⟨-, hholds⟩ | ⟨⟨e, he⟩, -⟩ := answer_updateDraft_holds h.toHolds (by rfl) hs
    · exact ⟨{ draft with status := .published, updatedAt := now }, rfl, rfl, rfl, rfl, hnow,
        ⟨hholds, h.only.trans (answer_onlyDrafts hs trivial)⟩, fun hne => absurd rfl hne⟩
    · cases he
  | none =>
    rw [Option.isSome_none, if_neg Bool.false_ne_true]
    dsimp only
    refine postChannel_bind fun s₁ h₁ => ?_
    cases hw : w.channel with
    | error e => exact publishFailed_decides (h.of_store h₁) (hpub.of_store h₁) hw
    | ok p =>
      have hend : publishEnd w twin = .published := by
        unfold publishEnd
        rw [hw]
      rw [hend]
      dsimp only
      refine asks_bind trivial fun uuid s₂ h₂ => ?_
      refine now_bind fun now _ => ?_
      refine publish_bind (h.of_store (h₂.trans h₁)) fun inserted s₃ h₃ => ?_
      cases inserted with
      | true => exact finish_decides h₃ (fun hne => absurd rfl hne) fun d s₄ h₄ => h₄
      | false =>
        refine asks_bind trivial fun existing s₄ h₄ => ?_
        exact finish_decides (h₃.of_store h₄) (fun hne => absurd rfl hne) fun d s₅ h₅ => h₅

end Publish

/-! ## Decisions -/

section Decide
variable {w : ChatAnswers} {T : DateTime → Prop} {s : DeliveryState} {svc : DeliveryService} {twin : Twin}
  {tenantId draftId : String}

theorem works_of_get {draft : DraftDelivery} (h : s.store.getDraft tenantId draftId = some draft) :
    Works s draft s :=
  ⟨holds_of_get h, rfl⟩

/-- A decision loads a draft and its ledger; where one is missing it does nothing. -/
theorem load_decides {β : Type} {f : DraftDelivery × LedgerSnapshot → DeliveryM β}
    {post : TwinResult β → DeliveryState → Prop}
    (hok : ∀ draft snap, s.store.getDraft tenantId draftId = some draft →
      s.store.getLedger tenantId draft.ledgerId = some snap →
      (f (draft, snap)).run.Ensures answer (Steady w T) post s)
    (hnone : (∀ draft snap, s.store.getDraft tenantId draftId = some draft →
      s.store.getLedger tenantId draft.ledgerId ≠ some snap) → ∀ e, post (.error e) s) :
    (loadDraft tenantId draftId >>= f).run.Ensures answer (Steady w T) post s := by
  unfold loadDraft
  rw [bind_assoc]
  refine reads_bind (v := s.store.getDraft tenantId draftId) (fun _ => rfl) ?_
  cases hdraft : s.store.getDraft tenantId draftId with
  | none => exact hnone (fun draft snap h => by rw [hdraft] at h; cases h) _
  | some draft =>
    dsimp only
    rw [bind_assoc]
    refine reads_bind (v := s.store.getLedger tenantId draft.ledgerId) (fun _ => rfl) ?_
    cases hsnap : s.store.getLedger tenantId draft.ledgerId with
    | none =>
      refine hnone (fun draft' snap h => ?_) _
      rw [hdraft] at h
      cases h
      rw [hsnap]
      nofun
    | some snap => exact hok draft snap hdraft hsnap

/-- Where a decision leaves the row of a draft: in the status that it leads to, or untouched. -/
def DecidesBy (next : DraftDelivery → LedgerSnapshot → Option DraftStatus) (tenantId draftId : String)
    (T : DateTime → Prop) (s s' : DeliveryState) : Prop :=
  (s'.store = s.store ∧ ∀ draft snap, s.store.getDraft tenantId draftId = some draft →
    s.store.getLedger tenantId draft.ledgerId = some snap → next draft snap = none) ∨
  ∃ draft snap st, s.store.getDraft tenantId draftId = some draft ∧
    s.store.getLedger tenantId draft.ledgerId = some snap ∧ next draft snap = some st ∧
    Decides s draft T st s'

theorem DecidesBy.none_of_load {next : DraftDelivery → LedgerSnapshot → Option DraftStatus}
    {draft : DraftDelivery} {snap : LedgerSnapshot} (hdraft : s.store.getDraft tenantId draftId = some draft)
    (hsnap : s.store.getLedger tenantId draft.ledgerId = some snap) (hnext : next draft snap = none)
    {s' : DeliveryState} (hs : s'.store = s.store) : DecidesBy next tenantId draftId T s s' := by
  refine .inl ⟨hs, fun draft' snap' hdraft' hsnap' => ?_⟩
  rw [hdraft] at hdraft'
  cases hdraft'
  rw [hsnap] at hsnap'
  cases hsnap'
  exact hnext

def vetoNext (draft : DraftDelivery) (snap : LedgerSnapshot) : Option DraftStatus :=
  applyDeliveryEvent draft.status .veto snap.confidenceRollup false

theorem vetoDraft_decides : (vetoDraft tenantId draftId).run.Ensures answer (Steady w T)
    (fun _ s' => DecidesBy vetoNext tenantId draftId T s s') s := by
  refine load_decides (fun draft snap hdraft hsnap => ?_) fun hnone _ =>
    .inl ⟨rfl, fun draft snap hdraft hsnap => absurd hsnap (hnone draft snap hdraft)⟩
  dsimp only
  cases happly : applyDeliveryEvent draft.status .veto snap.confidenceRollup false with
  | none => exact .none_of_load hdraft hsnap happly rfl
  | some st =>
    refine now_bind fun now hnow => ?_
    refine work_bind (works_of_get hdraft) rfl fun s' h hsame => ?_
    exact .inr ⟨draft, snap, st, hdraft, hsnap, happly, { draft with status := st, updatedAt := now }, rfl, rfl,
      rfl, rfl, hnow, h, fun _ => hsame⟩

/-- Where an explicit publish leads, if it goes on. -/
def publishNext (w : ChatAnswers) (twin : Twin) (s : DeliveryState) (draft : DraftDelivery)
    (snap : LedgerSnapshot) : Option DraftStatus :=
  if explicitGoesOn twin draft snap then
    if (s.store.getPublishByLedger draft.tenantId draft.ledgerId).isSome then some .published
    else some (publishEnd w twin)
  else none

theorem explicitPublish_decides : (explicitPublish svc twin tenantId draftId).run.Ensures answer (Steady w T)
    (fun _ s' => DecidesBy (publishNext w twin s) tenantId draftId T s s') s := by
  refine load_decides (fun draft snap hdraft hsnap => ?_) fun hnone _ =>
    .inl ⟨rfl, fun draft snap hdraft hsnap => absurd hsnap (hnone draft snap hdraft)⟩
  have hon : ∀ {s₁ : DeliveryState} {d : DraftDelivery}, explicitGoesOn twin draft snap = true →
      d.key = draft.key → d.twinId = draft.twinId → d.ledgerId = draft.ledgerId → d.status = .publishQueued →
      Works s d s₁ → SamePublishes s s₁ → (tryPublishChannel svc twin d).run.Ensures answer (Steady w T)
        (fun _ s' => DecidesBy (publishNext w twin s) tenantId draftId T s s') s₁ := by
    intro s₁ d hgoes hkey htwin hledger hqueued h₁ hpub
    rw [tryPublishChannel_queued svc twin hqueued]
    refine (publishQueued_decides h₁ hpub).mono fun _ s' hend => ?_
    obtain ⟨d', hkey', htwin', hledger', hstatus', htime, hworks, hsame⟩ := hend
    have htenant : d.tenantId = draft.tenantId := congrArg Prod.fst hkey
    refine .inr ⟨draft, snap, _, hdraft, hsnap, ?_, d', hkey'.trans hkey, htwin'.trans htwin,
      hledger'.trans hledger, hstatus', htime, hworks, hsame⟩
    unfold publishNext
    rw [if_pos hgoes, htenant, hledger]
    split_ifs <;> rfl
  dsimp only
  split_ifs with hpublished hvetoed hqueued
  · refine reads_bind (v := s.store.getPublishByLedger tenantId draft.ledgerId) (fun _ => rfl) ?_
    refine .none_of_load hdraft hsnap ?_ rfl
    simp [publishNext, explicitGoesOn, hpublished]
  · refine .none_of_load hdraft hsnap ?_ rfl
    simp [publishNext, explicitGoesOn, hvetoed]
  · cases happly : applyDeliveryEvent draft.status .explicitPublish snap.confidenceRollup
      twin.highAutoPublish with
    | none =>
      refine .none_of_load hdraft hsnap ?_ rfl
      simp [publishNext, explicitGoesOn, hqueued, happly]
    | some next =>
      obtain rfl := apply_explicitPublish happly
      refine now_bind fun now _ => ?_
      refine work_bind (works_of_get hdraft) rfl fun s₁ h₁ hpub => ?_
      exact hon (by simp [explicitGoesOn, happly]) rfl rfl rfl rfl h₁ hpub
  · have hstatus : draft.status = .publishQueued := not_not.mp hqueued
    exact hon (by simp [explicitGoesOn, hstatus]) rfl rfl rfl hstatus (works_of_get hdraft) (.refl s)

end Decide

end AiManager.Twins
