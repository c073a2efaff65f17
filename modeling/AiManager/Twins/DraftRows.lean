import AiManager.Twins.Consent
import AiManager.Twins.ExactlyOnce
import Mathlib.Data.Fintype.EquivFin

/-! # What a call leaves in the draft rows

A call of the service writes at most one draft. `Holds` says that the copy a call works on is the
stored row; the specifications of the calls say in which status they leave that row, whatever fails
on the way, and in which if nothing does. -/

namespace AiManager.Twins

open Lib

/-- Nothing can fail. -/
def Smooth (ok : Choice → Prop) : Prop := ∀ c, ok c → c.NoFailure

theorem Smooth.noFault {ok : Choice → Prop} (h : Smooth ok) : NoFault ok := fun c hc => (h c hc).1

/-- The rows of the drafts are the same, and filed the same way. -/
structure SameRows (s₀ s : DeliveryState) : Prop where
  drafts : s.store.drafts = s₀.store.drafts
  index : s.store.draftByLedger = s₀.store.draftByLedger

/-- The row of the draft is `draft`, and the others are as they were in `s₀`. -/
structure Holds (s₀ : DeliveryState) (draft : DraftDelivery) (s : DeliveryState) : Prop where
  others : ∀ k, k ≠ draft.key → s.store.drafts.get k = s₀.store.drafts.get k
  row : s.store.drafts.get draft.key = some draft

/-- The row of `k`, a draft of the ledger `l`, is in one of the statuses `P`; the others are as they
were. -/
def Ends (k l : String × String) (P : DraftStatus → Prop) (s₀ s : DeliveryState) : Prop :=
  ∃ d, d.key = k ∧ d.ledgerKey = l ∧ P d.status ∧ Holds s₀ d s

/-- There is always an identifier that was not handed out yet. -/
theorem exists_unissued (issued : List String) : ∃ uuid, uuid ∉ issued := by
  have hinj : Function.Injective fun n : ℕ => String.ofList (List.replicate n 'i') := by
    intro m n h
    have hlength := congrArg (fun s : String => s.toList.length) h
    simpa using hlength
  have : Infinite String := Infinite.of_injective _ hinj
  obtain ⟨uuid, huuid⟩ := Infinite.exists_notMem_finset issued.toFinset
  exact ⟨uuid, by simpa using huuid⟩

theorem answer_smooth (op : DeliveryOp) (s : DeliveryState) :
    ∃ c r s', c.NoFailure ∧ answer c op s = some (r, s') := by
  obtain ⟨uuid, huuid⟩ := exists_unissued s.issued
  have hsmooth := smooth_noFailure uuid
  cases op with
  | newUuid => exact ⟨smooth uuid, _, _, hsmooth, if_neg huuid⟩
  | _ => exact ⟨smooth uuid, _, _, hsmooth, rfl⟩

/-- A call can go through without a failure. -/
theorem exists_smooth_exec {α : Type} (p : DeliveryM α) (s : DeliveryState) :
    ∃ cs r s', (∀ n, (cs n).NoFailure) ∧ p.run.exec answer cs s = some (r, s') :=
  Prog.exists_exec ⟨smooth "", smooth_noFailure ""⟩ answer_smooth p.run s

section Rules
variable {s₀ s s' : DeliveryState} {ok : Choice → Prop} {α β : Type} {draft draft' : DraftDelivery}
  {k l : String × String} {P Q : DraftStatus → Prop}

theorem Holds.of_sameRows (h : Holds s₀ draft s) (hs : SameRows s s') : Holds s₀ draft s' :=
  ⟨fun k hk => by rw [hs.drafts, h.others k hk], by rw [hs.drafts, h.row]⟩

theorem holds_of_get {k : String × String} (h : s.store.drafts.get k = some draft) :
    Holds s draft s :=
  ⟨fun _ _ => rfl, by rw [Table.key_of_get h, h]⟩

theorem Holds.ends (h : Holds s₀ draft s) (hP : P draft.status) :
    Ends draft.key draft.ledgerKey P s₀ s :=
  ⟨draft, rfl, rfl, hP, h⟩

theorem Ends.mono (h : Ends k l P s₀ s) (himp : ∀ t, P t → Q t) : Ends k l Q s₀ s := by
  obtain ⟨d, hk, hl, hP, hd⟩ := h
  exact ⟨d, hk, hl, himp _ hP, hd⟩

theorem SameRows.refl (s : DeliveryState) : SameRows s s := ⟨rfl, rfl⟩

theorem SameRows.trans {s₁ s₂ s₃ : DeliveryState} (h : SameRows s₁ s₂) (h' : SameRows s₂ s₃) :
    SameRows s₁ s₃ :=
  ⟨h'.drafts.trans h.drafts, h'.index.trans h.index⟩

theorem Frame.sameRows (h : Frame s s') : SameRows s s' := ⟨h.drafts, h.draftByLedger⟩

/-! ## Calls -/

theorem answer_sameRows {c : Choice} {op : DeliveryOp} {r : op.Res}
    (hs : answer c op s = some (r, s')) (hop : op.writesDraft = false) : SameRows s s' := by
  rcases answer_store hs with heq | ⟨d, rfl, -⟩ | ⟨d, rfl, -⟩ | ⟨rec, -, heq⟩ | ⟨t, -, heq⟩
  · exact ⟨by rw [heq], by rw [heq]⟩
  · cases hop
  · cases hop
  · exact ⟨by rw [heq]; simp, by rw [heq]; simp⟩
  · exact ⟨by rw [heq]; rfl, by rw [heq]; rfl⟩

/-- Only writes of drafts can fail by themselves. -/
theorem answer_error {c : Choice} {op : DeliveryOp} {e : TwinError}
    (hs : answer c op s = some (.error e, s')) (hop : op.writesDraft = false) : ¬ c.NoFailure := by
  rintro ⟨hfault, ⟨p, hdm⟩, ⟨p', hchannel⟩⟩
  cases op with
  | utcNow => cases hs
  | newUuid => obtain ⟨-, hr, -⟩ := newUuid_eq hs; cases hr
  | getDraft _ _ | getDraftByLedger _ _ | getLedger _ _ | getPublishByLedger _ _
  | getSlackMap _ _ => cases (reading_eq hs).2 hfault
  | putDraft _ | updateDraft _ => cases hop
  | putPublishIfAbsent rec =>
    obtain ⟨-, hne, -⟩ | ⟨hr, -⟩ := writing_eq (f := fun st => st.putPublishIfAbsent rec) hs
    · exact hne hfault
    · unfold InMemoryTwinStore.putPublishIfAbsent at hr
      split_ifs at hr
  | upsertTwin twin =>
    obtain ⟨-, hne, -⟩ | ⟨hr, -⟩ := writing_eq (f := fun st => st.upsertTwin twin) hs
    · exact hne hfault
    · cases hr
  | postDm _ _ => cases hdm.symm.trans (posting_eq hs).1.symm
  | postDraftDm _ _ _ _ => cases hdm.symm.trans (posting_eq hs).1.symm
  | postChannel _ _ => cases hchannel.symm.trans (posting_eq hs).1.symm

/-- A call that writes no draft. -/
theorem still_bind_ensures {op : DeliveryOp} {f : op.Val → DeliveryM β}
    {post : TwinResult β → DeliveryState → Prop} (hop : op.writesDraft = false)
    (hok : ∀ a s', SameRows s s' → (f a).run.Ensures answer ok post s')
    (herror : ∀ e s', SameRows s s' → ¬ Smooth ok → post (.error e) s') :
    (ask op >>= f).run.Ensures answer ok post s := by
  refine ask_bind_ensures (fun _ a s' _ hs => hok a s' (answer_sameRows hs hop)) ?_
  intro c e s' hc hs
  exact herror e s' (answer_sameRows hs hop) fun hsmooth => answer_error hs hop (hsmooth c hc)

/-- A call that writes no draft, and whose error is looked at. -/
theorem still_attempt_ensures {op : DeliveryOp} {f : TwinResult op.Val → DeliveryM β}
    {post : TwinResult β → DeliveryState → Prop} (hop : op.writesDraft = false)
    (hok : ∀ a s', SameRows s s' → (f (.ok a)).run.Ensures answer ok post s')
    (herror : ∀ e s', SameRows s s' → ¬ Smooth ok → (f (.error e)).run.Ensures answer ok post s') :
    (attempt (ask op) >>= f).run.Ensures answer ok post s := by
  refine attempt_bind_ensures (R := fun r s' => SameRows s s' ∧ ((∃ e, r = .error e) → ¬ Smooth ok))
    (ask_ensures fun c r s' hc hs => ⟨answer_sameRows hs hop, ?_⟩) ?_
  · rintro ⟨e, rfl⟩ hsmooth
    exact answer_error hs hop (hsmooth c hc)
  · rintro (e | a) s' ⟨hsame, hfail⟩
    · exact herror e s' hsame (hfail ⟨e, rfl⟩)
    · exact hok a s' hsame

/-- An update of the row that the copy is from fails only by a fault. -/
theorem answer_updateDraft_holds {c : Choice} {r : TwinResult Unit} (h : Holds s₀ draft s)
    (hkey : draft'.key = draft.key) (hs : answer c (.updateDraft draft') s = some (r, s')) :
    (r = .ok () ∧ Holds s₀ draft' s') ∨ (∃ e, r = .error e) ∧ s' = s ∧ ¬ c.NoFailure := by
  have hhas : s.store.drafts.has draft'.key = true :=
    Table.has_iff.mpr ⟨draft, by rw [hkey, h.row]⟩
  obtain ⟨⟨e, rfl⟩, rfl⟩ | ⟨rfl, -, hdrafts, -, -⟩ := answer_updateDraft hs
  · refine .inr ⟨⟨e, rfl⟩, rfl, fun hno => ?_⟩
    cases (answer_updateDraft_of_has hs hno.1 hhas).1
  · refine .inl ⟨rfl, fun k hk => ?_, by rw [hdrafts, Table.get_put_self]⟩
    rw [hdrafts, Table.get_put_ne _ hk, h.others k (hkey ▸ hk)]

theorem update_bind_ensures {f : Unit → DeliveryM β} {post : TwinResult β → DeliveryState → Prop}
    (h : Holds s₀ draft s) (hkey : draft'.key = draft.key)
    (hok : ∀ s', Holds s₀ draft' s' → (f ()).run.Ensures answer ok post s')
    (herror : ∀ e, ¬ Smooth ok → post (.error e) s) :
    (ask (.updateDraft draft') >>= f).run.Ensures answer ok post s := by
  refine ask_bind_ensures (fun c _ s' _ hs => ?_) fun c e s' hc hs => ?_
  · obtain ⟨-, hholds⟩ | ⟨⟨e, he⟩, -⟩ := answer_updateDraft_holds h hkey hs
    · exact hok s' hholds
    · cases he
  · obtain ⟨he, -⟩ | ⟨-, rfl, hfail⟩ := answer_updateDraft_holds h hkey hs
    · cases he
    · exact herror e fun hsmooth => hfail (hsmooth c hc)

/-- A draft and its ledger are read as they are stored. -/
theorem loadDraft_bind_ensures {t d : String} {f : DraftDelivery × LedgerSnapshot → DeliveryM β}
    {post : TwinResult β → DeliveryState → Prop}
    (hok : ∀ draft snap, s.store.getDraft t d = some draft →
      s.store.getLedger t draft.ledgerId = some snap →
      (f (draft, snap)).run.Ensures answer ok post s)
    (herror : ∀ e, post (.error e) s) :
    (loadDraft t d >>= f).run.Ensures answer ok post s := by
  unfold loadDraft
  rw [bind_assoc]
  refine read_bind_ensures (v := s.store.getDraft t d) (fun _ => rfl) ?_ herror
  cases hdraft : s.store.getDraft t d with
  | none => exact herror _
  | some draft =>
    dsimp only
    rw [bind_assoc]
    refine read_bind_ensures (v := s.store.getLedger t draft.ledgerId) (fun _ => rfl) ?_ herror
    cases hsnap : s.store.getLedger t draft.ledgerId with
    | none => exact herror _
    | some snap => exact hok draft snap hdraft hsnap

end Rules

/-! ## Publishing -/

/-- Where a publish attempt can end. -/
def PublishEnd (ok : Choice → Prop) (t : DraftStatus) : Prop :=
  t = .published ∨ (t = .publishQueued ∨ t = .publishFailed) ∧ ¬ Smooth ok

section Publish
variable {s₀ s : DeliveryState} {ok : Choice → Prop} {β : Type} {draft : DraftDelivery}
  {svc : DeliveryService} {twin : Twin}

theorem finish_bind_ensures {st : DraftStatus} {f : DraftDelivery → DeliveryM β}
    {post : TwinResult β → DeliveryState → Prop} (h : Holds s₀ draft s)
    (hok : ∀ d s', Ends draft.key draft.ledgerKey (fun t => t = st) s₀ s' →
      (f d).run.Ensures answer ok post s')
    (herror : ∀ e s', Holds s₀ draft s' → ¬ Smooth ok → post (.error e) s') :
    (finishDraft draft st >>= f).run.Ensures answer ok post s := by
  unfold finishDraft
  rw [bind_assoc]
  refine still_bind_ensures rfl (fun now s₁ h₁ => ?_) fun e s₁ h₁ hfail =>
    herror e s₁ (h.of_sameRows h₁) hfail
  rw [bind_assoc]
  refine update_bind_ensures (h.of_sameRows h₁) rfl (fun s₂ h₂ => ?_) fun e hfail =>
    herror e s₁ (h.of_sameRows h₁) hfail
  exact hok _ s₂ (h₂.ends rfl)

/-- A failed publish of a queued draft leaves it published by a message, failed or queued. -/
theorem publishFailed_rows {channel body : String} {e : TwinError} (h : Holds s₀ draft s)
    (hqueued : draft.status = .publishQueued) (hfail : ¬ Smooth ok) :
    (publishFailed svc twin draft channel body e).run.Ensures answer ok
      (fun _ s' => Ends draft.key draft.ledgerKey (PublishEnd ok) s₀ s') s := by
  have hstill : ∀ s', Holds s₀ draft s' → Ends draft.key draft.ledgerKey (PublishEnd ok) s₀ s' :=
    fun s' h' => h'.ends (.inr ⟨.inl hqueued, hfail⟩)
  have hfailed : ∀ s', Ends draft.key draft.ledgerKey (fun t => t = .publishFailed) s₀ s' →
      Ends draft.key draft.ledgerKey (PublishEnd ok) s₀ s' :=
    fun s' h' => h'.mono fun t ht => .inr ⟨.inr ht, hfail⟩
  unfold publishFailed
  dsimp only
  split_ifs
  · refine attempt_bind_ensures (R := fun _ s' => SameRows s s')
      ((aside_ensures (resolveChatUserId_aside _ _)).mono fun _ _ hf => hf.sameRows) ?_
    intro user s₁ h₁
    have h₁ := h.of_sameRows h₁
    refine still_attempt_ensures rfl (fun dm s₂ h₂ => ?_) fun e₂ s₂ h₂ _ => ?_
    · have h₂ := h₁.of_sameRows h₂
      dsimp only
      refine still_bind_ensures rfl (fun uuid s₃ h₃ => ?_) fun e s₃ h₃ _ =>
        hstill s₃ (h₂.of_sameRows h₃)
      have h₃ := h₂.of_sameRows h₃
      refine still_bind_ensures rfl (fun now s₄ h₄ => ?_) fun e s₄ h₄ _ =>
        hstill s₄ (h₃.of_sameRows h₄)
      have h₄ := h₃.of_sameRows h₄
      refine still_bind_ensures rfl (fun _ s₅ h₅ => ?_) fun e s₅ h₅ _ =>
        hstill s₅ (h₄.of_sameRows h₅)
      refine finish_bind_ensures (h₄.of_sameRows h₅) (fun d s₆ h₆ => ?_) fun e s₆ h₆ _ =>
        hstill s₆ h₆
      exact h₆.mono fun t ht => .inl ht
    · refine finish_bind_ensures (h₁.of_sameRows h₂) (fun d s₃ h₃ => hfailed s₃ h₃)
        fun e s₃ h₃ _ => hstill s₃ h₃
  · exact finish_bind_ensures h (fun d s₁ h₁ => hfailed s₁ h₁) fun e s₁ h₁ _ => hstill s₁ h₁

theorem publishQueued_rows (h : Holds s₀ draft s) (hqueued : draft.status = .publishQueued) :
    (publishQueued svc twin draft).run.Ensures answer ok
      (fun _ s' => Ends draft.key draft.ledgerKey (PublishEnd ok) s₀ s') s := by
  have hstill : ∀ s', Holds s₀ draft s' → ¬ Smooth ok →
      Ends draft.key draft.ledgerKey (PublishEnd ok) s₀ s' :=
    fun s' h' hfail => h'.ends (.inr ⟨.inl hqueued, hfail⟩)
  have hdone : ∀ (d : DraftDelivery) (s' : DeliveryState), Ends draft.key draft.ledgerKey (fun t => t = .published) s₀ s' →
      ∀ r : Option PublishRecord, (pure (d, r) : DeliveryM _).run.Ensures answer ok
        (fun _ s' => Ends draft.key draft.ledgerKey (PublishEnd ok) s₀ s') s' :=
    fun d s' h' r => h'.mono fun t ht => .inl ht
  unfold publishQueued
  refine still_bind_ensures rfl (fun found s₁ h₁ => ?_) fun e s₁ h₁ hfail =>
    hstill s₁ (h.of_sameRows h₁) hfail
  have h₁ := h.of_sameRows h₁
  -- a ledger that is published already only needs its draft marked
  cases found with
  | some existing =>
    dsimp only
    refine still_bind_ensures rfl (fun now s₂ h₂ => ?_) fun e s₂ h₂ hfail =>
      hstill s₂ (h₁.of_sameRows h₂) hfail
    have h₂ := h₁.of_sameRows h₂
    refine attempt_bind_ensures (R := fun _ s' =>
      Ends draft.key draft.ledgerKey (PublishEnd ok) s₀ s') (ask_ensures fun c r s₃ hc hs => ?_)
      fun _ _ h₃ => h₃
    obtain ⟨-, h₃⟩ | ⟨-, rfl, hfail⟩ := answer_updateDraft_holds h₂ (by rfl) hs
    · exact h₃.ends (.inl rfl)
    · exact hstill s₃ h₂ fun hsmooth => hfail (hsmooth c hc)
  | none =>
    dsimp only
    refine still_attempt_ensures rfl (fun p s₂ h₂ => ?_) fun e s₂ h₂ hfail =>
      publishFailed_rows (h₁.of_sameRows h₂) hqueued hfail
    have h₂ := h₁.of_sameRows h₂
    dsimp only
    refine still_bind_ensures rfl (fun uuid s₃ h₃ => ?_) fun e s₃ h₃ hfail =>
      hstill s₃ (h₂.of_sameRows h₃) hfail
    have h₃ := h₂.of_sameRows h₃
    refine still_bind_ensures rfl (fun now s₄ h₄ => ?_) fun e s₄ h₄ hfail =>
      hstill s₄ (h₃.of_sameRows h₄) hfail
    have h₄ := h₃.of_sameRows h₄
    refine still_bind_ensures rfl (fun inserted s₅ h₅ => ?_) fun e s₅ h₅ hfail =>
      hstill s₅ (h₄.of_sameRows h₅) hfail
    have h₅ := h₄.of_sameRows h₅
    cases inserted with
    | true =>
      exact finish_bind_ensures h₅ (fun d s₆ h₆ => hdone d s₆ h₆ _) fun e s₆ h₆ => hstill s₆ h₆
    | false =>
      refine still_bind_ensures rfl (fun existing s₆ h₆ => ?_) fun e s₆ h₆ hfail =>
        hstill s₆ (h₅.of_sameRows h₆) hfail
      exact finish_bind_ensures (h₅.of_sameRows h₆) (fun d s₇ h₇ => hdone d s₇ h₇ _)
        fun e s₇ h₇ => hstill s₇ h₇

theorem tryPublishChannel_rows (h : Holds s₀ draft s) (hqueued : draft.status = .publishQueued) :
    (tryPublishChannel svc twin draft).run.Ensures answer ok
      (fun _ s' => Ends draft.key draft.ledgerKey (PublishEnd ok) s₀ s') s := by
  rw [tryPublishChannel_queued svc twin hqueued]
  exact publishQueued_rows h hqueued

end Publish

/-! ## Calls on one draft -/

/-- The call leaves all rows alone, or takes the row of the draft from its status to one of `P`, by
way of a status `via` that the events lead to. -/
def Moves (tenantId draftId : String) (s : DeliveryState) (via : DraftStatus)
    (P : DraftStatus → Prop) (s' : DeliveryState) : Prop :=
  SameRows s s' ∨ ∃ draft c auto, s.store.getDraft tenantId draftId = some draft ∧
    DraftStatus.Leads c auto draft.status via ∧ Ends draft.key draft.ledgerKey P s s'

section Calls
variable {s : DeliveryState} {ok : Choice → Prop} {svc : DeliveryService} {twin : Twin}
  {tenantId draftId : String}

/-- A transition of a loaded draft. -/
theorem transition_bind_ensures {β : Type} {draft : DraftDelivery} {snap : LedgerSnapshot}
    {event : DeliveryEvent} {auto : Bool} {via : DraftStatus} {P : DraftStatus → Prop}
    {g : DateTime → DraftDelivery} {f : DateTime → Unit → DeliveryM β}
    (hdraft : s.store.getDraft tenantId draftId = some draft)
    (happly : applyDeliveryEvent draft.status event snap.confidenceRollup auto = some via)
    (hkey : ∀ now, (g now).key = draft.key) (hledger : ∀ now, (g now).ledgerKey = draft.ledgerKey)
    (hf : ∀ now s', Holds s (g now) s' → (f now ()).run.Ensures answer ok
      (fun _ s'' => Ends (g now).key (g now).ledgerKey P s s'') s') :
    (ask .utcNow >>= fun now => ask (.updateDraft (g now)) >>= f now).run.Ensures answer ok
      (fun _ s' => Moves tenantId draftId s via P s') s := by
  refine still_bind_ensures rfl (fun now s₁ h₁ => ?_) fun e s₁ h₁ _ => .inl h₁
  have hholds := (holds_of_get hdraft).of_sameRows h₁
  refine update_bind_ensures hholds (hkey now) (fun s₂ h₂ => ?_) fun e _ => .inl h₁
  refine (hf now s₂ h₂).mono fun _ s₃ h₃ => .inr ⟨draft, _, _, hdraft, .of_apply happly, ?_⟩
  rwa [hkey, hledger] at h₃

theorem vetoDraft_rows : (vetoDraft tenantId draftId).run.Ensures answer ok
    (fun _ s' => Moves tenantId draftId s .vetoed (fun t => t = .vetoed) s') s := by
  refine loadDraft_bind_ensures (fun draft snap hdraft _ => ?_) fun _ => .inl (SameRows.refl s)
  dsimp only
  cases happly : applyDeliveryEvent draft.status .veto snap.confidenceRollup false with
  | none => exact .inl (SameRows.refl s)
  | some next =>
    obtain rfl := apply_veto happly
    exact transition_bind_ensures (g := fun now => { draft with status := .vetoed, updatedAt := now })
      hdraft happly (fun _ => rfl) (fun _ => rfl) fun now s' h => h.ends (P := fun t => t = .vetoed) rfl

theorem editDraft_rows {text : String} : (editDraft tenantId draftId text).run.Ensures answer ok
    (fun _ s' => Moves tenantId draftId s .edited (fun t => t = .edited) s') s := by
  refine loadDraft_bind_ensures (fun draft snap hdraft _ => ?_) fun _ => .inl (SameRows.refl s)
  dsimp only
  cases happly : applyDeliveryEvent draft.status .edit snap.confidenceRollup false with
  | none => exact .inl (SameRows.refl s)
  | some next =>
    obtain rfl := apply_edit happly
    exact transition_bind_ensures
      (g := fun now => { draft with status := .edited, editedText := some text, updatedAt := now })
      hdraft happly (fun _ => rfl) (fun _ => rfl) fun now s' h => h.ends (P := fun t => t = .edited) rfl

theorem silenceTimeout_rows : (silenceTimeout svc twin tenantId draftId).run.Ensures answer ok
    (fun _ s' => Moves tenantId draftId s .publishQueued (PublishEnd ok) s') s := by
  refine loadDraft_bind_ensures (fun draft snap hdraft _ => ?_) fun _ => .inl (SameRows.refl s)
  dsimp only
  split_ifs
  · exact .inl (SameRows.refl s)
  · cases happly : applyDeliveryEvent draft.status .mediumSilenceTimeout snap.confidenceRollup
      twin.highAutoPublish with
    | none => exact .inl (SameRows.refl s)
    | some next =>
      obtain rfl := apply_mediumSilenceTimeout happly
      refine transition_bind_ensures
        (g := fun now => { draft with status := .publishQueued, updatedAt := now })
        hdraft happly (fun _ => rfl) (fun _ => rfl) fun now s' h => ?_
      rw [if_pos rfl]
      exact tryPublishChannel_rows h rfl

theorem explicitPublish_rows : (explicitPublish svc twin tenantId draftId).run.Ensures answer ok
    (fun _ s' => Moves tenantId draftId s .publishQueued (PublishEnd ok) s') s := by
  refine loadDraft_bind_ensures (fun draft snap hdraft _ => ?_) fun _ => .inl (SameRows.refl s)
  dsimp only
  split_ifs with hpublished hvetoed hqueued
  · exact still_bind_ensures rfl (fun _ s₁ h₁ => .inl h₁) fun _ s₁ h₁ _ => .inl h₁
  · exact .inl (SameRows.refl s)
  · cases happly : applyDeliveryEvent draft.status .explicitPublish snap.confidenceRollup
      twin.highAutoPublish with
    | none => exact .inl (SameRows.refl s)
    | some next =>
      obtain rfl := apply_explicitPublish happly
      exact transition_bind_ensures
        (g := fun now => { draft with status := .publishQueued, updatedAt := now })
        hdraft happly (fun _ => rfl) (fun _ => rfl) fun now s' h => tryPublishChannel_rows h rfl
  · have hstatus : draft.status = .publishQueued := not_not.mp hqueued
    refine (tryPublishChannel_rows (holds_of_get hdraft) hstatus).mono fun _ s' h =>
      .inr ⟨draft, .medium, false, hdraft, ?_, h⟩
    rw [hstatus]
    exact DraftStatus.Leads.refl _

end Calls

/-! ## Compiles -/

section Compiles
variable {s s₀ : DeliveryState} {ok : Choice → Prop} {svc : DeliveryService} {x : StartInput}
  {draft existing : DraftDelivery} {β : Type}

/-- A draft was sent, or not: the rows are as they were, and the draft differs at most in where it
was sent. -/
structure Unwritten (ok : Choice → Prop) (draft : DraftDelivery) (s : DeliveryState)
    (r : TwinResult (DraftDelivery × Bool)) (s' : DeliveryState) : Prop where
  same : SameRows s s'
  fails : ∀ e, r = .error e → ¬ Smooth ok
  result : ∀ y, r = .ok y →
    y.1.key = draft.key ∧ y.1.ledgerKey = draft.ledgerKey ∧ y.1.status = draft.status

theorem Unwritten.of_ok {s' : DeliveryState} (h : SameRows s s') {y : DraftDelivery × Bool}
    (hkey : y.1.key = draft.key) (hledger : y.1.ledgerKey = draft.ledgerKey)
    (hstatus : y.1.status = draft.status) : Unwritten ok draft s (.ok y) s' := by
  refine ⟨h, fun e he => (by cases he), ?_⟩
  rintro _ ⟨⟩
  exact ⟨hkey, hledger, hstatus⟩

theorem sendDraft_rows : (sendDraft svc x draft).run.Ensures answer ok (Unwritten ok draft s) s := by
  have huser : (resolveChatUserId x.twin svc.adapterKind).run.Ensures answer ok
      (fun r s' => SameRows s s' ∧ ∀ e, r = .error e → ¬ Smooth ok) s := by
    by_cases hok : Smooth ok
    · refine (resolveChatUserId_ensures hok.noFault svc.adapterKind).mono ?_
      rintro r s' ⟨hf, user, rfl⟩
      exact ⟨hf.sameRows, fun e he => (by cases he)⟩
    · exact (aside_ensures (resolveChatUserId_aside _ _)).mono fun _ _ hf =>
        ⟨hf.sameRows, fun _ _ => hok⟩
  unfold sendDraft
  refine bind_ensures huser ?_ ?_
  · rintro user s₁ ⟨h₁, -⟩
    refine still_attempt_ensures rfl (fun dm s₂ h₂ => ?_) fun e s₂ h₂ _ => ?_
    · dsimp only
      refine bind_ensures rememberNotify_ensures ?_ ?_
      · rintro _ s₃ ⟨h₃, -⟩
        exact .of_ok ((h₁.trans h₂).trans h₃.sameRows) rfl rfl rfl
      · rintro e s₃ ⟨-, he⟩
        cases he
    · exact .of_ok (h₁.trans h₂) rfl rfl rfl
  · rintro e s₁ ⟨h₁, hfail⟩
    exact ⟨h₁, fun e he => hfail _ rfl, fun y hy => (by cases hy)⟩

theorem rememberUnchanged_rows :
    (rememberUnchanged svc x).run.Ensures answer ok (fun r s' => SameRows s s' ∧ r = .ok ()) s := by
  unfold rememberUnchanged
  split_ifs
  · exact rememberNotify_ensures.mono fun r s' h => ⟨h.1.sameRows, h.2⟩
  · exact ⟨SameRows.refl s, rfl⟩

theorem upgradeNotify_rows :
    (upgradeNotify svc x draft).run.Ensures answer ok (Unwritten ok draft s) s := by
  unfold upgradeNotify
  split_ifs
  · exact sendDraft_rows
  · refine bind_ensures rememberUnchanged_rows ?_ ?_
    · rintro _ s₁ ⟨h₁, -⟩
      exact .of_ok h₁ rfl rfl rfl
    · rintro e s₁ ⟨-, he⟩
      cases he

theorem refreshed_key : (refreshed x existing).key = existing.key := by
  unfold refreshed; split_ifs <;> rfl

theorem refreshed_ledgerKey : (refreshed x existing).ledgerKey = existing.ledgerKey := by
  unfold refreshed; split_ifs <;> rfl

theorem refreshed_status : (refreshed x existing).status = existing.status := by
  unfold refreshed; split_ifs <;> rfl

theorem refreshed_slackDmTs : (refreshed x existing).slackDmTs = existing.slackDmTs := by
  unfold refreshed; split_ifs <;> rfl

theorem openish_of_upgradable (h : upgradable x existing = true) :
    existing.status.openish = true := by
  simp only [upgradable, Bool.and_eq_true] at h
  exact h.2

/-- A recompile of a stored draft: an upgrade gives it the status of a new one, and anything else
leaves the status alone. -/
def Restarts (x : StartInput) (ok : Choice → Prop) (existing : DraftDelivery)
    (s s' : DeliveryState) : Prop :=
  if upgradable x existing then
    Ends existing.key existing.ledgerKey (fun t => t = upgradeStatus x) s s' ∨
      (SameRows s s' ∧ ¬ Smooth ok)
  else SameRows s s' ∨ existing.status.openish = true ∧
    Ends existing.key existing.ledgerKey (fun t => t = existing.status) s s'

theorem upgradeDraft_rows (hrow : Holds s existing s) (hkey : draft.key = existing.key)
    (hledger : draft.ledgerKey = existing.ledgerKey) :
    (upgradeDraft svc x draft).run.Ensures answer ok (fun _ s' =>
      Ends existing.key existing.ledgerKey (fun t => t = upgradeStatus x) s s' ∨
        (SameRows s s' ∧ ¬ Smooth ok)) s := by
  unfold upgradeDraft
  refine bind_ensures upgradeNotify_rows ?_ fun e s₁ h₁ => .inr ⟨h₁.same, h₁.fails e rfl⟩
  rintro ⟨sent, dmSent⟩ s₁ h₁
  obtain ⟨hkey₁, hledger₁, hstatus₁⟩ := h₁.result _ rfl
  refine update_bind_ensures (hrow.of_sameRows h₁.same) (hkey₁.trans hkey) (fun s₂ h₂ => ?_)
    fun e hfail => .inr ⟨h₁.same, hfail⟩
  exact .inl ⟨{ sent with updatedAt := x.now }, hkey₁.trans hkey, hledger₁.trans hledger, hstatus₁, h₂⟩

theorem restartDraft_rows (hrow : Holds s existing s) :
    (restartDraft svc x existing).run.Ensures answer ok
      (fun _ s' => Restarts x ok existing s s') s := by
  have hkey : (refreshed x existing).key = existing.key := refreshed_key
  have hledger : (refreshed x existing).ledgerKey = existing.ledgerKey := refreshed_ledgerKey
  unfold restartDraft Restarts
  split_ifs with hup hopen
  · exact upgradeDraft_rows hrow hkey hledger
  · refine update_bind_ensures hrow hkey (fun s₁ h₁ => ?_) fun e _ => .inl (SameRows.refl s)
    exact .inr ⟨hopen, _, hkey, hledger, refreshed_status, h₁⟩
  · exact .inl (SameRows.refl s)

/-! ### New drafts -/

/-- Where a first compile leaves the draft it makes. -/
def CreateEnd (svc : DeliveryService) (x : StartInput) (ok : Choice → Prop) (t : DraftStatus) : Prop :=
  if autoPublishes svc x then PublishEnd ok t else t = createStatus svc x

/-- The draft is made under a new id, or not at all. -/
def Creates (svc : DeliveryService) (x : StartInput) (ok : Choice → Prop) (s s' : DeliveryState) :
    Prop :=
  (∃ uuid, uuid ∉ s.issued ∧ Ends (x.twin.tenantId, "dft_" ++ uuid)
    (x.twin.tenantId, x.snap.ledgerId) (CreateEnd svc x ok) s s') ∨
  SameRows s s' ∧ (Smooth ok → s.store.draftByLedger.get (x.twin.tenantId, x.snap.ledgerId) ≠ none)

theorem put_bind_ensures {f : Unit → DeliveryM β} {post : TwinResult β → DeliveryState → Prop}
    (h : SameRows s₀ s) (hok : ∀ s', Holds s₀ draft s' → (f ()).run.Ensures answer ok post s')
    (herror : ∀ e, (Smooth ok → s₀.store.draftByLedger.get draft.ledgerKey ≠ none) →
      post (.error e) s) :
    (ask (.putDraft draft) >>= f).run.Ensures answer ok post s := by
  refine ask_bind_ensures (fun c _ s' _ hs => ?_) fun c e s' hc hs => ?_
  · obtain ⟨⟨e, he⟩, -⟩ | ⟨-, -, hdrafts, -, -⟩ := answer_putDraft hs
    · cases he
    · refine hok s' ⟨fun k hk => ?_, by rw [hdrafts, Table.get_put_self]⟩
      rw [hdrafts, Table.get_put_ne _ hk, h.drafts]
  · obtain ⟨-, rfl⟩ | ⟨he, -⟩ := answer_putDraft hs
    · refine herror e fun hsmooth hfree => ?_
      rw [← h.index] at hfree
      cases (answer_putDraft_of_free hs (hsmooth c hc).1 hfree).1
    · cases he

theorem autoPublishes_iff : autoPublishes svc x = true ↔
    createSends svc x = true ∧ createStatus svc x = .publishQueued ∧ x.snap.confidenceRollup = .high
      ∧ x.twin.highAutoPublish = true := by
  simp [autoPublishes, and_assoc]

theorem autoPublish_rows (h : SameRows s₀ s) (hqueued : draft.status = .publishQueued) :
    (autoPublish svc x draft).run.Ensures answer ok (fun _ s' =>
      Ends draft.key draft.ledgerKey (PublishEnd ok) s₀ s' ∨
        SameRows s₀ s' ∧ (Smooth ok → s₀.store.draftByLedger.get draft.ledgerKey ≠ none)) s := by
  have hrest : ∀ (d : DraftDelivery) (s₁ : DeliveryState), d.key = draft.key →
      d.ledgerKey = draft.ledgerKey → d.status = draft.status → SameRows s₀ s₁ →
      (publishStored svc x d).run.Ensures answer ok (fun _ s' =>
        Ends draft.key draft.ledgerKey (PublishEnd ok) s₀ s' ∨
          SameRows s₀ s' ∧ (Smooth ok → s₀.store.draftByLedger.get draft.ledgerKey ≠ none)) s₁ := by
    intro d s₁ hkey hledger hstatus h₁
    refine put_bind_ensures h₁ (fun s₂ h₂ => ?_) fun e hno => .inr ⟨h₁, hledger ▸ hno⟩
    refine bind_ensures (tryPublishChannel_rows h₂ (hstatus.trans hqueued)) ?_ fun e s₃ h₃ => ?_
    · rintro y s₃ h₃
      rw [hkey, hledger] at h₃
      obtain ⟨d', hk, hl, hP, hd'⟩ := h₃
      refine aside_bind_ensures (rememberNotify_aside _ _) (fun _ s₄ h₄ => ?_) fun _ s₄ h₄ => ?_
      all_goals exact .inl ⟨d', hk, hl, hP, hd'.of_sameRows h₄.sameRows⟩
    · rw [hkey, hledger] at h₃
      exact .inl h₃
  unfold autoPublish
  refine attempt_bind_ensures (R := fun _ s' => SameRows s s') ?_ ?_
  · refine aside_bind_ensures (resolveChatUserId_aside _ _) (fun user s₁ h₁ => ?_)
      fun _ s₁ h₁ => h₁.sameRows
    exact ask_ensures fun c r s₂ _ hs => h₁.sameRows.trans (answer_sameRows hs rfl)
  · rintro (e | dm) s₁ h₁
    · exact hrest draft s₁ rfl rfl rfl (h.trans h₁)
    · exact hrest _ s₁ rfl rfl rfl (h.trans h₁)

theorem createNotify_rows :
    (createNotify svc x draft).run.Ensures answer ok (Unwritten ok draft s) s := by
  unfold createNotify
  split_ifs
  · exact sendDraft_rows
  · exact .of_ok (SameRows.refl s) rfl rfl rfl

theorem createDraft_rows :
    (createDraft svc x).run.Ensures answer ok (fun _ s' => Creates svc x ok s s') s := by
  unfold createDraft
  refine ask_bind_ensures (fun c uuid s₁ _ hs => ?_) fun c e s₁ _ hs => ?_
  · have hsame := answer_sameRows hs rfl
    obtain ⟨hfresh, huuid, -⟩ := newUuid_eq hs
    obtain rfl := Except.ok.inj huuid
    have hmade : ∀ d s', d.key = (newDraft svc x c.uuid (createStatus svc x)).key →
        d.ledgerKey = (newDraft svc x c.uuid (createStatus svc x)).ledgerKey →
        CreateEnd svc x ok d.status → Holds s d s' → Creates svc x ok s s' :=
      fun d s' hk hl hP hd => .inl ⟨c.uuid, hfresh, d, hk, hl, hP, hd⟩
    have hnone : ∀ s', SameRows s s' → (Smooth ok →
        s.store.draftByLedger.get (x.twin.tenantId, x.snap.ledgerId) ≠ none) →
        Creates svc x ok s s' := fun s' h hno => .inr ⟨h, hno⟩
    dsimp only
    split_ifs with hquiet hauto
    · have hnot : autoPublishes svc x = false := by
        rw [Bool.eq_false_iff]
        intro hauto
        obtain ⟨hsends, hstatus, -⟩ := autoPublishes_iff.mp hauto
        simp [hsends, hstatus] at hquiet
      refine put_bind_ensures hsame (fun s₂ h₂ => ?_) fun e hno => hnone s₁ hsame hno
      refine bind_ensures rememberUnchanged_rows ?_ ?_
      · rintro _ s₃ ⟨h₃, -⟩
        refine hmade _ s₃ rfl rfl ?_ (h₂.of_sameRows h₃)
        rw [CreateEnd, hnot]
        rfl
      · rintro e s₃ ⟨-, he⟩
        cases he
    · obtain ⟨-, hstatus, -⟩ := autoPublishes_iff.mp hauto
      refine (autoPublish_rows hsame hstatus).mono fun _ s₂ h₂ => ?_
      rcases h₂ with ⟨d, hk, hl, hP, hd⟩ | ⟨h₂, hno⟩
      · refine hmade d s₂ hk hl ?_ hd
        rw [CreateEnd, hauto]
        exact hP
      · exact hnone s₂ h₂ hno
    · have hnot : autoPublishes svc x = false := by simpa using hauto
      refine bind_ensures createNotify_rows ?_ fun e s₂ h₂ =>
        hnone s₂ (hsame.trans h₂.same) fun hsmooth => absurd hsmooth (h₂.fails e rfl)
      rintro ⟨draft, dmSent⟩ s₂ h₂
      obtain ⟨hkey, hledger, hstatus⟩ := h₂.result _ rfl
      refine put_bind_ensures (hsame.trans h₂.same) (fun s₃ h₃ => ?_) fun e hno =>
        hnone s₂ (hsame.trans h₂.same) ?_
      · refine hmade _ s₃ hkey hledger ?_ h₃
        rw [CreateEnd, hnot]
        exact hstatus
      · rw [hledger] at hno
        exact hno
  · cases (newUuid_eq hs).2.1

end Compiles

/-! ## Every call -/

/-- Where a compile leaves the rows. -/
def StartEnd (svc : DeliveryService) (ok : Choice → Prop) (x : StartInput) (s s' : DeliveryState) :
    Prop :=
  match s.store.getDraftByLedger x.twin.tenantId x.snap.ledgerId with
  | some existing => Restarts x ok existing s s'
  | none => Creates svc x ok s s'

/-- Where a call leaves the rows. -/
def CallEnd (svc : DeliveryService) (ok : Choice → Prop) (s s' : DeliveryState) : DeliveryCall → Prop
  | .explicitPublish _ t d | .silenceTimeout _ t d => Moves t d s .publishQueued (PublishEnd ok) s'
  | .vetoDraft t d => Moves t d s .vetoed (fun u => u = .vetoed) s'
  | .editDraft t d _ => Moves t d s .edited (fun u => u = .edited) s'
  | .startAfterCompileOpts x => StartEnd svc ok x s s'

section Every
variable {s : DeliveryState} {ok : Choice → Prop} {svc : DeliveryService}

theorem drop_ensures {α : Type} {p : DeliveryM α} {post : DeliveryState → Prop}
    (h : p.run.Ensures answer ok (fun _ s' => post s') s) :
    (p >>= fun _ => (pure () : DeliveryM Unit)).run.Ensures answer ok (fun _ s' => post s') s :=
  bind_ensures h (fun _ _ h => h) fun _ _ h => h

theorem startAfterCompileOpts_rows {x : StartInput} :
    (startAfterCompileOpts svc x).run.Ensures answer ok
      (fun _ s' => StartEnd svc ok x s s') s := by
  unfold startAfterCompileOpts
  refine ask_bind_ensures (fun c found s₁ _ hs => ?_) fun c e s₁ hc hs => ?_
  · obtain rfl := reading_ok hs
    obtain ⟨rfl, -⟩ := reading_eq hs
    cases hrow : s₁.store.getDraftByLedger x.twin.tenantId x.snap.ledgerId with
    | none =>
      simp only [StartEnd, hrow]
      exact createDraft_rows
    | some existing =>
      simp only [StartEnd, hrow]
      obtain ⟨id, -, hget⟩ := InMemoryTwinStore.getDraftByLedger_some hrow
      exact restartDraft_rows (holds_of_get hget)
  · have hfail : ¬ Smooth ok := fun hsmooth => answer_error hs rfl (hsmooth c hc)
    obtain ⟨rfl, -⟩ := reading_eq hs
    unfold StartEnd
    split
    · unfold Restarts
      split_ifs
      · exact .inr ⟨SameRows.refl _, hfail⟩
      · exact .inl (SameRows.refl _)
    · exact .inr ⟨SameRows.refl _, fun hsmooth => absurd hsmooth hfail⟩

/-- **Where calls leave the rows.** -/
theorem program_rows (call : DeliveryCall) :
    (call.program svc).run.Ensures answer ok (fun _ s' => CallEnd svc ok s s' call) s := by
  cases call with
  | explicitPublish twin t d => exact drop_ensures explicitPublish_rows
  | silenceTimeout twin t d => exact drop_ensures silenceTimeout_rows
  | vetoDraft t d => exact drop_ensures vetoDraft_rows
  | editDraft t d text => exact drop_ensures editDraft_rows
  | startAfterCompileOpts x => exact drop_ensures startAfterCompileOpts_rows

end Every

end AiManager.Twins
