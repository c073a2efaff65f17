import AiManager.Lib.Run
import AiManager.Twins.Delivery

/-! # Consent

One call after the other on one draft. What reaches the channel should be what the person was last
sent, or what the person wrote. A recompile replaces the text of an open draft without sending it
again, and a publish does not ask whether the draft was ever sent; the runs below are those in which
neither matters. -/

namespace AiManager.Twins

open Lib

/-! ## What was shown -/

/-- The draft text that a post shows to the person. -/
def ChatPost.shown : ChatPost → Option String
  | .draftDm _ _ draftText => some draftText
  | .dm _ text => Text.stripPrefix text "Auto-publishing high confidence status:\n"
  | .channel _ _ => none

/-- The draft text that the person was sent last. -/
def lastShown (posts : List ChatPost) : Option String := posts.findSome? ChatPost.shown

/-- Every channel post has the text that was sent last before it, or a text of an edit. -/
def Consented (edits : List String) : List ChatPost → Prop
  | [] => True
  | .channel _ body :: older =>
    (lastShown older = some body ∨ body ∈ edits) ∧ Consented edits older
  | _ :: older => Consented edits older

instance Consented.decidable (edits : List String) :
    (posts : List ChatPost) → Decidable (Consented edits posts)
  | [] => inferInstanceAs (Decidable True)
  | .channel _ body :: older =>
    have := Consented.decidable edits older
    inferInstanceAs (Decidable ((lastShown older = some body ∨ body ∈ edits) ∧ _))
  | .dm _ _ :: older => Consented.decidable edits older
  | .draftDm _ _ _ :: older => Consented.decidable edits older

theorem Consented.mono {edits edits' : List String} (h : ∀ e ∈ edits, e ∈ edits')
    {posts : List ChatPost} (hc : Consented edits posts) : Consented edits' posts := by
  induction posts with
  | nil => trivial
  | cons p posts ih =>
    cases p with
    | channel ch body => exact ⟨hc.1.imp_right (h body), ih hc.2⟩
    | dm u text => exact ih hc
    | draftDm u d text => exact ih hc

/-- The person wrote a text for the draft. -/
def DraftDelivery.edited (d : DraftDelivery) : Bool :=
  match d.editedText with
  | none => false
  | some s => s ≠ ""

theorem publishBody_of_not_edited {d : DraftDelivery} (h : d.edited = false) :
    d.publishBody = d.draftText := by
  unfold DraftDelivery.edited at h
  unfold DraftDelivery.publishBody
  cases hd : d.editedText with
  | none => rfl
  | some s =>
    rw [hd] at h
    have hs : s = "" := by simpa using h
    exact if_pos hs

theorem edited_congr {a b : DraftDelivery} (h : a.editedText = b.editedText) :
    a.edited = b.edited := by
  unfold DraftDelivery.edited
  rw [h]

/-- What the person wrote is published, whatever the draft text is. -/
theorem publishBody_of_edited {a b : DraftDelivery} (h : a.editedText = b.editedText)
    (hb : b.edited = true) : a.publishBody = b.publishBody := by
  unfold DraftDelivery.edited at hb
  unfold DraftDelivery.publishBody
  rw [h]
  cases he : b.editedText with
  | none => rw [he] at hb; cases hb
  | some e =>
    rw [he] at hb
    have hne : e ≠ "" := of_decide_eq_true hb
    dsimp only
    rw [if_neg hne, if_neg hne]

/-! ## The invariant -/

/-- What holds between the calls on a draft. -/
structure ConsentInv (tenantId draftId ledgerId : String) (edits : List String)
    (s : DeliveryState) : Prop where
  consented : Consented edits s.posts
  /-- the draft, once it is there, is the draft of the ledger -/
  filed : ∀ row, s.store.getDraft tenantId draftId = some row →
    s.store.getDraftByLedger tenantId ledgerId = some row
  indexed : ∀ id, s.store.draftByLedger.get (tenantId, ledgerId) = some id →
    (s.store.drafts.get (tenantId, id)).isSome
  /-- the text that was sent last is still the text, unless the person wrote another one -/
  told : ∀ text, lastShown s.posts = some text →
    ∃ row, s.store.getDraftByLedger tenantId ledgerId = some row ∧
      (row.edited = true ∨ row.draftText = text)
  supplied : ∀ row, s.store.getDraftByLedger tenantId ledgerId = some row → row.edited = true →
    row.publishBody ∈ edits

section Invariant
variable {tenantId draftId ledgerId : String} {edits : List String} {s s' : DeliveryState}
  {row draft : DraftDelivery} {c : Choice}

theorem Frame.getDraft (h : Frame s s') (t d : String) :
    s'.store.getDraft t d = s.store.getDraft t d := by
  unfold InMemoryTwinStore.getDraft
  rw [h.drafts]

theorem Frame.getDraftByLedger (h : Frame s s') (t l : String) :
    s'.store.getDraftByLedger t l = s.store.getDraftByLedger t l := by
  unfold InMemoryTwinStore.getDraftByLedger InMemoryTwinStore.getDraft
  rw [h.drafts, h.draftByLedger]

theorem Frame.getPublishByLedger (h : Frame s s') (t l : String) :
    s'.store.getPublishByLedger t l = s.store.getPublishByLedger t l := by
  unfold InMemoryTwinStore.getPublishByLedger
  rw [h.publishes, h.publishByLedger]

/-- Posts that neither show a draft text nor reach the channel do not matter. -/
theorem ConsentInv.congr (hI : ConsentInv tenantId draftId ledgerId edits s)
    (hdrafts : s'.store.drafts = s.store.drafts)
    (hindex : s'.store.draftByLedger = s.store.draftByLedger)
    (hshown : lastShown s'.posts = lastShown s.posts) (hconsented : Consented edits s'.posts) :
    ConsentInv tenantId draftId ledgerId edits s' := by
  have hget : ∀ t d, s'.store.getDraft t d = s.store.getDraft t d := by
    intro t d
    unfold InMemoryTwinStore.getDraft
    rw [hdrafts]
  have hledger : ∀ t l, s'.store.getDraftByLedger t l = s.store.getDraftByLedger t l := by
    intro t l
    unfold InMemoryTwinStore.getDraftByLedger InMemoryTwinStore.getDraft
    rw [hdrafts, hindex]
  refine ⟨hconsented, ?_, ?_, ?_, ?_⟩
  · simpa only [hget, hledger] using hI.filed
  · simpa only [hdrafts, hindex] using hI.indexed
  · simpa only [hshown, hledger] using hI.told
  · simpa only [hledger] using hI.supplied

theorem ConsentInv.frame (hI : ConsentInv tenantId draftId ledgerId edits s) (h : Frame s s') :
    ConsentInv tenantId draftId ledgerId edits s' :=
  hI.congr h.drafts h.draftByLedger (by rw [h.posts]) (by rw [h.posts]; exact hI.consented)

/-- A new row for the draft of the ledger. -/
theorem ConsentInv.write (hI : ConsentInv tenantId draftId ledgerId edits s)
    (hrow : s.store.getDraftByLedger tenantId ledgerId = some row) (hkey : draft.key = row.key)
    (hdrafts : s'.store.drafts = s.store.drafts.put draft)
    (hindex : s'.store.draftByLedger = s.store.draftByLedger)
    (hconsented : Consented edits s'.posts)
    (htold : ∀ text, lastShown s'.posts = some text →
      draft.edited = true ∨ draft.draftText = text)
    (hsupplied : draft.edited = true → draft.publishBody ∈ edits) :
    ConsentInv tenantId draftId ledgerId edits s' ∧
      s'.store.getDraftByLedger tenantId ledgerId = some draft := by
  obtain ⟨id, hid, hget⟩ := InMemoryTwinStore.getDraftByLedger_some hrow
  have hkey' : draft.key = (tenantId, id) := hkey.trans (Table.key_of_get hget)
  have hnew : s'.store.getDraftByLedger tenantId ledgerId = some draft := by
    unfold InMemoryTwinStore.getDraftByLedger InMemoryTwinStore.getDraft
    rw [hindex, hid, hdrafts]
    dsimp only
    rw [← hkey', Table.get_put_self]
  refine ⟨⟨hconsented, fun r hr => ?_, fun id' hid' => ?_, fun text htext => ?_, fun r hr => ?_⟩,
    hnew⟩
  · rw [hnew]
    unfold InMemoryTwinStore.getDraft at hr
    rw [hdrafts, Table.get_put] at hr
    split_ifs at hr with heq
    · exact hr
    · -- the draft in question is the draft of the ledger, which was written
      have hsame : s.store.getDraftByLedger tenantId ledgerId = some r := hI.filed r hr
      rw [hrow] at hsame
      cases hsame
      exact absurd ((Table.key_of_get hr).symm.trans hkey.symm) heq
  · rw [hdrafts, Table.get_put]
    split_ifs
    · rfl
    · exact hI.indexed id' (hindex ▸ hid')
  · exact ⟨draft, hnew, htold text htext⟩
  · rw [hnew] at hr
    cases hr
    exact hsupplied

/-- The copy of a draft that a call works on has the texts of the stored one. -/
structure SameText (a b : DraftDelivery) : Prop where
  key : a.key = b.key
  draftText : a.draftText = b.draftText
  editedText : a.editedText = b.editedText

theorem SameText.edited (h : SameText row draft) : row.edited = draft.edited :=
  edited_congr h.editedText

theorem SameText.publishBody (h : SameText row draft) : row.publishBody = draft.publishBody := by
  unfold DraftDelivery.publishBody
  rw [h.editedText, h.draftText]

/-- An update that keeps the texts. -/
theorem ConsentInv.update (hI : ConsentInv tenantId draftId ledgerId edits s)
    (hrow : s.store.getDraftByLedger tenantId ledgerId = some row) (hsame : SameText draft row)
    {r : TwinResult Unit} (hs : answer c (.updateDraft draft) s = some (r, s')) :
    ConsentInv tenantId draftId ledgerId edits s' ∧
      ∃ row', s'.store.getDraftByLedger tenantId ledgerId = some row' ∧ SameText draft row' := by
  obtain ⟨-, rfl⟩ | ⟨-, -, hdrafts, hindex, -⟩ := answer_updateDraft hs
  · exact ⟨hI, row, hrow, hsame⟩
  · have hposts := answer_updateDraft_posts hs
    have htold : ∀ text, lastShown s'.posts = some text →
        draft.edited = true ∨ draft.draftText = text := by
      intro text htext
      rw [hposts] at htext
      obtain ⟨row', hrow', htold⟩ := hI.told text htext
      rw [hrow] at hrow'
      cases hrow'
      rw [hsame.edited, hsame.draftText]
      exact htold
    have hsupplied : draft.edited = true → draft.publishBody ∈ edits := by
      intro hedited
      rw [hsame.publishBody]
      exact hI.supplied row hrow (hsame.edited ▸ hedited)
    obtain ⟨hI', hnew⟩ := hI.write hrow hsame.key hdrafts hindex (hposts ▸ hI.consented) htold
      hsupplied
    exact ⟨hI', draft, hnew, rfl, rfl, rfl⟩

theorem ConsentInv.mono (hI : ConsentInv tenantId draftId ledgerId edits s) (e : String) :
    ConsentInv tenantId draftId ledgerId (e :: edits) s :=
  ⟨hI.consented.mono fun _ h => List.mem_cons_of_mem _ h, hI.filed, hI.indexed, hI.told,
    fun row hrow hedited => List.mem_cons_of_mem _ (hI.supplied row hrow hedited)⟩

end Invariant

/-! ## The programs keep the invariant -/

section Programs
variable {tenantId draftId ledgerId : String} {edits : List String} {svc : DeliveryService}
  {twin : Twin} {ok : Choice → Prop} {s : DeliveryState} {draft : DraftDelivery} {α β : Type}

/-- The texts of the copy are those of the stored draft. -/
def Current (tenantId ledgerId : String) (draft : DraftDelivery) (s : DeliveryState) : Prop :=
  ∃ row, s.store.getDraftByLedger tenantId ledgerId = some row ∧ SameText draft row

theorem Current.frame {s' : DeliveryState} (h : Current tenantId ledgerId draft s)
    (hf : Frame s s') : Current tenantId ledgerId draft s' := by
  obtain ⟨row, hrow, hsame⟩ := h
  exact ⟨row, by rw [hf.getDraftByLedger, hrow], hsame⟩

theorem Current.congr {s' : DeliveryState} {draft' : DraftDelivery}
    (h : Current tenantId ledgerId draft s) (hdrafts : s'.store.drafts = s.store.drafts)
    (hindex : s'.store.draftByLedger = s.store.draftByLedger) (hsame : SameText draft' draft) :
    Current tenantId ledgerId draft' s' := by
  obtain ⟨row, hrow, hrest⟩ := h
  refine ⟨row, ?_, hsame.key.trans hrest.key, hsame.draftText.trans hrest.draftText,
    hsame.editedText.trans hrest.editedText⟩
  unfold InMemoryTwinStore.getDraftByLedger InMemoryTwinStore.getDraft at hrow ⊢
  rw [hdrafts, hindex]
  exact hrow

/-- A call keeps the invariant. -/
abbrev Keeps (tenantId draftId ledgerId : String) (edits : List String) (ok : Choice → Prop)
    (p : DeliveryM α) (s : DeliveryState) : Prop :=
  p.run.Ensures answer ok (fun _ s' => ConsentInv tenantId draftId ledgerId edits s') s

/-- An update of the copy with another status. -/
theorem update_bind_keeps {f : Unit → DeliveryM β} {draft' : DraftDelivery}
    (hI : ConsentInv tenantId draftId ledgerId edits s) (hcur : Current tenantId ledgerId draft s)
    (hsame : SameText draft' draft)
    (hf : ∀ s', ConsentInv tenantId draftId ledgerId edits s' →
      Current tenantId ledgerId draft' s' → s'.posts = s.posts →
      (∀ t l, s'.store.getPublishByLedger t l = s.store.getPublishByLedger t l) →
      Keeps tenantId draftId ledgerId edits ok (f ()) s') :
    Keeps tenantId draftId ledgerId edits ok (ask (.updateDraft draft') >>= f) s := by
  obtain ⟨row, hrow, hrest⟩ := hcur
  have hsame' : SameText draft' row := ⟨hsame.key.trans hrest.key,
    hsame.draftText.trans hrest.draftText, hsame.editedText.trans hrest.editedText⟩
  refine ask_bind_ensures (fun c u s' _ hs => ?_) fun c e s' _ hs => (hI.update hrow hsame' hs).1
  obtain ⟨hI', hcur'⟩ := hI.update hrow hsame' hs
  refine hf s' hI' hcur' (answer_updateDraft_posts hs) fun t l => ?_
  obtain ⟨hindex, hpublishes⟩ := answer_publishes hs nofun
  unfold InMemoryTwinStore.getPublishByLedger
  rw [hindex, hpublishes]

theorem finishDraft_keeps {st : DraftStatus} (hI : ConsentInv tenantId draftId ledgerId edits s)
    (hcur : Current tenantId ledgerId draft s) :
    Keeps tenantId draftId ledgerId edits ok (finishDraft draft st) s := by
  unfold finishDraft
  refine quiet_bind_ensures trivial (fun now s₁ hf => ?_) fun _ s₁ hf => hI.frame hf
  exact update_bind_keeps (hI.frame hf) (hcur.frame hf) ⟨rfl, rfl, rfl⟩ fun s₂ hI₂ _ _ _ => hI₂

theorem bind_finish_keeps {st : DraftStatus} {f : DraftDelivery → DeliveryM β}
    (hI : ConsentInv tenantId draftId ledgerId edits s) (hcur : Current tenantId ledgerId draft s)
    (hf : ∀ d s', ConsentInv tenantId draftId ledgerId edits s' →
      Keeps tenantId draftId ledgerId edits ok (f d) s') :
    Keeps tenantId draftId ledgerId edits ok (finishDraft draft st >>= f) s :=
  bind_ensures (finishDraft_keeps hI hcur) hf fun _ _ h => h

/-- The message that takes the place of a channel post shows no new draft. -/
theorem fallback_shown (userId channel body : String) :
    (ChatPost.dm userId ("✅ *Approved* (channel share skipped — invite the bot to `" ++ channel
        ++ "` for team posts).\n\n" ++ body)).shown = none := by
  simp [ChatPost.shown, Text.stripPrefix, Text.startsWith]

theorem putPublish_bind_keeps {rec : PublishRecord} {f : Bool → DeliveryM β}
    (hI : ConsentInv tenantId draftId ledgerId edits s) (hcur : Current tenantId ledgerId draft s)
    (hf : ∀ b s', ConsentInv tenantId draftId ledgerId edits s' →
      Current tenantId ledgerId draft s' → Keeps tenantId draftId ledgerId edits ok (f b) s') :
    Keeps tenantId draftId ledgerId edits ok (ask (.putPublishIfAbsent rec) >>= f) s := by
  have hkeep : ∀ (c : Choice) (r : TwinResult Bool) (s' : DeliveryState),
      answer c (.putPublishIfAbsent rec) s = some (r, s') →
      ConsentInv tenantId draftId ledgerId edits s' ∧ Current tenantId ledgerId draft s' := by
    intro c r s' hs
    obtain ⟨-, -, rfl⟩ | ⟨-, rfl⟩ := writing_eq (f := fun st => st.putPublishIfAbsent rec) hs
    · exact ⟨hI, hcur⟩
    · have hdrafts : (s.store.putPublishIfAbsent rec).2.drafts = s.store.drafts :=
        InMemoryTwinStore.putPublishIfAbsent_drafts rec
      have hindex : (s.store.putPublishIfAbsent rec).2.draftByLedger = s.store.draftByLedger :=
        InMemoryTwinStore.putPublishIfAbsent_draftByLedger rec
      exact ⟨hI.congr hdrafts hindex rfl hI.consented, hcur.congr hdrafts hindex ⟨rfl, rfl, rfl⟩⟩
  refine ask_bind_ensures (fun c b s' _ hs => ?_) fun c e s' _ hs => (hkeep c _ s' hs).1
  exact hf b s' (hkeep c _ s' hs).1 (hkeep c _ s' hs).2

/-- A post that shows nothing and does not reach the channel. -/
theorem ConsentInv.posted {s' : DeliveryState} {post : ChatPost}
    {outcome r : TwinResult DeliveryPostResult}
    (hI : ConsentInv tenantId draftId ledgerId edits s)
    (hs : s.posting outcome post = some (r, s')) (hshown : post.shown = none)
    (hchannel : ∀ ch body, post ≠ .channel ch body) :
    ConsentInv tenantId draftId ledgerId edits s' := by
  obtain ⟨-, hstore, -, ⟨-, hposts⟩ | ⟨-, hposts⟩⟩ := posting_eq hs
  · refine hI.congr (by rw [hstore]) (by rw [hstore]) ?_ ?_
    · rw [hposts]
      unfold lastShown
      rw [List.findSome?_cons, hshown]
    · rw [hposts]
      cases post with
      | channel ch body => exact absurd rfl (hchannel ch body)
      | dm u text => exact hI.consented
      | draftDm u d text => exact hI.consented
  · exact hI.congr (by rw [hstore]) (by rw [hstore]) (by rw [hposts]) (by rw [hposts]; exact hI.consented)

theorem publishFailed_keeps {channel body : String} {e : TwinError}
    (hI : ConsentInv tenantId draftId ledgerId edits s)
    (hcur : Current tenantId ledgerId draft s) :
    Keeps tenantId draftId ledgerId edits ok (publishFailed svc twin draft channel body e) s := by
  unfold publishFailed
  dsimp only
  split_ifs
  · refine attempt_bind_ensures (aside_ensures (resolveChatUserId_aside _ _)) fun user s₁ h₁ => ?_
    have hI₁ := hI.frame h₁
    have hcur₁ := hcur.frame h₁
    refine attempt_bind_ensures (R := fun _ s' => ConsentInv tenantId draftId ledgerId edits s' ∧
      Current tenantId ledgerId draft s') (ask_ensures fun c r s' _ hs => ?_) ?_
    · have hstore := (posting_eq hs).2.1
      exact ⟨hI₁.posted hs (fallback_shown _ _ _) nofun,
        hcur₁.congr (by rw [hstore]) (by rw [hstore]) ⟨rfl, rfl, rfl⟩⟩
    · rintro (e2 | dm) s₂ ⟨hI₂, hcur₂⟩
      · exact bind_finish_keeps hI₂ hcur₂ fun _ _ h => h
      · refine quiet_bind_ensures trivial (fun uuid s₃ h₃ => ?_) fun _ _ h₃ => hI₂.frame h₃
        refine quiet_bind_ensures trivial (fun now s₄ h₄ => ?_)
          fun _ _ h₄ => (hI₂.frame h₃).frame h₄
        have hf := h₃.trans h₄
        refine putPublish_bind_keeps (hI₂.frame hf) (hcur₂.frame hf) fun _ s₅ hI₅ hcur₅ => ?_
        exact bind_finish_keeps hI₅ hcur₅ fun _ _ h => h
  · exact bind_finish_keeps hI hcur fun _ _ h => h

/-- A post of the copy's text in the channel, that was sent last or written by the person. -/
theorem ConsentInv.postedChannel {s' : DeliveryState} {ch body : String}
    {outcome r : TwinResult DeliveryPostResult}
    (hI : ConsentInv tenantId draftId ledgerId edits s)
    (hs : s.posting outcome (.channel ch body) = some (r, s'))
    (hbody : lastShown s.posts = some body ∨ body ∈ edits) :
    ConsentInv tenantId draftId ledgerId edits s' := by
  obtain ⟨-, hstore, -, ⟨-, hposts⟩ | ⟨-, hposts⟩⟩ := posting_eq hs
  · refine hI.congr (by rw [hstore]) (by rw [hstore]) (by rw [hposts]; rfl) ?_
    rw [hposts]
    exact ⟨hbody, hI.consented⟩
  · exact hI.congr (by rw [hstore]) (by rw [hstore]) (by rw [hposts]) (by rw [hposts]; exact hI.consented)

theorem publishQueued_keeps (hI : ConsentInv tenantId draftId ledgerId edits s)
    (hcur : Current tenantId ledgerId draft s)
    (hbody : s.store.getPublishByLedger draft.tenantId draft.ledgerId = none →
      lastShown s.posts = some draft.publishBody ∨ draft.publishBody ∈ edits) :
    Keeps tenantId draftId ledgerId edits ok (publishQueued svc twin draft) s := by
  unfold publishQueued
  refine read_bind_ensures (v := s.store.getPublishByLedger draft.tenantId draft.ledgerId)
    (fun _ => rfl) ?_ fun _ => hI
  cases hfound : s.store.getPublishByLedger draft.tenantId draft.ledgerId with
  | some existing =>
    refine quiet_bind_ensures trivial (fun now s₁ h₁ => ?_) fun _ _ h₁ => hI.frame h₁
    obtain ⟨row, hrow, hsame⟩ := hcur.frame h₁
    refine attempt_bind_ensures (R := fun _ s' => ConsentInv tenantId draftId ledgerId edits s')
      (ask_ensures fun c r s' _ hs => ?_) fun _ _ h => h
    refine ((hI.frame h₁).update hrow ?_ hs).1
    exact ⟨hsame.key, hsame.draftText, hsame.editedText⟩
  | none =>
    refine attempt_bind_ensures (R := fun _ s' => ConsentInv tenantId draftId ledgerId edits s' ∧
      Current tenantId ledgerId draft s') (ask_ensures fun c r s' _ hs => ?_) ?_
    · have hstore := (posting_eq hs).2.1
      exact ⟨hI.postedChannel hs (hbody hfound),
        hcur.congr (by rw [hstore]) (by rw [hstore]) ⟨rfl, rfl, rfl⟩⟩
    · rintro (e | post) s₁ ⟨hI₁, hcur₁⟩
      · exact publishFailed_keeps hI₁ hcur₁
      · refine quiet_bind_ensures trivial (fun uuid s₂ h₂ => ?_) fun _ _ h₂ => hI₁.frame h₂
        refine quiet_bind_ensures trivial (fun now s₃ h₃ => ?_)
          fun _ _ h₃ => (hI₁.frame h₂).frame h₃
        have hf := h₂.trans h₃
        refine putPublish_bind_keeps (hI₁.frame hf) (hcur₁.frame hf) fun inserted s₄ hI₄ hcur₄ => ?_
        cases inserted with
        | true => exact bind_finish_keeps hI₄ hcur₄ fun _ _ h => h
        | false =>
          refine quiet_bind_ensures trivial (fun existing s₅ h₅ => ?_) fun _ _ h₅ => hI₄.frame h₅
          exact bind_finish_keeps (hI₄.frame h₅) (hcur₄.frame h₅) fun _ _ h => h

theorem tryPublishChannel_keeps (hI : ConsentInv tenantId draftId ledgerId edits s)
    (hcur : Current tenantId ledgerId draft s)
    (hbody : draft.status = .publishQueued →
      s.store.getPublishByLedger draft.tenantId draft.ledgerId = none →
      lastShown s.posts = some draft.publishBody ∨ draft.publishBody ∈ edits) :
    Keeps tenantId draftId ledgerId edits ok (tryPublishChannel svc twin draft) s := by
  unfold tryPublishChannel
  split_ifs with hvetoed hshadow hpublished hqueued
  · exact hI
  · exact hI
  · refine quiet_bind_ensures trivial (fun found s₁ h₁ => ?_) fun _ _ h₁ => hI.frame h₁
    exact hI.frame h₁
  · exact hI
  · exact publishQueued_keeps hI hcur (hbody (not_not.mp hqueued))

/-- What follows a load may rely on the stored draft and ledger. -/
theorem load_bind_keeps {f : DraftDelivery × LedgerSnapshot → DeliveryM β}
    (hI : ConsentInv tenantId draftId ledgerId edits s)
    (hf : ∀ draft snap, s.store.getDraft tenantId draftId = some draft →
      s.store.getLedger tenantId draft.ledgerId = some snap →
      Keeps tenantId draftId ledgerId edits ok (f (draft, snap)) s) :
    Keeps tenantId draftId ledgerId edits ok (loadDraft tenantId draftId >>= f) s := by
  refine bind_ensures (R := fun r s' => s' = s ∧ ∀ y, r = .ok y →
      s.store.getDraft tenantId draftId = some y.1 ∧
      s.store.getLedger tenantId y.1.ledgerId = some y.2) ?_ ?_ ?_
  · unfold loadDraft
    refine read_bind_ensures (v := s.store.getDraft tenantId draftId) (fun _ => rfl) ?_
      fun _ => ⟨rfl, fun _ h => by cases h⟩
    cases hdraft : s.store.getDraft tenantId draftId with
    | none => exact ⟨rfl, fun _ h => by cases h⟩
    | some draft =>
      refine read_bind_ensures (v := s.store.getLedger tenantId draft.ledgerId) (fun _ => rfl) ?_
        fun _ => ⟨rfl, fun _ h => by cases h⟩
      cases hsnap : s.store.getLedger tenantId draft.ledgerId with
      | none => exact ⟨rfl, fun _ h => by cases h⟩
      | some snap => exact ⟨rfl, by rintro y ⟨⟩; exact ⟨rfl, hsnap⟩⟩
  · rintro ⟨draft, snap⟩ s' ⟨rfl, hy⟩
    obtain ⟨hdraft, hsnap⟩ := hy _ rfl
    exact hf draft snap hdraft hsnap
  · rintro e s' ⟨rfl, -⟩
    exact hI

/-- A draft was sent, or the person wrote its text. -/
def toldOrEdited (posts : List ChatPost) (row : DraftDelivery) : Bool :=
  (lastShown posts).isSome || row.edited

theorem body_of_toldOrEdited (hI : ConsentInv tenantId draftId ledgerId edits s)
    (hrow : s.store.getDraft tenantId draftId = some draft)
    (h : toldOrEdited s.posts draft = true) :
    lastShown s.posts = some draft.publishBody ∨ draft.publishBody ∈ edits := by
  have hledger := hI.filed draft hrow
  cases hedited : draft.edited with
  | true => exact .inr (hI.supplied draft hledger hedited)
  | false =>
    simp only [toldOrEdited, hedited, Bool.or_false, Option.isSome_iff_exists] at h
    obtain ⟨text, htext⟩ := h
    obtain ⟨row, hrow', htold⟩ := hI.told text htext
    rw [hledger] at hrow'
    cases hrow'
    rcases htold with hyes | hsame
    · rw [hedited] at hyes
      cases hyes
    · rw [htext, publishBody_of_not_edited hedited, hsame]
      exact .inl rfl

/-- Whether `explicitPublish` goes on to the channel with this draft. -/
def explicitGoesOn (twin : Twin) (row : DraftDelivery) (snap : LedgerSnapshot) : Bool :=
  row.status = .publishQueued ||
    (applyDeliveryEvent row.status .explicitPublish snap.confidenceRollup
      twin.highAutoPublish).isSome

/-- Whether `silenceTimeout` goes on to the channel with this draft. -/
def silenceGoesOn (twin : Twin) (row : DraftDelivery) (snap : LedgerSnapshot) : Bool :=
  silenceMayPublish snap.confidenceRollup &&
    (applyDeliveryEvent row.status .mediumSilenceTimeout snap.confidenceRollup
      twin.highAutoPublish).isSome

/-- A publish finds the draft sent or edited, when it goes on and the ledger is not published. -/
def PublishTold (goesOn : DraftDelivery → LedgerSnapshot → Bool) (tenantId draftId : String)
    (s : DeliveryState) : Prop :=
  ∀ row snap, s.store.getDraft tenantId draftId = some row →
    s.store.getLedger tenantId row.ledgerId = some snap → goesOn row snap = true →
    s.store.getPublishByLedger row.tenantId row.ledgerId = none → toldOrEdited s.posts row = true

theorem current_of_getDraft (hI : ConsentInv tenantId draftId ledgerId edits s)
    (hrow : s.store.getDraft tenantId draftId = some draft) :
    Current tenantId ledgerId draft s :=
  ⟨draft, hI.filed draft hrow, rfl, rfl, rfl⟩

/-- A transition of a loaded draft, then its way to the channel. -/
theorem queue_bind_keeps {now : DateTime} {next : DraftStatus}
    {f : Unit → DeliveryM β} (hI : ConsentInv tenantId draftId ledgerId edits s)
    (hcur : Current tenantId ledgerId draft s)
    (hf : ∀ s', ConsentInv tenantId draftId ledgerId edits s' →
      Current tenantId ledgerId { draft with status := next, updatedAt := now } s' →
      s'.posts = s.posts →
      (∀ t l, s'.store.getPublishByLedger t l = s.store.getPublishByLedger t l) →
      Keeps tenantId draftId ledgerId edits ok (f ()) s') :
    Keeps tenantId draftId ledgerId edits ok
      (ask (.updateDraft { draft with status := next, updatedAt := now }) >>= f) s :=
  update_bind_keeps hI hcur ⟨rfl, rfl, rfl⟩ hf

theorem explicitPublish_keeps (hI : ConsentInv tenantId draftId ledgerId edits s)
    (htold : PublishTold (explicitGoesOn twin) tenantId draftId s) :
    Keeps tenantId draftId ledgerId edits ok (explicitPublish svc twin tenantId draftId) s := by
  refine load_bind_keeps hI fun draft snap hdraft hsnap => ?_
  have hcur := current_of_getDraft hI hdraft
  have hbody := fun hgo hpub =>
    body_of_toldOrEdited hI hdraft (htold draft snap hdraft hsnap hgo hpub)
  dsimp only
  split_ifs with hpublished hvetoed hqueued
  · exact quiet_bind_ensures trivial (fun _ s₁ h₁ => hI.frame h₁) fun _ s₁ h₁ => hI.frame h₁
  · exact hI
  · split
    · exact hI
    · next next hnext =>
      have hgo : explicitGoesOn twin draft snap = true := by simp [explicitGoesOn, hnext]
      refine quiet_bind_ensures trivial (fun now s₁ h₁ => ?_) fun _ s₁ h₁ => hI.frame h₁
      refine queue_bind_keeps (hI.frame h₁) (hcur.frame h₁) fun s₂ hI₂ hcur₂ hposts hpub => ?_
      refine tryPublishChannel_keeps hI₂ hcur₂ fun _ hnone => ?_
      rw [hpub, h₁.getPublishByLedger] at hnone
      rw [hposts, h₁.posts]
      exact hbody hgo hnone
  · have hstatus : draft.status = .publishQueued := not_not.mp hqueued
    have hgo : explicitGoesOn twin draft snap = true := by simp [explicitGoesOn, hstatus]
    exact tryPublishChannel_keeps hI hcur fun _ hnone => hbody hgo hnone

theorem silenceTimeout_keeps (hI : ConsentInv tenantId draftId ledgerId edits s)
    (htold : PublishTold (silenceGoesOn twin) tenantId draftId s) :
    Keeps tenantId draftId ledgerId edits ok (silenceTimeout svc twin tenantId draftId) s := by
  refine load_bind_keeps hI fun draft snap hdraft hsnap => ?_
  have hcur := current_of_getDraft hI hdraft
  have hbody := fun hgo hpub =>
    body_of_toldOrEdited hI hdraft (htold draft snap hdraft hsnap hgo hpub)
  dsimp only
  split_ifs with hmay
  · exact hI
  · split
    · exact hI
    · next next hnext =>
      have hgo : silenceGoesOn twin draft snap = true := by
        simp only [silenceGoesOn, hnext, Option.isSome_some, Bool.and_true]
        simpa using hmay
      refine quiet_bind_ensures trivial (fun now s₁ h₁ => ?_) fun _ s₁ h₁ => hI.frame h₁
      refine queue_bind_keeps (hI.frame h₁) (hcur.frame h₁) fun s₂ hI₂ hcur₂ hposts hpub => ?_
      split_ifs
      · refine tryPublishChannel_keeps hI₂ hcur₂ fun _ hnone => ?_
        rw [hpub, h₁.getPublishByLedger] at hnone
        rw [hposts, h₁.posts]
        exact hbody hgo hnone
      · exact hI₂

theorem vetoDraft_keeps (hI : ConsentInv tenantId draftId ledgerId edits s) :
    Keeps tenantId draftId ledgerId edits ok (vetoDraft tenantId draftId) s := by
  refine load_bind_keeps hI fun draft snap hdraft hsnap => ?_
  have hcur := current_of_getDraft hI hdraft
  dsimp only
  split
  · exact hI
  · refine quiet_bind_ensures trivial (fun now s₁ h₁ => ?_) fun _ s₁ h₁ => hI.frame h₁
    exact queue_bind_keeps (hI.frame h₁) (hcur.frame h₁) fun s₂ hI₂ _ _ _ => hI₂

/-- An edit to the empty text, where it is allowed, gives the word back to the draft text, which is
then the one that was sent last. -/
def EditTold (tenantId draftId text : String) (s : DeliveryState) : Prop :=
  text = "" → ∀ row snap, s.store.getDraft tenantId draftId = some row →
    s.store.getLedger tenantId row.ledgerId = some snap →
    (applyDeliveryEvent row.status .edit snap.confidenceRollup false).isSome = true →
    ∀ shown, lastShown s.posts = some shown → row.draftText = shown

theorem editDraft_keeps {text : String} (hI : ConsentInv tenantId draftId ledgerId edits s)
    (htext : text ∈ edits) (htold : EditTold tenantId draftId text s) :
    Keeps tenantId draftId ledgerId edits ok (editDraft tenantId draftId text) s := by
  refine load_bind_keeps hI fun draft snap hdraft hsnap => ?_
  dsimp only
  split
  · exact hI
  · next next hnext =>
    refine quiet_bind_ensures trivial (fun now s₁ h₁ => ?_) fun _ s₁ h₁ => hI.frame h₁
    have hI₁ := hI.frame h₁
    have hrow : s₁.store.getDraftByLedger tenantId ledgerId = some draft := by
      rw [h₁.getDraftByLedger, hI.filed draft hdraft]
    have hwrite : ∀ (c : Choice) (r : TwinResult Unit) (s₂ : DeliveryState),
        answer c (.updateDraft { draft with
          status := next, editedText := some text, updatedAt := now }) s₁ = some (r, s₂) →
        ConsentInv tenantId draftId ledgerId edits s₂ := by
      intro c r s₂ hs
      obtain ⟨-, rfl⟩ | ⟨-, -, hdrafts, hindex, -⟩ := answer_updateDraft hs
      · exact hI₁
      · have hposts := answer_updateDraft_posts hs
        refine (hI₁.write hrow ?_ hdrafts hindex (hposts ▸ hI₁.consented) ?_ ?_).1
        · rfl
        · intro shown hshown
          by_cases hempty : text = ""
          · rw [hposts, h₁.posts] at hshown
            exact .inr (htold hempty draft snap hdraft hsnap (by rw [hnext]; rfl) shown hshown)
          · exact .inl (decide_eq_true hempty)
        · intro hedited
          have hne : text ≠ "" := of_decide_eq_true hedited
          show (if text = "" then draft.draftText else text) ∈ edits
          rw [if_neg hne]
          exact htext
    exact ask_bind_ensures (fun c _ s₂ _ hs => hwrite c _ s₂ hs) fun c _ s₂ _ hs => hwrite c _ s₂ hs

/-! ### Compiles -/

variable {x : StartInput} {existing : DraftDelivery}

/-- The store does not fail. -/
def NoFault (ok : Choice → Prop) : Prop := ∀ c, ok c → c.fault = none

/-- The store does not fail, and direct messages arrive. -/
def Delivers (ok : Choice → Prop) : Prop := ∀ c, ok c → c.fault = none ∧ ∃ p, c.dm = .ok p

theorem rememberNotify_ensures {state : NotifyState} :
    (rememberNotify twin state).run.Ensures answer ok (fun r s' => Frame s s' ∧ r = .ok ()) s := by
  unfold rememberNotify
  refine ask_bind_ensures (fun c now s₁ _ hs => ?_) fun c e s₁ _ hs => by cases hs
  cases hs
  refine attempt_bind_ensures (R := fun _ s' => Frame s s') (ask_ensures fun c r s₂ _ hs => ?_)
    fun r s₂ h₂ => ⟨h₂, rfl⟩
  exact answer_quiet hs trivial

theorem resolveChatUserId_ensures (hok : NoFault ok) (adapter : DeliveryAdapterKind) :
    (resolveChatUserId twin adapter).run.Ensures answer ok
      (fun r s' => Frame s s' ∧ ∃ user, r = .ok user) s := by
  have hmap : ∀ {f : Option SlackUserMap → DeliveryM String},
      (∀ m s', Frame s s' → (f m).run.Ensures answer ok
        (fun r s'' => Frame s s'' ∧ ∃ user, r = .ok user) s') →
      (ask (.getSlackMap twin.tenantId twin.subjectId) >>= f).run.Ensures answer ok
        (fun r s' => Frame s s' ∧ ∃ user, r = .ok user) s := by
    intro f hf
    refine ask_bind_ensures (fun c m s' _ hs => hf m s' (answer_quiet hs trivial)) ?_
    intro c e s' hc hs
    cases (reading_eq hs).2 (hok c hc)
  cases adapter with
  | teams =>
    unfold resolveChatUserId
    dsimp only
    split
    · exact ⟨Frame.refl s, _, rfl⟩
    · refine hmap fun m s' h => ?_
      rcases m with _ | m
      · exact ⟨h, _, rfl⟩
      · dsimp only
        split_ifs <;> exact ⟨h, _, rfl⟩
  | slack => exact hmap fun m s' h => by cases m <;> exact ⟨h, _, rfl⟩
  | mock => exact hmap fun m s' h => by cases m <;> exact ⟨h, _, rfl⟩

/-- What sending a draft leaves behind: the rows as they were, and the message with the draft if the
call went well that far. -/
structure Sending (draft : DraftDelivery) (text : String) (s : DeliveryState)
    (r : TwinResult (DraftDelivery × Bool)) (s' : DeliveryState) : Prop where
  drafts : s'.store.drafts = s.store.drafts
  draftByLedger : s'.store.draftByLedger = s.store.draftByLedger
  result : ∀ y, r = .ok y → SameText y.1 draft ∧ y.1.ledgerKey = draft.ledgerKey
  posts : s'.posts = s.posts ∨
    (∃ user, s'.posts = .draftDm user draft.draftId text :: s.posts) ∧ ∃ y, r = .ok y

theorem Sending.of_frame {s' : DeliveryState} {r : TwinResult (DraftDelivery × Bool)} {text : String}
    (h : Frame s s')
    (hr : ∀ y, r = .ok y → SameText y.1 draft ∧ y.1.ledgerKey = draft.ledgerKey) :
    Sending draft text s r s' :=
  ⟨h.drafts, h.draftByLedger, hr, .inl h.posts⟩

theorem sendDraft_ensures :
    (sendDraft svc x draft).run.Ensures answer ok (fun r s' => Sending draft x.draftText s r s' ∧
      (Delivers ok → ∃ user, s'.posts = .draftDm user draft.draftId x.draftText :: s.posts)) s := by
  unfold sendDraft
  refine bind_ensures (R := fun r s' => Frame s s' ∧ (NoFault ok → ∃ user, r = .ok user)) ?_ ?_ ?_
  · by_cases hok : NoFault ok
    · exact (resolveChatUserId_ensures hok svc.adapterKind).mono fun r s' h => ⟨h.1, fun _ => h.2⟩
    · exact (aside_ensures (resolveChatUserId_aside _ _)).mono fun r s' h =>
        ⟨h, fun h' => absurd h' hok⟩
  · rintro user s₁ ⟨h₁, -⟩
    refine attempt_bind_ensures (R := fun r s' => s'.store = s₁.store ∧
      ((∃ p, r = .ok p) ∧ s'.posts = .draftDm user draft.draftId x.draftText :: s₁.posts ∨
        (∃ e, r = .error e) ∧ s'.posts = s₁.posts ∧ ¬ Delivers ok))
      (ask_ensures fun c r s₂ hc hs => ?_) ?_
    · obtain ⟨hr, hstore, -, ⟨hp, hposts⟩ | ⟨⟨e, he⟩, hposts⟩⟩ := posting_eq hs
      · exact ⟨hstore, .inl ⟨hp, hposts⟩⟩
      · refine ⟨hstore, .inr ⟨⟨e, he⟩, hposts, fun hdeliver => ?_⟩⟩
        obtain ⟨-, p, hp⟩ := hdeliver c hc
        rw [hr, hp] at he
        cases he
    · rintro (e | dm) s₂ ⟨hstore, ⟨hp, hposts⟩ | ⟨he, hposts, hnot⟩⟩
      · obtain ⟨p, hp⟩ := hp
        cases hp
      · refine ⟨⟨by rw [hstore, h₁.drafts], by rw [hstore, h₁.draftByLedger], ?_,
          .inl (hposts.trans h₁.posts)⟩, fun h => absurd h hnot⟩
        rintro y ⟨⟩
        exact ⟨⟨rfl, rfl, rfl⟩, rfl⟩
      · refine bind_ensures rememberNotify_ensures ?_ fun e s₃ h => by cases h.2
        rintro _ s₃ ⟨h₃, -⟩
        have hsent : s₃.posts = .draftDm user draft.draftId x.draftText :: s.posts := by
          rw [h₃.posts, hposts, h₁.posts]
        refine ⟨⟨by rw [h₃.drafts, hstore, h₁.drafts],
          by rw [h₃.draftByLedger, hstore, h₁.draftByLedger], ?_,
          .inr ⟨⟨user, hsent⟩, _, rfl⟩⟩, fun _ => ⟨user, hsent⟩⟩
        rintro y ⟨⟩
        exact ⟨⟨rfl, rfl, rfl⟩, rfl⟩
      · obtain ⟨e, he⟩ := he
        cases he
  · rintro e s₁ ⟨h₁, hno⟩
    refine ⟨Sending.of_frame h₁ fun _ h => (by cases h), fun hdeliver => ?_⟩
    obtain ⟨user, hu⟩ := hno fun c hc => (hdeliver c hc).1
    cases hu

/-- Whether a recompile sends the draft again. -/
def resends (svc : DeliveryService) (x : StartInput) (row : DraftDelivery) : Bool :=
  upgradable x row && (upgradeSends svc x
    && (upgradeStatus x = .pending || upgradeStatus x = .forceHuman))

/-- A recompile of an open draft that was sent, and that the person did not write, has the same text,
or sends the new one; and what is sent is also stored. -/
structure RecompileTold (svc : DeliveryService) (x : StartInput) (ok : Choice → Prop)
    (posts : List ChatPost) (row : DraftDelivery) : Prop where
  text : row.status.openish = true → (lastShown posts).isSome = true → row.edited = false →
    x.draftText ≠ row.draftText → resends svc x row = true ∧ Delivers ok
  stored : resends svc x row = true → row.edited = false → NoFault ok

/-- The row after a recompile. -/
structure Recompiled (x : StartInput) (draft existing : DraftDelivery) : Prop where
  key : draft.key = existing.key
  draftText : draft.draftText = x.draftText
  editedText : draft.editedText = existing.editedText

theorem refreshed_recompiled (h : existing.status.openish = true) :
    Recompiled x (refreshed x existing) existing := by
  unfold refreshed
  rw [if_pos h]
  exact ⟨rfl, rfl, rfl⟩

/-- The write of a recompiled row. -/
theorem recompiled_write {s' s'' : DeliveryState} {c : Choice} {r : TwinResult Unit}
    (hI : ConsentInv tenantId draftId ledgerId edits s)
    (hrow : s.store.getDraftByLedger tenantId ledgerId = some existing)
    (hre : Recompiled x draft existing) (hdrafts : s'.store.drafts = s.store.drafts)
    (hindex : s'.store.draftByLedger = s.store.draftByLedger)
    (hconsented : Consented edits s'.posts)
    (htold : ∀ text, lastShown s'.posts = some text → existing.edited = true ∨ x.draftText = text)
    (hstored : existing.edited = false → s'.posts ≠ s.posts → c.fault = none)
    (hs : answer c (.updateDraft draft) s' = some (r, s'')) :
    ConsentInv tenantId draftId ledgerId edits s'' := by
  have hedited : draft.edited = existing.edited := edited_congr hre.editedText
  obtain ⟨id, -, hget⟩ := InMemoryTwinStore.getDraftByLedger_some hrow
  have hhas : s'.store.drafts.has draft.key = true := by
    refine Table.has_iff.mpr ⟨existing, ?_⟩
    rw [hdrafts, hre.key, Table.key_of_get hget]
    exact hget
  have hposts := answer_updateDraft_posts hs
  have hsupplied : existing.edited = true → draft.publishBody ∈ edits := by
    intro h
    rw [publishBody_of_edited hre.editedText h]
    exact hI.supplied existing hrow h
  obtain ⟨herror, rfl⟩ | ⟨-, -, hput, hkept, -⟩ := answer_updateDraft hs
  · -- the write failed: then the texts are as they were
    refine ⟨hconsented, ?_, ?_, fun text htext => ?_, ?_⟩
    · simpa only [InMemoryTwinStore.getDraft, InMemoryTwinStore.getDraftByLedger, hdrafts, hindex]
        using hI.filed
    · simpa only [hdrafts, hindex] using hI.indexed
    · refine ⟨existing, ?_, ?_⟩
      · simpa only [InMemoryTwinStore.getDraft, InMemoryTwinStore.getDraftByLedger, hdrafts, hindex]
          using hrow
      · cases he : existing.edited with
        | true => exact .inl rfl
        | false =>
          have hsame : s''.posts = s.posts := by
            by_contra hne
            obtain ⟨e, he'⟩ := herror
            rw [(answer_updateDraft_of_has hs (hstored he hne) hhas).1] at he'
            cases he'
          rw [hsame] at htext
          obtain ⟨row, hrow', hor⟩ := hI.told text htext
          rw [hrow] at hrow'
          cases hrow'
          rwa [he] at hor
    · simpa only [InMemoryTwinStore.getDraft, InMemoryTwinStore.getDraftByLedger, hdrafts, hindex]
        using hI.supplied
  · refine (hI.write hrow hre.key ?_ ?_ (hposts ▸ hconsented) ?_ ?_).1
    · rw [hput, hdrafts]
    · rw [hkept, hindex]
    · intro text htext
      rw [hposts] at htext
      rw [hedited, hre.draftText]
      exact htold text htext
    · rw [hedited]
      exact hsupplied

/-- What was sent last is the text, if the recompile leaves it as it is. -/
theorem told_of_unsent (hI : ConsentInv tenantId draftId ledgerId edits s)
    (hrow : s.store.getDraftByLedger tenantId ledgerId = some existing)
    (hopen : existing.status.openish = true)
    (htold : RecompileTold svc x ok s.posts existing)
    (hunsent : resends svc x existing = true → ¬ Delivers ok) {text : String}
    (htext : lastShown s.posts = some text) : existing.edited = true ∨ x.draftText = text := by
  cases hedited : existing.edited with
  | true => exact .inl rfl
  | false =>
    obtain ⟨row, hrow', hor⟩ := hI.told text htext
    rw [hrow] at hrow'
    cases hrow'
    rw [hedited] at hor
    have hsame : existing.draftText = text := hor.resolve_left Bool.false_ne_true
    by_cases hx : x.draftText = existing.draftText
    · exact .inr (hx.trans hsame)
    · have hsome : (lastShown s.posts).isSome = true := by rw [htext]; rfl
      obtain ⟨hresends, hdeliver⟩ := htold.text hopen hsome hedited hx
      exact absurd hdeliver (hunsent hresends)

theorem upgradeNotify_ensures (existing : DraftDelivery) (hresends : ∀ b, resends svc x existing = b →
      (upgradeSends svc x && (upgradeStatus x = .pending || upgradeStatus x = .forceHuman)) = b) :
    (upgradeNotify svc x draft).run.Ensures answer ok
      (fun r s' => Sending draft x.draftText s r s' ∧
        (s'.posts ≠ s.posts → resends svc x existing = true) ∧
        (resends svc x existing = true → Delivers ok →
          ∃ user, s'.posts = .draftDm user draft.draftId x.draftText :: s.posts)) s := by
  unfold upgradeNotify
  split_ifs with hsends
  · refine sendDraft_ensures.mono fun r s' h => ⟨h.1, fun _ => ?_, fun _ => h.2⟩
    cases hr : resends svc x existing with
    | true => rfl
    | false =>
      rw [hresends _ hr] at hsends
      cases hsends
  · have hno : ¬ resends svc x existing = true := fun h => hsends (hresends _ h)
    refine bind_ensures (aside_ensures (rememberUnchanged_aside _ _)) (fun _ s₁ h₁ => ?_)
      fun e s₁ h₁ => ?_
    · refine ⟨Sending.of_frame h₁ ?_, fun hne => absurd h₁.posts hne, fun h => absurd h hno⟩
      rintro y ⟨⟩
      exact ⟨⟨rfl, rfl, rfl⟩, rfl⟩
    · exact ⟨Sending.of_frame h₁ fun _ h => (by cases h), fun hne => absurd h₁.posts hne,
        fun h => absurd h hno⟩

theorem restartDraft_keeps (hI : ConsentInv tenantId draftId ledgerId edits s)
    (hrow : s.store.getDraftByLedger tenantId ledgerId = some existing)
    (htold : RecompileTold svc x ok s.posts existing) :
    Keeps tenantId draftId ledgerId edits ok (restartDraft svc x existing) s := by
  unfold restartDraft
  split_ifs with hup hopen
  · have hopen : existing.status.openish = true := by
      simp only [upgradable, Bool.and_eq_true] at hup
      exact hup.2
    have hre := refreshed_recompiled (x := x) hopen
    unfold upgradeDraft
    refine bind_ensures (upgradeNotify_ensures existing fun b hb => ?_) ?_ ?_
    · rw [← hb]
      simp [resends, hup]
    · rintro ⟨y, sent⟩ s₁ ⟨hsending, hposts, hdeliver⟩
      obtain ⟨hsame, -⟩ := hsending.result _ rfl
      have hre' : Recompiled x { y with updatedAt := x.now } existing :=
        ⟨hsame.key.trans hre.key, hsame.draftText.trans hre.draftText,
          hsame.editedText.trans hre.editedText⟩
      have hwrite : ∀ c r s₂, ok c →
          answer c (.updateDraft { y with updatedAt := x.now }) s₁ = some (r, s₂) →
          ConsentInv tenantId draftId ledgerId edits s₂ := by
        intro c r s₂ hc hs
        refine recompiled_write hI hrow hre' hsending.drafts hsending.draftByLedger ?_ ?_ ?_ hs
        · rcases hsending.posts with heq | ⟨⟨user, heq⟩, -⟩ <;> rw [heq] <;> exact hI.consented
        · intro text htext
          rcases hsending.posts with heq | ⟨⟨user, heq⟩, -⟩
          · rw [heq] at htext
            refine told_of_unsent hI hrow hopen htold (fun h hd => ?_) htext
            obtain ⟨user, hu⟩ := hdeliver h hd
            rw [heq] at hu
            exact absurd hu.symm (List.cons_ne_self _ _)
          · rw [heq] at htext
            exact .inr (Option.some.inj htext)
        · intro hedited hne
          exact htold.stored (hposts hne) hedited c hc
      exact ask_bind_ensures (fun c _ s₂ hc hs => hwrite c _ s₂ hc hs)
        fun c _ s₂ hc hs => hwrite c _ s₂ hc hs
    · rintro e s₁ ⟨hsending, -, -⟩
      rcases hsending.posts with heq | ⟨-, y, hy⟩
      · exact hI.congr hsending.drafts hsending.draftByLedger (by rw [heq])
          (by rw [heq]; exact hI.consented)
      · cases hy
  · have hno : ¬ resends svc x existing = true := by
      intro h
      simp only [resends, Bool.and_eq_true] at h
      exact hup h.1
    have hwrite : ∀ c r s₂, ok c →
        answer c (.updateDraft (refreshed x existing)) s = some (r, s₂) →
        ConsentInv tenantId draftId ledgerId edits s₂ := by
      intro c r s₂ hc hs
      refine recompiled_write hI hrow (refreshed_recompiled hopen) rfl rfl hI.consented ?_ ?_ hs
      · intro text htext
        exact told_of_unsent hI hrow hopen htold (fun h => absurd h hno) htext
      · intro _ hne
        exact absurd rfl hne
    exact ask_bind_ensures (fun c _ s₂ hc hs => hwrite c _ s₂ hc hs)
      fun c _ s₂ hc hs => hwrite c _ s₂ hc hs
  · exact hI

theorem index_none (hI : ConsentInv tenantId draftId ledgerId edits s)
    (hnone : s.store.getDraftByLedger tenantId ledgerId = none) :
    s.store.draftByLedger.get (tenantId, ledgerId) = none := by
  cases hid : s.store.draftByLedger.get (tenantId, ledgerId) with
  | none => rfl
  | some id =>
    have hrow : s.store.drafts.get (tenantId, id) = none := by
      unfold InMemoryTwinStore.getDraftByLedger at hnone
      rw [hid] at hnone
      exact hnone
    have hsome := hI.indexed id hid
    rw [hrow] at hsome
    cases hsome

/-- The first write of the draft of a ledger. -/
theorem created_put {s' s'' : DeliveryState} {c : Choice} {r : TwinResult Unit}
    (hI : ConsentInv tenantId draftId ledgerId edits s)
    (hnone : s.store.getDraftByLedger tenantId ledgerId = none)
    (hkey : draft.ledgerKey = (tenantId, ledgerId)) (hnew : draft.edited = false)
    (hdrafts : s'.store.drafts = s.store.drafts)
    (hindex : s'.store.draftByLedger = s.store.draftByLedger)
    (hconsented : Consented edits s'.posts)
    (htold : ∀ text, lastShown s'.posts = some text → draft.draftText = text)
    (hstored : s'.posts ≠ s.posts → c.fault = none)
    (hs : answer c (.putDraft draft) s' = some (r, s'')) :
    ConsentInv tenantId draftId ledgerId edits s'' ∧
      (r = .ok () → Current tenantId ledgerId draft s'') := by
  have hfree : s'.store.draftByLedger.get draft.ledgerKey = none := by
    rw [hkey, hindex]
    exact index_none hI hnone
  have hposts := answer_putDraft_posts hs
  obtain ⟨⟨e, rfl⟩, rfl⟩ | ⟨-, -, hput, hfiled, -⟩ := answer_putDraft hs
  · have hsame : s''.posts = s.posts := by
      by_contra hne
      cases (answer_putDraft_of_free hs (hstored hne) hfree).1
    exact ⟨hI.congr hdrafts hindex (by rw [hsame]) hconsented, nofun⟩
  · obtain ⟨htenant, -⟩ := Prod.mk.inj hkey
    have hdraft : draft.key = (tenantId, draft.draftId) := Prod.ext htenant rfl
    have hrow : s''.store.getDraftByLedger tenantId ledgerId = some draft := by
      unfold InMemoryTwinStore.getDraftByLedger InMemoryTwinStore.getDraft
      rw [hfiled, hput, ← hkey, KMap.get_put_self]
      dsimp only
      rw [← hdraft, Table.get_put_self]
    refine ⟨⟨hposts ▸ hconsented, fun row hr => ?_, fun id hid => ?_, fun text htext => ?_,
      fun row hr hedited => ?_⟩, fun _ => ⟨draft, hrow, rfl, rfl, rfl⟩⟩
    · unfold InMemoryTwinStore.getDraft at hr
      rw [hput, Table.get_put] at hr
      split_ifs at hr
      · rw [hrow]
        exact hr
      · rw [hdrafts] at hr
        have hold := hI.filed row hr
        rw [hnone] at hold
        cases hold
    · rw [hfiled, ← hkey, KMap.get_put_self] at hid
      cases hid
      rw [hput, ← hdraft, Table.get_put_self]
      rfl
    · rw [hposts] at htext
      exact ⟨draft, hrow, .inr (htold text htext)⟩
    · rw [hrow] at hr
      cases hr
      rw [hnew] at hedited
      cases hedited

theorem unshown (hI : ConsentInv tenantId draftId ledgerId edits s)
    (hnone : s.store.getDraftByLedger tenantId ledgerId = none) : lastShown s.posts = none := by
  cases hshown : lastShown s.posts with
  | none => rfl
  | some text =>
    obtain ⟨row, hrow, -⟩ := hI.told text hshown
    rw [hnone] at hrow
    cases hrow

/-- The message of an auto-publish, when messages arrive. -/
theorem autoMessage_ensures (hdeliver : Delivers ok) (hconsented : Consented edits s.posts) :
    (do
      let chatUser ← resolveChatUserId x.twin svc.adapterKind
      ask (.postDm chatUser ("Auto-publishing high confidence status:\n" ++ x.draftText))
        : DeliveryM DeliveryPostResult).run.Ensures answer ok
      (fun _ s' => s'.store.drafts = s.store.drafts ∧
        s'.store.draftByLedger = s.store.draftByLedger ∧ Consented edits s'.posts ∧
        lastShown s'.posts = some x.draftText) s := by
  refine bind_ensures (resolveChatUserId_ensures (fun c hc => (hdeliver c hc).1) _) ?_ ?_
  · rintro user s₁ ⟨h₁, -⟩
    refine ask_ensures fun c r s₂ hc hs => ?_
    obtain ⟨-, p, hp⟩ := hdeliver c hc
    obtain ⟨hr, hstore, -, ⟨-, hposts⟩ | ⟨⟨e, he⟩, -⟩⟩ := posting_eq hs
    · refine ⟨by rw [hstore, h₁.drafts], by rw [hstore, h₁.draftByLedger], ?_, ?_⟩
      · rw [hposts, h₁.posts]
        exact hconsented
      · have hshown : (ChatPost.dm user ("Auto-publishing high confidence status:\n" ++
            x.draftText)).shown = some x.draftText := Text.stripPrefix_append _ _
        rw [hposts, lastShown, List.findSome?_cons, hshown]
    · rw [hr, hp] at he
      cases he
  · rintro e s₁ ⟨-, user, hu⟩
    cases hu

theorem autoPublish_keeps (hI : ConsentInv tenantId draftId ledgerId edits s)
    (hnone : s.store.getDraftByLedger tenantId ledgerId = none)
    (hkey : draft.ledgerKey = (tenantId, ledgerId)) (htext : draft.draftText = x.draftText)
    (hnew : draft.editedText = none) (hdeliver : Delivers ok) :
    Keeps tenantId draftId ledgerId edits ok (autoPublish svc x draft) s := by
  unfold autoPublish
  refine attempt_bind_ensures (autoMessage_ensures hdeliver hI.consented) ?_
  rintro r s₁ ⟨hdrafts, hindex, hconsented, hshown⟩
  have hrest : ∀ d : DraftDelivery, d.ledgerKey = draft.ledgerKey → d.draftText = draft.draftText →
      d.editedText = draft.editedText →
      Keeps tenantId draftId ledgerId edits ok (publishStored svc x d) s₁ := by
    intro d hledger hd hedited
    have hunedited : d.edited = false := by
      unfold DraftDelivery.edited
      rw [hedited, hnew]
    have hput : ∀ c r s₂, ok c → answer c (.putDraft d) s₁ = some (r, s₂) →
        ConsentInv tenantId draftId ledgerId edits s₂ ∧
          (r = .ok () → Current tenantId ledgerId d s₂) := by
      intro c r s₂ hc hs
      refine created_put hI hnone (hledger.trans hkey) hunedited hdrafts hindex hconsented
        (fun text htext' => ?_) (fun _ => (hdeliver c hc).1) hs
      rw [hshown] at htext'
      rw [hd, htext]
      exact Option.some.inj htext'
    refine ask_bind_ensures (fun c u s₂ hc hs => ?_) fun c e s₂ hc hs => (hput c _ s₂ hc hs).1
    obtain ⟨hI₂, hcur⟩ := hput c _ s₂ hc hs
    refine bind_ensures (tryPublishChannel_keeps hI₂ (hcur rfl) fun _ _ => ?_) ?_ fun _ _ h => h
    · rw [answer_putDraft_posts hs, hshown, publishBody_of_not_edited hunedited, hd, htext]
      exact .inl rfl
    · rintro y s₃ hI₃
      exact aside_bind_ensures (rememberNotify_aside _ _) (fun _ s₄ h₄ => hI₃.frame h₄)
        fun _ s₄ h₄ => hI₃.frame h₄
  cases r with
  | error e => exact hrest draft rfl rfl rfl
  | ok dm => exact hrest _ rfl rfl rfl

theorem createNotify_ensures :
    (createNotify svc x draft).run.Ensures answer ok
      (fun r s' => Sending draft x.draftText s r s') s := by
  unfold createNotify
  split_ifs
  · exact sendDraft_ensures.mono fun _ _ h => h.1
  · refine Sending.of_frame (Frame.refl s) ?_
    rintro y ⟨⟩
    exact ⟨⟨rfl, rfl, rfl⟩, rfl⟩

theorem createDraft_keeps (hI : ConsentInv tenantId draftId ledgerId edits s)
    (hnone : s.store.getDraftByLedger tenantId ledgerId = none)
    (htenant : x.twin.tenantId = tenantId) (hledger : x.snap.ledgerId = ledgerId)
    (hstored : createSends svc x = true → NoFault ok)
    (hauto : autoPublishes svc x = true → Delivers ok) :
    Keeps tenantId draftId ledgerId edits ok (createDraft svc x) s := by
  have hkey : ∀ uuid st, (newDraft svc x uuid st).ledgerKey = (tenantId, ledgerId) := by
    intro uuid st
    simp [newDraft, DraftDelivery.ledgerKey, htenant, hledger]
  unfold createDraft
  refine quiet_bind_ensures trivial (fun uuid s₁ h₁ => ?_) fun _ s₁ h₁ => hI.frame h₁
  have hI₁ := hI.frame h₁
  have hnone₁ : s₁.store.getDraftByLedger tenantId ledgerId = none := by
    rw [h₁.getDraftByLedger, hnone]
  -- quiet: stored without a word; sure enough: published at once; else: shown, then stored
  have hunshown := unshown hI₁ hnone₁
  dsimp only
  split_ifs with hquiet hpublish
  · have hput : ∀ c r s₂, answer c (.putDraft (newDraft svc x uuid (createStatus svc x))) s₁ =
        some (r, s₂) → ConsentInv tenantId draftId ledgerId edits s₂ := by
      intro c r s₂ hs
      refine (created_put hI₁ hnone₁ (hkey _ _) rfl rfl rfl hI₁.consented (fun text htext => ?_)
        (fun hne => absurd rfl hne) hs).1
      rw [hunshown] at htext
      cases htext
    refine ask_bind_ensures (fun c _ s₂ _ hs => ?_) fun c _ s₂ _ hs => hput c _ s₂ hs
    exact aside_bind_ensures (rememberUnchanged_aside _ _)
      (fun _ s₃ h₃ => (hput c _ s₂ hs).frame h₃) fun _ s₃ h₃ => (hput c _ s₂ hs).frame h₃
  · exact autoPublish_keeps hI₁ hnone₁ (hkey _ _) rfl rfl (hauto hpublish)
  · have hsends : createSends svc x = true := by
      simp only [Bool.or_eq_true, not_or, Bool.not_eq_true', Bool.not_eq_false] at hquiet
      exact hquiet.2
    refine bind_ensures createNotify_ensures ?_ ?_
    · rintro ⟨draft, sent⟩ s₂ hsending
      obtain ⟨hsame, hledgerKey⟩ := hsending.result _ rfl
      have hput : ∀ c r s₃, ok c → answer c (.putDraft draft) s₂ = some (r, s₃) →
          ConsentInv tenantId draftId ledgerId edits s₃ := by
        intro c r s₃ hc hs
        have hunedited : draft.edited = false := edited_congr hsame.editedText
        refine (created_put hI₁ hnone₁ (hledgerKey.trans (hkey _ _)) hunedited hsending.drafts
          hsending.draftByLedger ?_ (fun text htext => ?_) (fun _ => hstored hsends c hc) hs).1
        · rcases hsending.posts with heq | ⟨⟨user, heq⟩, -⟩ <;> rw [heq] <;> exact hI₁.consented
        · rcases hsending.posts with heq | ⟨⟨user, heq⟩, -⟩
          · rw [heq, hunshown] at htext
            cases htext
          · rw [heq] at htext
            exact hsame.draftText.trans (Option.some.inj htext)
      exact ask_bind_ensures (fun c _ s₃ hc hs => hput c _ s₃ hc hs)
        fun c _ s₃ hc hs => hput c _ s₃ hc hs
    · rintro e s₂ hsending
      rcases hsending.posts with heq | ⟨-, y, hy⟩
      · exact hI₁.congr hsending.drafts hsending.draftByLedger (by rw [heq])
          (by rw [heq]; exact hI₁.consented)
      · cases hy

end Programs

/-! ## Runs -/

/-- A call, with all that its environment decides. -/
structure CallRun where
  call : DeliveryCall
  env : ℕ → Choice

/-- The state between the calls, and the texts that the edits so far have supplied. -/
structure ConsentState where
  state : DeliveryState
  edits : List String

namespace CallRun

/-- The choices that the call can meet. -/
def Meets (run : CallRun) (c : Choice) : Prop := ∃ n, run.env n = c

def editText (run : CallRun) : List String :=
  match run.call with
  | .editDraft _ _ text => [text]
  | _ => []

/-- The state after the call. An environment that hands out an identifier twice cannot be; it leaves
the state as it is. -/
def after (svc : DeliveryService) (run : CallRun) (s : DeliveryState) : DeliveryState :=
  match (run.call.program svc).run.exec answer run.env s with
  | some (_, s') => s'
  | none => s

/-- The call neither publishes a draft that was not sent, nor changes the text of one that was. -/
def Told (svc : DeliveryService) (s : DeliveryState) (run : CallRun) : Prop :=
  match run.call with
  | .explicitPublish twin t d => PublishTold (explicitGoesOn twin) t d s
  | .silenceTimeout twin t d => PublishTold (silenceGoesOn twin) t d s
  | .vetoDraft _ _ => True
  | .editDraft t d text => EditTold t d text s
  | .startAfterCompileOpts x =>
    (∀ row, s.store.getDraftByLedger x.twin.tenantId x.snap.ledgerId = some row →
      RecompileTold svc x run.Meets s.posts row) ∧
    (s.store.getDraftByLedger x.twin.tenantId x.snap.ledgerId = none →
      (createSends svc x = true → NoFault run.Meets) ∧
      (autoPublishes svc x = true → Delivers run.Meets))

end CallRun

def ConsentState.step (svc : DeliveryService) (x : ConsentState) (run : CallRun) : ConsentState :=
  ⟨run.after svc x.state, run.editText ++ x.edits⟩

section Run
variable {tenantId draftId ledgerId : String} {edits : List String} {svc : DeliveryService}
  {s : DeliveryState} {run : CallRun}

/-- The result of a call is dropped. -/
theorem drop_keeps {ok : Choice → Prop} {α : Type} {p : DeliveryM α}
    (h : Keeps tenantId draftId ledgerId edits ok p s) :
    Keeps tenantId draftId ledgerId edits ok (p >>= fun _ => (pure () : DeliveryM Unit)) s :=
  bind_ensures h (fun _ _ h => h) fun _ _ h => h

theorem program_keeps (hI : ConsentInv tenantId draftId ledgerId edits s)
    (hcall : run.call.OnDraft tenantId draftId ledgerId) (htold : run.Told svc s) :
    Keeps tenantId draftId ledgerId (run.editText ++ edits) run.Meets (run.call.program svc) s := by
  obtain ⟨call, env⟩ := run
  cases call with
  | explicitPublish twin t d =>
    obtain ⟨rfl, rfl⟩ := hcall
    exact drop_keeps (explicitPublish_keeps hI htold)
  | silenceTimeout twin t d =>
    obtain ⟨rfl, rfl⟩ := hcall
    exact drop_keeps (silenceTimeout_keeps hI htold)
  | vetoDraft t d =>
    obtain ⟨rfl, rfl⟩ := hcall
    exact drop_keeps (vetoDraft_keeps hI)
  | editDraft t d text =>
    obtain ⟨rfl, rfl⟩ := hcall
    exact drop_keeps (editDraft_keeps (hI.mono text) List.mem_cons_self htold)
  | startAfterCompileOpts x =>
    obtain ⟨htenant, hledger⟩ := hcall
    obtain ⟨hsome, hnone⟩ := htold
    rw [htenant, hledger] at hsome hnone
    refine drop_keeps ?_
    unfold startAfterCompileOpts
    rw [htenant, hledger]
    refine read_bind_ensures (v := s.store.getDraftByLedger tenantId ledgerId) (fun _ => rfl) ?_
      fun _ => hI
    cases hrow : s.store.getDraftByLedger tenantId ledgerId with
    | some existing => exact restartDraft_keeps hI hrow (hsome existing hrow)
    | none =>
      obtain ⟨hstored, hauto⟩ := hnone hrow
      exact createDraft_keeps hI hrow htenant hledger hstored hauto

/-- One call keeps the invariant. -/
theorem consent_step (hI : ConsentInv tenantId draftId ledgerId edits s)
    (hcall : run.call.OnDraft tenantId draftId ledgerId) (htold : run.Told svc s) :
    ConsentInv tenantId draftId ledgerId (run.editText ++ edits) (run.after svc s) := by
  unfold CallRun.after
  split
  · next r s' he => exact (program_keeps hI hcall htold).of_exec (fun n => ⟨n, rfl⟩) he
  · cases run with
    | mk call env =>
      cases call with
      | editDraft t d text => exact hI.mono text
      | _ => exact hI

/-- **Consent.** In a run of calls on one draft, from the time before it is made, every text that
reaches the channel was sent to the person last before it or comes from an edit, if every call of the
run meets `Told`. -/
theorem consented_run (svc : DeliveryService) {tenantId draftId ledgerId : String}
    {state : DeliveryState} (hposts : state.posts = [])
    (hdraft : state.store.getDraft tenantId draftId = none)
    (hledger : state.store.draftByLedger.get (tenantId, ledgerId) = none) {runs : List CallRun}
    (hcalls : ∀ run ∈ runs, run.call.OnDraft tenantId draftId ledgerId)
    (htold : EachStep (ConsentState.step svc) (fun x run => run.Told svc x.state) ⟨state, []⟩ runs) :
    Throughout (ConsentState.step svc) (fun x => Consented x.edits x.state.posts) ⟨state, []⟩
      runs := by
  have hrow : state.store.getDraftByLedger tenantId ledgerId = none := by
    unfold InMemoryTwinStore.getDraftByLedger
    rw [hledger]
  have hI : ConsentInv tenantId draftId ledgerId [] state := by
    refine ⟨by rw [hposts]; trivial, ?_, ?_, ?_, ?_⟩
    · intro row h
      cases hdraft.symm.trans h
    · intro id h
      cases hledger.symm.trans h
    · intro text h
      rw [hposts] at h
      cases h
    · intro row h
      cases hrow.symm.trans h
  have hrun : ∀ (runs : List CallRun) (x : ConsentState),
      ConsentInv tenantId draftId ledgerId x.edits x.state →
      (∀ run ∈ runs, run.call.OnDraft tenantId draftId ledgerId) →
      EachStep (ConsentState.step svc) (fun x run => run.Told svc x.state) x runs →
      Throughout (ConsentState.step svc) (fun x => Consented x.edits x.state.posts) x runs := by
    intro runs
    induction runs with
    | nil => exact fun x hI _ _ => hI.consented
    | cons run runs ih =>
      intro x hI hcalls htold
      refine ⟨hI.consented, ih _ ?_ (fun r hr => hcalls r (List.mem_cons_of_mem _ hr)) htold.2⟩
      exact consent_step hI (hcalls run List.mem_cons_self) htold.1
  exact hrun runs ⟨state, []⟩ hI hcalls htold

end Run

/-! ### A recompile between the message and the publish -/

/-- Choices without failures, each with an identifier of its own. -/
def smoothly (call : String) (n : ℕ) : Choice :=
  smooth (call ++ String.ofList (List.replicate n 'i'))

/-- A forced compile with one item, whose text is `draftText`. -/
def compiled (draftText : String) : StartInput where
  twin := teamTwin
  snap := { mediumLedger with ledger := { mediumLedger.ledger with items := [default] } }
  draftText := draftText
  now := 0
  allowNotify := true
  forceNotify := true

def beforeDraft : DeliveryState := ⟨(InMemoryTwinStore.new.putLedger mediumLedger).2, [], []⟩

def approve : CallRun := ⟨.explicitPublish teamTwin "t" "dft_ai", smoothly "c"⟩

def compileRun (draftText uuid : String) : CallRun :=
  ⟨.startAfterCompileOpts (compiled draftText), smoothly uuid⟩

theorem compileRun_onDraft (draftText uuid : String) :
    (compileRun draftText uuid).call.OnDraft "t" "dft_ai" "L" := ⟨rfl, rfl⟩

theorem compileRun_delivers (draftText uuid : String) :
    Delivers (compileRun draftText uuid).Meets := by
  rintro c ⟨n, rfl⟩
  exact ⟨rfl, _, rfl⟩

theorem consent_broken :
    (∀ run ∈ [compileRun "A" "a", compileRun "B" "b", approve],
      run.call.OnDraft "t" "dft_ai" "L") ∧
    ¬ Consented [] (runFrom (ConsentState.step mockService) ⟨beforeDraft, []⟩
      [compileRun "A" "a", compileRun "B" "b", approve]).state.posts := by
  refine ⟨?_, by decide⟩
  simp only [List.forall_mem_cons]
  exact ⟨compileRun_onDraft _ _, compileRun_onDraft _ _, ⟨rfl, rfl⟩, List.forall_mem_nil _⟩

theorem compile_told : (compileRun "A" "a").Told mockService beforeDraft := by
  have hnone : beforeDraft.store.getDraftByLedger "t" "L" = none := rfl
  have hdeliver := compileRun_delivers "A" "a"
  refine ⟨fun row hrow => ?_, fun _ => ⟨fun _ c hc => (hdeliver c hc).1, fun _ => hdeliver⟩⟩
  cases hnone.symm.trans hrow

theorem compile_shows :
    (lastShown (ConsentState.step mockService ⟨beforeDraft, []⟩
      (compileRun "A" "a")).state.posts).isSome = true := by
  decide +kernel

theorem approve_told {s : DeliveryState} (h : (lastShown s.posts).isSome = true) :
    approve.Told mockService s := by
  intro row snap _ _ _ _
  rw [toldOrEdited, h]
  rfl

theorem consented_run_approved :
    Throughout (ConsentState.step mockService) (fun x => Consented x.edits x.state.posts)
      ⟨beforeDraft, []⟩ [compileRun "A" "a", approve] := by
  have hdraft : beforeDraft.store.getDraft "t" "dft_ai" = none := rfl
  have hledger : beforeDraft.store.draftByLedger.get ("t", "L") = none := rfl
  refine consented_run mockService rfl hdraft hledger ?_ ⟨compile_told, approve_told compile_shows, trivial⟩
  simp only [List.forall_mem_cons]
  exact ⟨compileRun_onDraft _ _, ⟨rfl, rfl⟩, List.forall_mem_nil _⟩

end AiManager.Twins
