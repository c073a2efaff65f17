import AiManager.Platform.FreeText
import AiManager.Twins.Decisions
import Mathlib.Data.Set.Finite.Lattice

/-! # What one event leaves

One delivery of an event while the embedded store does not fail: a decision moves the sender's latest draft, a
free text leaves commitments and claims, and anything else leaves the store (`Delivered.ends`). A delivery can
always go through (`exists_delivered`). -/

namespace AiManager.Platform

open Lib Twins

-- a text that is not given has no length to compute
attribute [local irreducible] Text.trim

/-- Later than every draft that is stored. -/
def Later (st : InMemoryTwinStore) (t : DateTime) : Prop :=
  ∀ k d, st.drafts.get k = some d → d.updatedAt < t

/-- The choices while events are delivered to `s₀`: the embedded store does not fail, chat answers as told, and
the clock is past what is stored. -/
def Fits (s₀ : DeliveryState) (w : ChatAnswers) (c : ListChoice) : Prop := Twins.Steady w (Later s₀.store) c.toChoice

/-- One delivery of `body` takes `s` to `s'`. -/
def Delivered (api : SlackApi) (body : Json) (s₀ : DeliveryState) (w : ChatAnswers) (s s' : DeliveryState) :
    Prop :=
  ∃ cs r, (∀ n, Fits s₀ w (cs n)) ∧ (slackEvents api body).exec slackAnswer cs s = some (r, s')

/-- The draft that a decision is about: the latest of the sender's twin. -/
def decided (api : SlackApi) (st : InMemoryTwinStore) (m : SlackMessage) : Option (Twin × DraftDelivery) :=
  ((mapsOf st api.tenantId).find? fun x => x.slackUserId = m.user).bind fun x =>
    (st.twins.get (api.tenantId, personTwinId x.globalUserId)).bind fun twin =>
      (draftsForTwin st api.tenantId twin.twinId).head?.map fun d => (twin, d)

/-- Where a decision leads the draft that it is about. -/
def SlackDecision.next (act : SlackDecision) (w : ChatAnswers) (twin : Twin) (s : DeliveryState) :
    DraftDelivery → LedgerSnapshot → Option DraftStatus :=
  match act with
  | .dontSend => vetoNext
  | .approve => publishNext w twin s

/-- What a decision leaves. -/
def DecisionEnd (api : SlackApi) (T : DateTime → Prop) (w : ChatAnswers) (m : SlackMessage)
    (act : SlackDecision) (s s' : DeliveryState) : Prop :=
  match decided api s.store m with
  | some (twin, d) => DecidesBy (act.next w twin s) api.tenantId d.draftId T s s'
  | none => s'.store = s.store

/-- What a free text leaves: the commitments first, then the claims. -/
def FreeTextEnd (api : SlackApi) (m : SlackMessage) (s s' : DeliveryState) : Prop :=
  ∃ s₁, CommitmentEnd api.lists api.tenantId (m.chat (mapsOf s.store api.tenantId)) s s₁ ∧
    if m.keywordHit then ∃ at? s₂,
      ClaimEnd api.lists api.tenantId (m.claim (mapsOf s.store api.tenantId) at?) s₁ s₂ ∧ s'.store = s₂.store
    else s'.store = s₁.store

/-- What a delivery leaves. -/
def DeliveryEnd (api : SlackApi) (body : Json) (T : DateTime → Prop) (w : ChatAnswers) (s s' : DeliveryState) :
    Prop :=
  match callbackMessage body with
  | none => s'.store = s.store
  | some m =>
    match m.decision with
    | some act => DecisionEnd api T w m act s s'
    | none => if m.isChannel || m.isDm then FreeTextEnd api m s s' else s'.store = s.store

section Handler
variable {api : SlackApi} {m : SlackMessage} {s₀ s : DeliveryState} {w : ChatAnswers} {β : Type}
  {ok : ListChoice → Prop}

theorem callSlack_bind {op : SlackOp} {f : op.Res → SlackM β} {post : β → DeliveryState → Prop}
    (h : ∀ c r s', ok c → slackAnswer c op s = some (r, s') → (f r).Ensures slackAnswer ok post s') :
    (callSlack op >>= f).Ensures slackAnswer ok post s :=
  fun c r s' hc hs => h c r s' hc hs

theorem overLists_ensures {p : ListM Unit} {post : DeliveryState → Prop}
    (h : p.run.Ensures listAnswer ok (fun _ s' => post s') s) :
    (overLists p).Ensures slackAnswer ok (fun _ s' => post s') s := by
  have hmap : (p.run.mapCalls SlackOp.list fun _ r => r).Ensures slackAnswer ok (fun _ s' => post s') s :=
    Prog.Ensures.mapCalls (f := SlackOp.list) (fun c op s r s' hc hs => ⟨c, hc, hs⟩) h
  exact Prog.ensures_bind.mpr hmap

theorem overDelivery_ensures {α : Type} {p : DeliveryM α} {post : DeliveryState → Prop}
    (h : p.run.Ensures answer (Twins.Steady w (Later s₀.store)) (fun _ s' => post s') s) :
    (overDelivery p).Ensures slackAnswer (Fits s₀ w) (fun _ s' => post s') s := by
  have hmap : (p.run.mapCalls SlackOp.delivery fun _ r => r).Ensures slackAnswer (Fits s₀ w)
      (fun _ s' => post s') s :=
    Prog.Ensures.mapCalls (f := SlackOp.delivery) (fun c op s r s' hc hs => ⟨c.toChoice, hc, hs⟩) h
  exact Prog.ensures_bind.mpr hmap

theorem honorDecision_ends (act : SlackDecision) : (honorDecision api m act).Ensures slackAnswer (Fits s₀ w)
    (fun _ s' => DecisionEnd api (Later s₀.store) w m act s s') s := by
  unfold DecisionEnd decided
  refine callSlack_bind fun c maps s₁ hc hs => ?_
  obtain ⟨rfl, hmaps⟩ := reading_eq hs
  obtain rfl := hmaps hc.fault
  have hlist : s₁.store.slackMap.values.filter (fun x => x.tenantId = api.tenantId) =
      mapsOf s₁.store api.tenantId := rfl
  dsimp only
  rw [hlist]
  cases hfind : (mapsOf s₁.store api.tenantId).find? fun x => x.slackUserId = m.user with
  | none => exact rfl
  | some x =>
    rw [Option.bind_some]
    refine callSlack_bind fun c found s₂ hc hs => ?_
    obtain ⟨rfl, hfound⟩ := reading_eq hs
    obtain rfl := hfound hc.fault
    cases htwin : s₂.store.twins.get (api.tenantId, personTwinId x.globalUserId) with
    | none => exact rfl
    | some twin =>
      rw [Option.bind_some]
      refine callSlack_bind fun c drafts s₃ hc hs => ?_
      obtain ⟨rfl, hdrafts⟩ := reading_eq hs
      obtain rfl := hdrafts hc.fault
      cases draftsForTwin s₃.store api.tenantId twin.twinId with
      | nil => exact rfl
      | cons d rest =>
        cases act with
        | dontSend => exact overDelivery_ensures vetoDraft_decides
        | approve => exact overDelivery_ensures explicitPublish_decides

theorem captureClaim_ends {maps : List SlackUserMap} : (captureClaim api m maps).Ensures slackAnswer ok
    (fun _ s' => ∃ at? s₂, ClaimEnd api.lists api.tenantId (m.claim maps at?) s s₂ ∧ s'.store = s₂.store) s := by
  refine callSlack_bind fun c now s₁ _ hs => ?_
  cases hs
  refine Prog.ensures_bind.mpr ?_
  refine (overLists_ensures pushSlackIntentClaim_ends).mono fun _ s₂ hend => ?_
  dsimp only
  cases Text.trimEndMatches api.v2BaseUrl "/" ≠ "" && decide (75 ≤ (classifySlackIntentText m.text).2) with
  | true =>
    refine callSlack_bind fun c now s₃ _ hs => ?_
    cases hs
    intro c r s₄ _ hs
    cases hs
    exact ⟨_, s₂, hend, rfl⟩
  | false => exact ⟨_, s₂, hend, rfl⟩

theorem handleFreeText_ends (hok : ∀ c, ok c → Sound c) : (handleFreeText api m).Ensures slackAnswer ok
    (fun _ s' => FreeTextEnd api m s s') s := by
  refine callSlack_bind fun c maps s₁ hc hs => ?_
  obtain ⟨rfl, hmaps⟩ := reading_eq hs
  obtain rfl := hmaps (hok c hc)
  refine Prog.ensures_bind.mpr ?_
  refine (overLists_ensures (maybeHandleCommitmentFromSlack_ends hok)).mono fun _ s₂ hend => ?_
  unfold FreeTextEnd
  cases m.keywordHit with
  | true => exact captureClaim_ends.mono fun _ s₃ h => ⟨s₂, hend, h⟩
  | false => exact ⟨s₂, hend, rfl⟩

theorem slackEvents_ends (body : Json) : (slackEvents api body).Ensures slackAnswer (Fits s₀ w)
    (fun _ s' => DeliveryEnd api body (Later s₀.store) w s s') s := by
  unfold slackEvents DeliveryEnd
  split_ifs with hverify
  · have hnone : callbackMessage body = none := by
      unfold callbackMessage
      rw [hverify]
      rfl
    rw [hnone]
    exact rfl
  · cases callbackMessage body with
    | none => exact rfl
    | some m =>
      refine Prog.ensures_bind.mpr ?_
      show (handleMessage api m).Ensures slackAnswer (Fits s₀ w) (fun _ s' => _) s
      unfold handleMessage
      dsimp only
      cases m.decision with
      | some act => exact honorDecision_ends act
      | none =>
        dsimp only
        split_ifs
        · exact handleFreeText_ends fun c hc => hc.fault
        · exact rfl

theorem Delivered.ends {body : Json} {s' : DeliveryState} (h : Delivered api body s₀ w s s') :
    DeliveryEnd api body (Later s₀.store) w s s' := by
  obtain ⟨cs, r, hfits, hexec⟩ := h
  exact (slackEvents_ends body).of_exec hfits hexec

end Handler

/-! ## Every delivery can go through -/

/-- The drafts are finitely many, so a clock can be past them. -/
theorem exists_later (st : InMemoryTwinStore) : ∃ t, Later st t := by
  obtain ⟨t, ht⟩ := (st.drafts.values.map (·.updatedAt)).toFinset.bddAbove
  refine ⟨t + 1, fun k d hd => Int.lt_add_one_of_le (ht ?_)⟩
  rw [← Table.key_of_get hd] at hd
  rw [List.coe_toFinset]
  exact List.mem_map_of_mem (Table.mem_values.mpr hd)

/-- A call is answered, if its identifier is fresh. -/
theorem answer_isSome {c : Choice} {s : DeliveryState} (hfresh : c.uuid ∉ s.issued) (op : DeliveryOp) :
    ∃ r s', answer c op s = some (r, s') := by
  obtain ⟨now, uuid, dm, channel, fault⟩ := c
  cases op with
  | newUuid => exact ⟨_, _, if_neg hfresh⟩
  | utcNow => exact ⟨_, _, rfl⟩
  | postDm _ _ | postDraftDm _ _ _ _ => cases dm <;> exact ⟨_, _, rfl⟩
  | postChannel _ _ => cases channel <;> exact ⟨_, _, rfl⟩
  | _ => cases fault <;> exact ⟨_, _, rfl⟩

theorem slackAnswer_fits (s₀ : DeliveryState) (w : ChatAnswers) (op : SlackOp) (s : DeliveryState) :
    ∃ c r s', Fits s₀ w c ∧ slackAnswer c op s = some (r, s') := by
  obtain ⟨t, ht⟩ := exists_later s₀.store
  obtain ⟨uuid, huuid⟩ := exists_unissued s.issued
  have hfits : Fits s₀ w ⟨⟨t, uuid, w.dm, w.channel, none⟩, .ok (), .ok .null⟩ := ⟨rfl, rfl, rfl, ht⟩
  cases op with
  | list op =>
    cases op with
    | newUuid => exact ⟨_, _, _, hfits, if_neg huuid⟩
    | _ => exact ⟨_, _, _, hfits, rfl⟩
  | delivery op =>
    obtain ⟨r, s', hs⟩ := answer_isSome (c := ⟨t, uuid, w.dm, w.channel, none⟩) huuid op
    exact ⟨_, r, s', hfits, hs⟩
  | _ => exact ⟨_, _, _, hfits, rfl⟩

theorem exists_delivered (api : SlackApi) (body : Json) (s₀ : DeliveryState) (w : ChatAnswers)
    (s : DeliveryState) : ∃ s', Delivered api body s₀ w s s' := by
  obtain ⟨c, -, -, hc, -⟩ := slackAnswer_fits s₀ w (.list .utcNow) s
  obtain ⟨cs, r, s', hcs, hexec⟩ :=
    Prog.exists_exec ⟨c, hc⟩ (slackAnswer_fits s₀ w) (slackEvents api body) s
  exact ⟨s', cs, r, hcs, hexec⟩

end AiManager.Platform
