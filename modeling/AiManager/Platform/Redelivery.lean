import AiManager.Platform.SlackDeliveries

/-! # Redelivered events

Slack delivers an event again when the answer is late. The handler looks nothing up by the time stamp of the
message, so a free text is captured once more each time: after the first delivery nothing changes exactly if
there is nothing to capture, or the lists are already full of copies; and a typed decision is repeated without
effect unless the draft could not be posted at first and can be posted later (`slack_idempotent_iff`). -/

namespace AiManager.Platform

open Lib Twins

-- a text that is not given has no length to compute
attribute [local irreducible] Text.trim

/-! ## Outcomes -/

/-- A claim without the time at which it was kept. -/
def untimed : Json → Json
  | .obj fields => .obj (fields.filter fun f => f.1 ≠ "at")
  | c => c

/-- A commitment without its identifier and the times that were read for it. -/
def Commitment.anonymous (c : Commitment) : Commitment :=
  { c with id := "", createdAt := "", resolvedAt := c.resolvedAt.map fun _ => "" }

/-- The same claims, commitments and draft statuses, but for identifiers and times. -/
structure SameOutcome (tenantId : String) (s s' : DeliveryState) : Prop where
  claims : ∀ list, (claimsOf s' tenantId list).map untimed = (claimsOf s tenantId list).map untimed
  commitments : (commitmentsOf s' tenantId).map Commitment.anonymous =
    (commitmentsOf s tenantId).map Commitment.anonymous
  statuses : ∀ k, (s'.store.drafts.get k).map (·.status) = (s.store.drafts.get k).map (·.status)

/-! ## Deliveries -/

section Deliveries
variable (api : SlackApi) (body : Json) (s₀ : DeliveryState)

/-- After the first delivery, `k` further ones take `s` to `s'`; at the `n`-th of all chat answers `w n`. -/
def Redelivered (w : ℕ → ChatAnswers) : ℕ → DeliveryState → DeliveryState → Prop
  | 0, s, s' => s' = s
  | k + 1, s, s' => ∃ s₁, Redelivered w k s s₁ ∧ Delivered api body s₀ (w (k + 1)) s₁ s'

/-- The commitment that the message makes, if it makes one. -/
def madeBy (m : SlackMessage) : Option (String → String → Commitment) :=
  (m.chat (mapsOf s₀.store api.tenantId)).commitment api.lists.upper api.lists.alphanumeric
    (directoryOf s₀.store api.tenantId) api.tenantId

/-- Delivering the event again leaves what the first delivery left, and never closes what it made. -/
structure Idempotent (w : ℕ → ChatAnswers) : Prop where
  same : ∀ s₁ k s', Delivered api body s₀ (w 0) s₀ s₁ → Redelivered api body s₀ w k s₁ s' →
    SameOutcome api.tenantId s₁ s'
  keeps : ∀ s₁ k s', Delivered api body s₀ (w 0) s₀ s₁ → Redelivered api body s₀ w k s₁ s' →
    ∀ m make uuid now i, callbackMessage body = some m → madeBy api s₀ m = some make →
      fromEnd (commitmentsOf s₁ api.tenantId) i = some (make uuid now) → i + k < commitmentsMax →
        ∃ j, fromEnd (commitmentsOf s' api.tenantId) j = some (make uuid now)

/-! ## The condition -/

/-- An approval that is to be posted, and fails at first, fails again. -/
def ApproveHarmless (m : SlackMessage) (w : ℕ → ChatAnswers) : Prop :=
  ∀ twin d snap, decided api s₀.store m = some (twin, d) →
    s₀.store.getLedger api.tenantId d.ledgerId = some snap → explicitGoesOn twin d snap = true →
    s₀.store.getPublishByLedger d.tenantId d.ledgerId = none → publishEnd (w 0) twin = .publishFailed →
      ∀ k, publishEnd (w (k + 1)) twin = .publishFailed

/-- What is captured fills its list already. -/
def CaptureHarmless (m : SlackMessage) : Prop :=
  (m.keywordHit = true → (keepLast ClaimList.slack.cap (claimsOf s₀ api.tenantId .slack
      ++ [m.claim (mapsOf s₀.store api.tenantId) ""])).map untimed =
    List.replicate ClaimList.slack.cap (untimed (m.claim (mapsOf s₀.store api.tenantId) ""))) ∧
  ∀ make, madeBy api s₀ m = some make →
    (keepLast commitmentsMax (commitmentsOf s₀ api.tenantId ++ [make "" ""])).map Commitment.anonymous =
      List.replicate commitmentsMax (make "" "").anonymous

/-- A redelivery does no harm. -/
def Harmless (w : ℕ → ChatAnswers) : Prop :=
  ∀ m, callbackMessage body = some m →
    match m.decision with
    | some .dontSend => True
    | some .approve => ApproveHarmless api s₀ m w
    | none => (m.isChannel || m.isDm) = true → api.lists.embedded = true → CaptureHarmless api s₀ m

end Deliveries

/-! ## Runs of deliveries -/

section Runs
variable {api : SlackApi} {body : Json} {m : SlackMessage} {s₀ s s₁ s' : DeliveryState} {w : ℕ → ChatAnswers}
  {k : ℕ} {t : String}

/-- **Induction over the deliveries** after the first. -/
theorem Redelivered.induction {I : ℕ → DeliveryState → Prop}
    (hstep : ∀ n s s', I n s → Delivered api body s₀ (w (n + 1)) s s' → I (n + 1) s')
    (h : Redelivered api body s₀ w k s₁ s') (h₁ : I 0 s₁) : I k s' := by
  induction k generalizing s' with
  | zero => exact h ▸ h₁
  | succ k ih =>
    obtain ⟨s, hs, hlast⟩ := h
    exact hstep k s s' (ih hs) hlast

variable (api body s₀ w k) in
theorem exists_redelivered (s₁ : DeliveryState) : ∃ s', Redelivered api body s₀ w k s₁ s' := by
  induction k with
  | zero => exact ⟨s₁, rfl⟩
  | succ k ih =>
    obtain ⟨s, hs⟩ := ih
    obtain ⟨s', hs'⟩ := exists_delivered api body s₀ (w (k + 1)) s
    exact ⟨s', s, hs, hs'⟩

theorem SameOutcome.of_store (h : s'.store = s.store) : SameOutcome t s s' where
  claims list := by rw [claimsOf_congr h]
  commitments := by rw [commitmentsOf_congr h]
  statuses _ := by rw [h]

theorem SameOutcome.trans (h : SameOutcome t s₁ s) (h' : SameOutcome t s s') : SameOutcome t s₁ s' where
  claims list := (h'.claims list).trans (h.claims list)
  commitments := h'.commitments.trans h.commitments
  statuses k := (h'.statuses k).trans (h.statuses k)

/-- A message that writes nothing is idempotent. -/
theorem idempotent_of_quiet (hquiet : ∀ n s s', s.store = s₀.store → Delivered api body s₀ (w n) s s' →
    s'.store = s₀.store) : Idempotent api body s₀ w := by
  have hsame : ∀ s₁ k s', Delivered api body s₀ (w 0) s₀ s₁ → Redelivered api body s₀ w k s₁ s' →
      s'.store = s₁.store := by
    intro s₁ k s' h₁ hk
    have hone := hquiet 0 s₀ s₁ rfl h₁
    have hall := hk.induction (I := fun _ s => s.store = s₀.store) (fun n s s' => hquiet (n + 1) s s') hone
    rw [hall, hone]
  refine ⟨fun s₁ k s' h₁ hk => .of_store (hsame s₁ k s' h₁ hk), fun s₁ k s' h₁ hk m make uuid now i _ _ hfound _ => ?_⟩
  refine ⟨i, ?_⟩
  rw [commitmentsOf_congr (hsame s₁ k s' h₁ hk)]
  exact hfound

end Runs

/-! ## Decisions -/

/-- Where the decision takes the draft `d₀` from the status `st`. -/
def SlackDecision.statusAfter (act : SlackDecision) (w : ChatAnswers) (twin : Twin) (s₀ : DeliveryState)
    (d₀ : DraftDelivery) (st : DraftStatus) : DraftStatus :=
  ((s₀.store.getLedger d₀.tenantId d₀.ledgerId).bind
    (act.next w twin s₀ { d₀ with status := st })).getD st

/-- Decisions about the draft `d₀` have led to a state in which its row is `d`. -/
structure Row (s₀ : DeliveryState) (d₀ d : DraftDelivery) (s : DeliveryState) : Prop where
  key : d.key = d₀.key
  twin : d.twinId = d₀.twinId
  ledger : d.ledgerId = d₀.ledgerId
  latest : s.store.drafts = s₀.store.drafts ∨ Later s₀.store d.updatedAt
  works : Works s₀ d s
  publishes : d.status = .published ∨ SamePublishes s₀ s

section Decisions
variable {api : SlackApi} {body : Json} {m : SlackMessage} {s₀ s s' : DeliveryState} {w : ChatAnswers}
  {act : SlackDecision} {twin : Twin} {d₀ d d' : DraftDelivery}

/-- What the decision is about: a map of the sender, the twin, and its latest draft. -/
theorem decided_eq {st : InMemoryTwinStore} : decided api st m = some (twin, d) ↔
    (∃ x, (mapsOf st api.tenantId).find? (fun x => x.slackUserId = m.user) = some x ∧
      st.twins.get (api.tenantId, personTwinId x.globalUserId) = some twin) ∧
    (draftsForTwin st api.tenantId twin.twinId).head? = some d := by
  unfold decided
  simp only [Option.bind_eq_some_iff, Option.map_eq_some_iff, Prod.mk.injEq]
  constructor
  · rintro ⟨x, hx, twin', htwin, d', hd, rfl, rfl⟩
    exact ⟨⟨x, hx, htwin⟩, hd⟩
  · rintro ⟨⟨x, hx, htwin⟩, hd⟩
    exact ⟨x, hx, twin, htwin, d, hd, rfl, rfl⟩

theorem decided_mem {st : InMemoryTwinStore} (h : decided api st m = some (twin, d)) :
    st.drafts.get d.key = some d ∧ d.tenantId = api.tenantId ∧ d.twinId = twin.twinId :=
  mem_draftsForTwin.mp (List.mem_of_mem_head? (decided_eq.mp h).2)

theorem Row.refl (h : s₀.store.drafts.get d₀.key = some d₀) : Row s₀ d₀ d₀ s₀ :=
  ⟨rfl, rfl, rfl, .inl rfl, ⟨holds_of_get h, rfl⟩, .inr (.refl s₀)⟩

/-- The decision stays about the same draft. -/
theorem Row.stays (h : Row s₀ d₀ d s) (hd : decided api s₀.store m = some (twin, d₀)) :
    decided api s.store m = some (twin, d) := by
  obtain ⟨hwho, hhead⟩ := decided_eq.mp hd
  obtain ⟨hget, htenant, htwin⟩ := decided_mem hd
  have honly := h.works.only
  unfold OnlyDrafts at honly
  refine decided_eq.mpr ⟨by rw [honly]; exact hwho, ?_⟩
  rcases h.latest with hsame | hlater
  · have hdrafts : draftsForTwin s.store api.tenantId twin.twinId =
        draftsForTwin s₀.store api.tenantId twin.twinId := by
      unfold draftsForTwin
      rw [hsame]
    have hrow := h.works.row
    rw [hsame, h.key, hget] at hrow
    rw [hdrafts, ← Option.some.inj hrow]
    exact hhead
  · refine head_draftsForTwin (mem_draftsForTwin.mpr ⟨h.works.row, ?_, h.twin.trans htwin⟩) fun x hx hne => ?_
    · exact (congrArg Prod.fst h.key).trans htenant
    · have hxget := (mem_draftsForTwin.mp hx).1
      have hkey : x.key ≠ d.key := fun heq => hne <| by
        rw [heq, h.works.row] at hxget
        exact (Option.some.inj hxget).symm
      rw [h.works.others _ hkey] at hxget
      exact hlater _ x hxget

/-- A published draft goes nowhere. -/
theorem next_published (h : d.status = .published) (snap : LedgerSnapshot) : act.next w twin s d snap = none := by
  cases act with
  | dontSend =>
    show applyDeliveryEvent d.status .veto snap.confidenceRollup false = none
    rw [h]
    rfl
  | approve =>
    show publishNext w twin s d snap = none
    simp [publishNext, explicitGoesOn, h, applyDeliveryEvent]

/-- Where the decision leads a row is told by its status. -/
theorem Row.next_eq (h : Row s₀ d₀ d s) (snap : LedgerSnapshot) :
    act.next w twin s d snap = act.next w twin s₀ { d₀ with status := d.status } snap := by
  cases act with
  | dontSend => rfl
  | approve =>
    rcases h.publishes with hpublished | hsame
    · rw [next_published hpublished]
      exact (next_published (d := { d₀ with status := d.status }) hpublished snap).symm
    · show publishNext w twin s d snap = publishNext w twin s₀ { d₀ with status := d.status } snap
      have htenant : d.tenantId = d₀.tenantId := congrArg Prod.fst h.key
      unfold publishNext
      rw [hsame.getPublishByLedger, htenant, h.ledger]
      rfl

/-- **One more delivery** moves the row on. -/
theorem Row.step (h : Row s₀ d₀ d s) (hd : decided api s₀.store m = some (twin, d₀))
    (hend : DecisionEnd api (Later s₀.store) w m act s s') :
    ∃ d', Row s₀ d₀ d' s' ∧ d'.status = act.statusAfter w twin s₀ d₀ d.status := by
  unfold DecisionEnd at hend
  rw [h.stays hd] at hend
  dsimp only at hend
  have htenant : d.tenantId = d₀.tenantId := congrArg Prod.fst h.key
  have hget : s.store.getDraft api.tenantId d.draftId = some d := by
    rw [← (decided_mem hd).2.1, ← htenant]
    exact h.works.row
  have hledgers : s.store.getLedger api.tenantId d.ledgerId = s₀.store.getLedger d₀.tenantId d₀.ledgerId := by
    have honly := h.works.only
    unfold OnlyDrafts at honly
    rw [honly, ← (decided_mem hd).2.1, h.ledger]
    rfl
  unfold SlackDecision.statusAfter
  rw [← hledgers]
  obtain ⟨hstore, hnone⟩ | ⟨draft, snap, st, hdraft, hsnap, hnext, hdecides⟩ := hend
  · refine ⟨d, ⟨h.key, h.twin, h.ledger, ?_, h.works.of_store hstore, h.publishes.imp id (·.of_store hstore)⟩, ?_⟩
    · rw [hstore]
      exact h.latest
    · cases hsnap : s.store.getLedger api.tenantId d.ledgerId with
      | none => rfl
      | some snap =>
        have hstop := hnone d snap hget hsnap
        rw [h.next_eq] at hstop
        rw [Option.bind_some, hstop]
        rfl
  · rw [hget] at hdraft
    obtain rfl := Option.some.inj hdraft
    rw [h.next_eq] at hnext
    rw [hsnap, Option.bind_some, hnext]
    obtain ⟨d', hkey, htwin, hledger, hstatus, htime, hworks, hpub⟩ := hdecides
    refine ⟨d', ⟨hkey.trans h.key, htwin.trans h.twin, hledger.trans h.ledger, .inr htime, ⟨⟨?_, hworks.row⟩,
      h.works.only.trans hworks.only⟩, ?_⟩, hstatus⟩
    · intro k hk
      rw [hworks.others k hk, h.works.others k (hkey ▸ hk)]
    · by_cases hst : st = .published
      · exact .inl (hstatus.trans hst)
      · rcases h.publishes with hpublished | hsame
        · rw [← h.next_eq, next_published hpublished] at hnext
          cases hnext
        · exact .inr (hsame.trans (hpub hst))

/-- Two rows of one draft differ in what the outcome counts only by the status. -/
theorem Row.sameOutcome_iff (h : Row s₀ d₀ d s) (h' : Row s₀ d₀ d' s') :
    SameOutcome api.tenantId s s' ↔ d'.status = d.status := by
  have honly := h.works.only
  have honly' := h'.works.only
  unfold OnlyDrafts at honly honly'
  constructor
  · intro hsame
    have hstatus := hsame.statuses d₀.key
    rw [← h'.key, h'.works.row, h'.key, ← h.key, h.works.row] at hstatus
    exact Option.some.inj hstatus
  · intro hstatus
    refine ⟨fun list => ?_, ?_, fun k => ?_⟩
    · unfold claimsOf
      rw [honly, honly']
      rfl
    · unfold commitmentsOf
      rw [honly, honly']
      rfl
    · by_cases hk : k = d₀.key
      · rw [hk, ← h'.key, h'.works.row, h'.key, ← h.key, h.works.row, Option.map_some, Option.map_some, hstatus]
      · rw [h'.works.others k (h'.key ▸ hk), h.works.others k (h.key ▸ hk)]

end Decisions

/-- The statuses that the draft goes through, from its own on. -/
def SlackDecision.statusAt (act : SlackDecision) (w : ℕ → ChatAnswers) (twin : Twin) (s₀ : DeliveryState)
    (d₀ : DraftDelivery) : ℕ → DraftStatus
  | 0 => d₀.status
  | n + 1 => act.statusAfter (w n) twin s₀ d₀ (act.statusAt w twin s₀ d₀ n)

section DecisionRuns
variable {api : SlackApi} {body : Json} {m : SlackMessage} {s₀ s s₁ s' : DeliveryState} {w : ℕ → ChatAnswers}
  {act : SlackDecision} {twin : Twin} {d₀ : DraftDelivery} {k n : ℕ}

theorem Delivered.decision (hm : callbackMessage body = some m) (hact : m.decision = some act)
    (h : Delivered api body s₀ (w n) s s') : DecisionEnd api (Later s₀.store) (w n) m act s s' := by
  have hend := h.ends
  unfold DeliveryEnd at hend
  rw [hm] at hend
  dsimp only at hend
  rwa [hact] at hend

theorem first_row (hm : callbackMessage body = some m) (hact : m.decision = some act)
    (hd : decided api s₀.store m = some (twin, d₀)) (h : Delivered api body s₀ (w 0) s₀ s₁) :
    ∃ d, Row s₀ d₀ d s₁ ∧ d.status = act.statusAt w twin s₀ d₀ 1 :=
  (Row.refl (decided_mem hd).1).step hd (h.decision hm hact)

/-- The status after every delivery. -/
theorem redelivered_row (hm : callbackMessage body = some m) (hact : m.decision = some act)
    (hd : decided api s₀.store m = some (twin, d₀)) (h₁ : Delivered api body s₀ (w 0) s₀ s₁)
    (hk : Redelivered api body s₀ w k s₁ s') :
    ∃ d, Row s₀ d₀ d s' ∧ d.status = act.statusAt w twin s₀ d₀ (k + 1) := by
  refine hk.induction (I := fun n s => ∃ d, Row s₀ d₀ d s ∧ d.status = act.statusAt w twin s₀ d₀ (n + 1)) ?_
    (first_row hm hact hd h₁)
  rintro n s s' ⟨d, hrow, hstatus⟩ h
  obtain ⟨d', hrow', hstatus'⟩ := hrow.step hd (h.decision hm hact)
  refine ⟨d', hrow', ?_⟩
  rw [hstatus', hstatus]
  rfl

/-- A decision is idempotent if the draft stays where the first delivery leaves it. -/
theorem decision_idempotent_iff (hm : callbackMessage body = some m) (hact : m.decision = some act)
    (hd : decided api s₀.store m = some (twin, d₀)) : Idempotent api body s₀ w ↔
      ∀ k, act.statusAt w twin s₀ d₀ (k + 1) = act.statusAt w twin s₀ d₀ 1 := by
  constructor
  · intro h k
    obtain ⟨s₁, h₁⟩ := exists_delivered api body s₀ (w 0) s₀
    obtain ⟨s', hk⟩ := exists_redelivered api body s₀ w k s₁
    obtain ⟨d, hrow, hstatus⟩ := first_row hm hact hd h₁
    obtain ⟨d', hrow', hstatus'⟩ := redelivered_row hm hact hd h₁ hk
    rw [← hstatus, ← hstatus']
    exact (hrow.sameOutcome_iff hrow').mp (h.same s₁ k s' h₁ hk)
  · intro h
    refine ⟨fun s₁ k s' h₁ hk => ?_, fun s₁ k s' h₁ hk m' make uuid now i _ _ hfound _ => ?_⟩
    · obtain ⟨d, hrow, hstatus⟩ := first_row hm hact hd h₁
      obtain ⟨d', hrow', hstatus'⟩ := redelivered_row hm hact hd h₁ hk
      exact (hrow.sameOutcome_iff hrow').mpr (by rw [hstatus, hstatus', h k])
    · refine ⟨i, ?_⟩
      obtain ⟨d, hrow, -⟩ := first_row hm hact hd h₁
      obtain ⟨d', hrow', -⟩ := redelivered_row hm hact hd h₁ hk
      have honly := hrow.works.only
      have honly' := hrow'.works.only
      unfold OnlyDrafts at honly honly'
      unfold commitmentsOf at hfound ⊢
      rw [honly] at hfound
      rw [honly']
      exact hfound

/-- A status in which no delivery moves the draft is its last. -/
theorem statusAt_of_fixed (h : ∀ k, act.statusAfter (w (k + 1)) twin s₀ d₀ (act.statusAt w twin s₀ d₀ 1) =
    act.statusAt w twin s₀ d₀ 1) (k : ℕ) : act.statusAt w twin s₀ d₀ (k + 1) = act.statusAt w twin s₀ d₀ 1 := by
  induction k with
  | zero => rfl
  | succ k ih =>
    show act.statusAfter (w (k + 1)) twin s₀ d₀ (act.statusAt w twin s₀ d₀ (k + 1)) = _
    rw [ih]
    exact h k

/-- A second veto has no effect. -/
theorem veto_fixed (w₁ w₂ : ChatAnswers) (st : DraftStatus) :
    SlackDecision.dontSend.statusAfter w₂ twin s₀ d₀ (SlackDecision.dontSend.statusAfter w₁ twin s₀ d₀ st) =
      SlackDecision.dontSend.statusAfter w₁ twin s₀ d₀ st := by
  unfold SlackDecision.statusAfter
  cases s₀.store.getLedger d₀.tenantId d₀.ledgerId with
  | none => rfl
  | some snap => cases st <;> rfl

/-- What an approval makes of a status: it goes on, or it does not. -/
theorem approve_statusAfter (w' : ChatAnswers) (st : DraftStatus) :
    SlackDecision.approve.statusAfter w' twin s₀ d₀ st =
      match s₀.store.getLedger d₀.tenantId d₀.ledgerId with
      | none => st
      | some snap =>
        if explicitGoesOn twin { d₀ with status := st } snap then
          if (s₀.store.getPublishByLedger d₀.tenantId d₀.ledgerId).isSome then .published else publishEnd w' twin
        else st := by
  unfold SlackDecision.statusAfter
  cases s₀.store.getLedger d₀.tenantId d₀.ledgerId with
  | none => rfl
  | some snap =>
    show (publishNext w' twin s₀ { d₀ with status := st } snap).getD st = _
    unfold publishNext
    dsimp only
    split_ifs <;> rfl

theorem publishEnd_cases (w' : ChatAnswers) (twin : Twin) :
    publishEnd w' twin = .published ∨ publishEnd w' twin = .publishFailed := by
  unfold publishEnd
  cases w'.channel with
  | ok _ => exact .inl rfl
  | error e =>
    dsimp only
    split_ifs
    · cases w'.dm with
      | ok _ => exact .inl rfl
      | error _ => exact .inr rfl
    · exact .inr rfl

theorem explicitGoesOn_published (snap : LedgerSnapshot) (d : DraftDelivery) (h : d.status = .published) :
    explicitGoesOn twin d snap = false := by
  simp [explicitGoesOn, h, applyDeliveryEvent]

theorem approveHarmless_iff (hd : decided api s₀.store m = some (twin, d₀)) :
    ApproveHarmless api s₀ m w ↔ ∀ snap, s₀.store.getLedger d₀.tenantId d₀.ledgerId = some snap →
      explicitGoesOn twin d₀ snap = true → s₀.store.getPublishByLedger d₀.tenantId d₀.ledgerId = none →
        publishEnd (w 0) twin = .publishFailed → ∀ k, publishEnd (w (k + 1)) twin = .publishFailed := by
  rw [(decided_mem hd).2.1]
  constructor
  · intro h snap hsnap
    have hat := h twin d₀ snap hd hsnap
    rwa [(decided_mem hd).2.1] at hat
  · intro h twin' d' snap hd'
    rw [hd] at hd'
    cases hd'
    rw [(decided_mem hd).2.1]
    exact h snap

/-- An approval is repeated without effect, unless a post that failed can succeed later. -/
theorem approve_fixed_iff (hd : decided api s₀.store m = some (twin, d₀)) :
    (∀ k, SlackDecision.approve.statusAt w twin s₀ d₀ (k + 1) =
        SlackDecision.approve.statusAt w twin s₀ d₀ 1) ↔ ApproveHarmless api s₀ m w := by
  rw [approveHarmless_iff hd]
  -- the first delivery leaves a status that no delivery changes
  have hfixed : ∀ {st : DraftStatus}, SlackDecision.approve.statusAt w twin s₀ d₀ 1 = st →
      (∀ w', SlackDecision.approve.statusAfter w' twin s₀ d₀ st = st) →
      ∀ k, SlackDecision.approve.statusAt w twin s₀ d₀ (k + 1) = SlackDecision.approve.statusAt w twin s₀ d₀ 1 := by
    intro st hst hstay
    refine statusAt_of_fixed fun k => ?_
    rw [hst]
    exact hstay _
  have hpublished : ∀ w', SlackDecision.approve.statusAfter w' twin s₀ d₀ .published = .published := by
    intro w'
    rw [approve_statusAfter]
    cases s₀.store.getLedger d₀.tenantId d₀.ledgerId with
    | none => rfl
    | some snap => exact if_neg (by rw [explicitGoesOn_published snap _ rfl]; exact Bool.false_ne_true)
  have hfirst : SlackDecision.approve.statusAt w twin s₀ d₀ 1 =
    SlackDecision.approve.statusAfter (w 0) twin s₀ d₀ d₀.status := rfl
  cases hledger : s₀.store.getLedger d₀.tenantId d₀.ledgerId with
  | none =>
    have hstay : ∀ w', SlackDecision.approve.statusAfter w' twin s₀ d₀ d₀.status = d₀.status := by
      intro w'
      rw [approve_statusAfter, hledger]
    exact iff_of_true (hfixed (hfirst.trans (hstay (w 0))) hstay) fun _ h => by cases h
  | some snap =>
    have hsingle : ∀ {P : LedgerSnapshot → Prop}, (∀ snap', some snap = some snap' → P snap') ↔ P snap :=
      ⟨fun h => h snap rfl, fun h _ heq => Option.some.inj heq ▸ h⟩
    rw [hsingle]
    cases hgoes : explicitGoesOn twin d₀ snap with
    | false =>
      have hstay : ∀ w', SlackDecision.approve.statusAfter w' twin s₀ d₀ d₀.status = d₀.status := by
        intro w'
        rw [approve_statusAfter, hledger]
        exact if_neg (Bool.eq_false_iff.mp hgoes)
      exact iff_of_true (hfixed (hfirst.trans (hstay (w 0))) hstay) fun h => by cases h
    | true =>
      cases hpub : s₀.store.getPublishByLedger d₀.tenantId d₀.ledgerId with
      | some record =>
        refine iff_of_true (hfixed (hfirst.trans ?_) hpublished) fun _ h => by cases h
        rw [approve_statusAfter, hledger, hpub]
        exact if_pos hgoes
      | none =>
        have hgo : ∀ w' st, explicitGoesOn twin { d₀ with status := st } snap = true →
            SlackDecision.approve.statusAfter w' twin s₀ d₀ st = publishEnd w' twin := by
          intro w' st hst
          rw [approve_statusAfter, hledger, hpub]
          exact if_pos hst
        have hone := hfirst.trans (hgo (w 0) d₀.status hgoes)
        rcases publishEnd_cases (w 0) twin with hend | hend
        · refine iff_of_true (hfixed (hone.trans hend) hpublished) fun _ _ hfail => ?_
          rw [hend] at hfail
          cases hfail
        · rw [hone, hend]
          -- a failed post is tried again at every delivery
          have hagain : ∀ k, SlackDecision.approve.statusAt w twin s₀ d₀ (k + 1) = .publishFailed →
              SlackDecision.approve.statusAt w twin s₀ d₀ (k + 2) = publishEnd (w (k + 1)) twin := by
            intro k hk
            show SlackDecision.approve.statusAfter (w (k + 1)) twin s₀ d₀
              (SlackDecision.approve.statusAt w twin s₀ d₀ (k + 1)) = _
            rw [hk]
            exact hgo _ _ rfl
          constructor
          · intro h _ _ _ k
            rw [← hagain k (h k)]
            exact h (k + 1)
          · intro h k
            induction k with
            | zero => exact hone.trans hend
            | succ k ih => exact (hagain k ih).trans (h rfl rfl rfl k)

end DecisionRuns

/-! ## Free texts -/

/-- What one delivery of a free text makes of the lists of a state that differs from `s₀` only in lists. -/
structure ListsStep (api : SlackApi) (s₀ : DeliveryState) (m : SlackMessage) (s s' : DeliveryState) : Prop where
  only : OnlyLists s₀ s'
  explicit : claimsOf s' api.tenantId .explicit = claimsOf s api.tenantId .explicit
  slack : (claimsOf s' api.tenantId .slack).map untimed =
    if api.lists.embedded && m.keywordHit then
      keepLast ClaimList.slack.cap ((claimsOf s api.tenantId .slack).map untimed ++
        [untimed (m.claim (mapsOf s₀.store api.tenantId) "")])
    else (claimsOf s api.tenantId .slack).map untimed
  commitments : if api.lists.embedded then
      CommitmentStep api.lists (directoryOf s₀.store api.tenantId) api.tenantId
        (m.chat (mapsOf s₀.store api.tenantId)) (commitmentsOf s api.tenantId) (commitmentsOf s' api.tenantId)
    else commitmentsOf s' api.tenantId = commitmentsOf s api.tenantId

section FreeTexts
variable {api : SlackApi} {body : Json} {m : SlackMessage} {s₀ s s₁ s' : DeliveryState} {w : ℕ → ChatAnswers}
  {make : String → String → Commitment} {dir : List PersonDirEntry} {t : String} {n : ℕ}

theorem untimed_claim (m : SlackMessage) (maps : List SlackUserMap) (at? : String) :
    untimed (m.claim maps at?) = untimed (m.claim maps "") := rfl

theorem anonymous_made {api : ListApi} {m : ChatMessage}
    (h : m.commitment api.upper api.alphanumeric dir t = some make) (uuid now : String) :
    (make uuid now).anonymous = (make "" "").anonymous := by
  unfold ChatMessage.commitment at h
  obtain ⟨⟨summary, conf, tag⟩, -, h⟩ := Option.bind_eq_some_iff.mp h
  by_cases hconf : conf < 72
  · cases (if_pos hconf).symm.trans h
  · cases (if_neg hconf).symm.trans h
    rfl

theorem freeText_step (hs : OnlyLists s₀ s) (h : FreeTextEnd api m s s') : ListsStep api s₀ m s s' := by
  obtain ⟨s₁, hcommit, hclaim⟩ := h
  have hmaps : mapsOf s.store api.tenantId = mapsOf s₀.store api.tenantId := by
    unfold OnlyLists at hs
    rw [hs]
    rfl
  have hdir : directoryOf s.store api.tenantId = directoryOf s₀.store api.tenantId := by
    unfold directoryOf
    rw [hmaps]
    unfold OnlyLists at hs
    rw [hs]
    rfl
  rw [hmaps] at hcommit hclaim
  -- the commitments are those after the first part, whatever the second does
  have hcommitments : ∀ s₂ : DeliveryState, commitmentsOf s₂ api.tenantId = commitmentsOf s₁ api.tenantId →
      if api.lists.embedded then
        CommitmentStep api.lists (directoryOf s₀.store api.tenantId) api.tenantId
          (m.chat (mapsOf s₀.store api.tenantId)) (commitmentsOf s api.tenantId) (commitmentsOf s₂ api.tenantId)
      else commitmentsOf s₂ api.tenantId = commitmentsOf s api.tenantId := by
    intro s₂ h₂
    rw [h₂]
    split_ifs with hembedded
    · rw [← hdir]
      exact hcommit.commitments hembedded
    · exact commitmentsOf_congr (hcommit.off (Bool.eq_false_iff.mpr hembedded))
  split_ifs at hclaim with hhit
  · obtain ⟨at?, s₂, hend, hstore⟩ := hclaim
    refine ⟨((hs.trans hcommit.only).trans hend.only).trans (.of_store hstore), ?_, ?_, hcommitments s' ?_⟩
    · rw [claimsOf_congr hstore, hend.explicit, hcommit.claims]
    · rw [claimsOf_congr hstore, hend.slack, hcommit.claims, hhit, Bool.and_true]
      split_ifs
      · rw [map_keepLast, List.map_append, List.map_singleton, untimed_claim]
      · rfl
    · rw [commitmentsOf_congr hstore, hend.commitments]
  · refine ⟨(hs.trans hcommit.only).trans (.of_store hclaim), ?_, ?_, hcommitments s' ?_⟩
    · rw [claimsOf_congr hclaim, hcommit.claims]
    · rw [claimsOf_congr hclaim, hcommit.claims, Bool.eq_false_iff.mpr hhit, Bool.and_false]
      rfl
    · exact commitmentsOf_congr hclaim

/-! ### After the first delivery -/

theorem slackMessage_trim {ev : Json} (h : slackMessage ev = some m) : Text.trim m.text = m.text := by
  unfold slackMessage at h
  dsimp only at h
  split_ifs at h
  cases h
  exact Text.trim_trim _

theorem callbackMessage_trim (h : callbackMessage body = some m) : Text.trim m.text = m.text := by
  unfold callbackMessage at h
  split_ifs at h
  exact slackMessage_trim h

/-- A text that closes commitments makes none. -/
theorem not_closes_of_made {api : ListApi} {m : ChatMessage} (htrim : Text.trim m.text = m.text)
    (h : m.commitment api.upper api.alphanumeric dir t = some make) (label : Option String)
    (list : List Commitment) : m.closes label list = false := by
  unfold ChatMessage.commitment extractCommitment at h
  obtain ⟨found, hfound, -⟩ := Option.bind_eq_some_iff.mp h
  dsimp only at hfound
  rw [htrim] at hfound
  split_ifs at hfound with hlength hphrase
  unfold ChatMessage.closes
  rw [Bool.eq_false_iff.mpr hphrase, Bool.false_and]

/-- A commitment that the message closed is not closed again. -/
theorem not_resolves_resolved (m : ChatMessage) (label : Option String) (now : String) (c : Commitment) :
    m.resolves label (m.resolved label now c) = false := by
  unfold ChatMessage.resolved
  split_ifs with hresolves
  · unfold ChatMessage.resolves
    rw [decide_eq_false (by decide : ¬ "done" = "open")]
    rfl
  · exact Bool.eq_false_iff.mpr hresolves

/-- After one delivery nothing is left to close. -/
theorem quiet_of_step {api : ListApi} {m : ChatMessage} {list list' : List Commitment}
    (htrim : Text.trim m.text = m.text) (h : CommitmentStep api dir t m list list') :
    m.closes (senderLabel dir m.subject) list' = false := by
  cases h with
  | closed now _ =>
    unfold ChatMessage.closes
    rw [Bool.and_eq_false_iff]
    refine .inr (List.any_eq_false.mpr fun c hc => ?_)
    obtain ⟨c₀, -, rfl⟩ := List.mem_map.mp (List.mem_of_mem_drop hc)
    rw [not_resolves_resolved]
    exact Bool.false_ne_true
  | made uuid now _ hmake => exact not_closes_of_made htrim hmake _ _
  | none h _ => exact h

/-- A step where nothing is left to close. -/
theorem step_of_quiet {api : ListApi} {m : ChatMessage} {list list' : List Commitment}
    (h : CommitmentStep api dir t m list list') (hquiet : m.closes (senderLabel dir m.subject) list = false) :
    (∀ make, m.commitment api.upper api.alphanumeric dir t = some make →
      ∃ uuid now, list' = keepLast commitmentsMax (list ++ [make uuid now])) ∧
    (m.commitment api.upper api.alphanumeric dir t = none → list' = list) := by
  cases h with
  | closed now h =>
    rw [h] at hquiet
    cases hquiet
  | made uuid now _ hmake =>
    rw [hmake]
    refine ⟨fun make h => ?_, nofun⟩
    cases h
    exact ⟨uuid, now, rfl⟩
  | none _ hmake =>
    rw [hmake]
    exact ⟨nofun, fun _ => rfl⟩

/-! ### Every further delivery -/

/-- After at least one delivery of the free text: only lists have changed, and nothing is left to close. -/
structure Captured (api : SlackApi) (m : SlackMessage) (s₀ s : DeliveryState) : Prop where
  only : OnlyLists s₀ s
  quiet : api.lists.embedded = true → (m.chat (mapsOf s₀.store api.tenantId)).closes
    (senderLabel (directoryOf s₀.store api.tenantId) (m.subject (mapsOf s₀.store api.tenantId)))
    (commitmentsOf s api.tenantId) = false

theorem ListsStep.captured (htrim : Text.trim m.text = m.text) (h : ListsStep api s₀ m s s') :
    Captured api m s₀ s' := by
  refine ⟨h.only, fun hembedded => ?_⟩
  have hstep := h.commitments
  rw [if_pos hembedded] at hstep
  exact quiet_of_step htrim hstep

/-- Another delivery makes the commitment again, or changes none. -/
theorem ListsStep.commitments_of_captured (hs : Captured api m s₀ s) (h : ListsStep api s₀ m s s') :
    (api.lists.embedded = true → ∀ make, madeBy api s₀ m = some make → ∃ uuid now,
      commitmentsOf s' api.tenantId = keepLast commitmentsMax (commitmentsOf s api.tenantId ++ [make uuid now])) ∧
    (api.lists.embedded = false ∨ madeBy api s₀ m = none →
      commitmentsOf s' api.tenantId = commitmentsOf s api.tenantId) := by
  have hstep := h.commitments
  cases hembedded : api.lists.embedded with
  | false =>
    rw [hembedded] at hstep
    exact ⟨nofun, fun _ => hstep⟩
  | true =>
    rw [if_pos hembedded] at hstep
    obtain ⟨hmade, hnone⟩ := step_of_quiet hstep (hs.quiet hembedded)
    refine ⟨fun _ => hmade, ?_⟩
    rintro (h | h)
    · cases h
    · exact hnone h

theorem SameOutcome.of_lists (hs : OnlyLists s₀ s) (hs' : OnlyLists s₀ s')
    (hexplicit : claimsOf s' t .explicit = claimsOf s t .explicit)
    (hslack : (claimsOf s' t .slack).map untimed = (claimsOf s t .slack).map untimed)
    (hcommit : (commitmentsOf s' t).map Commitment.anonymous = (commitmentsOf s t).map Commitment.anonymous) :
    SameOutcome t s s' := by
  refine ⟨fun list => ?_, hcommit, fun k => ?_⟩
  · cases list with
    | slack => exact hslack
    | explicit => rw [hexplicit]
  · unfold OnlyLists at hs hs'
    rw [hs, hs']

end FreeTexts

section FreeTextRuns
variable {api : SlackApi} {body : Json} {m : SlackMessage} {s₀ s s₁ s' : DeliveryState} {w : ℕ → ChatAnswers}
  {make : String → String → Commitment} {k n : ℕ}

theorem Delivered.freeText (hm : callbackMessage body = some m) (hact : m.decision = none)
    (hplace : (m.isChannel || m.isDm) = true) (hs : OnlyLists s₀ s)
    (h : Delivered api body s₀ (w n) s s') : ListsStep api s₀ m s s' := by
  have hend := h.ends
  unfold DeliveryEnd at hend
  rw [hm] at hend
  dsimp only at hend
  rw [hact] at hend
  dsimp only at hend
  rw [if_pos hplace] at hend
  exact freeText_step hs hend

/-- A list that a push does not change any more is full of what is pushed, and stays so. -/
theorem push_fixed_iff {α : Type} {n : ℕ} {x : α} {xs : List α} :
    keepLast n (keepLast n (xs ++ [x]) ++ [x]) = keepLast n (xs ++ [x]) ↔
      keepLast n (xs ++ [x]) = List.replicate n x := by
  constructor
  · intro h
    refine eq_replicate_of_keepLast_concat ?_ h
    rw [length_keepLast]
    exact Nat.min_le_left _ _
  · intro h
    rw [h, keepLast_concat_replicate]

theorem captured_claims (api : SlackApi) (m : SlackMessage) (s₀ : DeliveryState) :
    (keepLast ClaimList.slack.cap (claimsOf s₀ api.tenantId .slack
      ++ [m.claim (mapsOf s₀.store api.tenantId) ""])).map untimed =
    keepLast ClaimList.slack.cap ((claimsOf s₀ api.tenantId .slack).map untimed ++
      [untimed (m.claim (mapsOf s₀.store api.tenantId) "")]) := by
  rw [map_keepLast, List.map_append, List.map_singleton]

theorem captured_commitments (hmake : madeBy api s₀ m = some make) (list : List Commitment)
    (uuid now : String) :
    (keepLast commitmentsMax (list ++ [make uuid now])).map Commitment.anonymous =
      keepLast commitmentsMax (list.map Commitment.anonymous ++ [(make "" "").anonymous]) := by
  rw [map_keepLast, List.map_append, List.map_singleton, anonymous_made hmake]

/-- The first delivery closes nothing if the text makes a commitment. -/
theorem first_captured (hm : callbackMessage body = some m) (hmake : madeBy api s₀ m = some make) :
    Captured api m s₀ s₀ :=
  ⟨.refl s₀, fun _ => not_closes_of_made (callbackMessage_trim hm) hmake _ _⟩

/-- What the deliveries keep, if they do no harm. -/
theorem Delivered.sameOutcome (hm : callbackMessage body = some m) (hact : m.decision = none)
    (hplace : (m.isChannel || m.isDm) = true) (hharm : api.lists.embedded = true → CaptureHarmless api s₀ m)
    (h₁ : Delivered api body s₀ (w 0) s₀ s₁) (hs : Captured api m s₀ s) (hsame : SameOutcome api.tenantId s₁ s)
    (h : Delivered api body s₀ (w n) s s') : SameOutcome api.tenantId s s' := by
  have hfirst := h₁.freeText hm hact hplace (.refl s₀)
  have hstep := h.freeText hm hact hplace hs.only
  refine .of_lists hs.only hstep.only hstep.explicit ?_ ?_
  · have hslack := hstep.slack
    split_ifs at hslack with hcapture
    · obtain ⟨hembedded, hhit⟩ := Bool.and_eq_true_iff.mp hcapture
      have hfull := (hharm hembedded).1 hhit
      rw [captured_claims] at hfull
      have hone := hfirst.slack
      rw [if_pos hcapture, hfull] at hone
      rw [hslack, hsame.claims, hone, keepLast_concat_replicate]
    · exact hslack
  · obtain ⟨hmade, hnone⟩ := hstep.commitments_of_captured hs
    cases hembedded : api.lists.embedded with
    | false => rw [hnone (.inl hembedded)]
    | true =>
      cases hmake : madeBy api s₀ m with
      | none => rw [hnone (.inr hmake)]
      | some make =>
        obtain ⟨uuid, now, hlist⟩ := hmade hembedded make hmake
        obtain ⟨uuid₁, now₁, hlist₁⟩ := (hfirst.commitments_of_captured (first_captured hm hmake)).1 hembedded
          make hmake
        have hfull := (hharm hembedded).2 make hmake
        rw [captured_commitments hmake] at hfull
        have hone := captured_commitments hmake (commitmentsOf s₀ api.tenantId) uuid₁ now₁
        rw [← hlist₁, hfull] at hone
        rw [hlist, captured_commitments hmake, hsame.commitments, hone, keepLast_concat_replicate]

/-- A commitment of the list is found further from the end after every delivery, while the cap lets it. -/
theorem Delivered.fromEnd (hm : callbackMessage body = some m) (hact : m.decision = none)
    (hplace : (m.isChannel || m.isDm) = true) (hs : Captured api m s₀ s)
    (h : Delivered api body s₀ (w n) s s') {i : ℕ} {c : Commitment} (hi : i + 1 < commitmentsMax)
    (hc : fromEnd (commitmentsOf s api.tenantId) i = some c) :
    ∃ j ≤ i + 1, fromEnd (commitmentsOf s' api.tenantId) j = some c := by
  obtain ⟨hmade, hnone⟩ := (h.freeText hm hact hplace hs.only).commitments_of_captured hs
  have hkeep : commitmentsOf s' api.tenantId = commitmentsOf s api.tenantId →
      ∃ j ≤ i + 1, Lib.fromEnd (commitmentsOf s' api.tenantId) j = some c :=
    fun heq => ⟨i, Nat.le_succ i, by rw [heq, hc]⟩
  cases hembedded : api.lists.embedded with
  | false => exact hkeep (hnone (.inl hembedded))
  | true =>
    cases hmake : madeBy api s₀ m with
    | none => exact hkeep (hnone (.inr hmake))
    | some make =>
      obtain ⟨uuid, now, hlist⟩ := hmade hembedded make hmake
      refine ⟨i + 1, le_rfl, ?_⟩
      rw [hlist, fromEnd_keepLast hi, fromEnd_concat_succ, hc]

theorem freeText_idempotent_iff (hm : callbackMessage body = some m) (hact : m.decision = none)
    (hplace : (m.isChannel || m.isDm) = true) :
    Idempotent api body s₀ w ↔ (api.lists.embedded = true → CaptureHarmless api s₀ m) := by
  have htrim := callbackMessage_trim hm
  constructor
  · intro h hembedded
    -- one further delivery shows it
    obtain ⟨s₁, h₁⟩ := exists_delivered api body s₀ (w 0) s₀
    obtain ⟨s', h'⟩ := exists_delivered api body s₀ (w 1) s₁
    have hfirst := h₁.freeText hm hact hplace (.refl s₀)
    have hcaptured := hfirst.captured htrim
    have hnext := h'.freeText hm hact hplace hcaptured.only
    have hsame := h.same s₁ 1 s' h₁ ⟨s₁, rfl, h'⟩
    refine ⟨fun hhit => ?_, fun make hmake => ?_⟩
    · have hcapture : (api.lists.embedded && m.keywordHit) = true := by rw [hembedded, hhit]; rfl
      have hone := hfirst.slack
      have htwo := hnext.slack
      rw [if_pos hcapture] at hone htwo
      rw [hsame.claims, hone] at htwo
      rw [captured_claims]
      exact push_fixed_iff.mp htwo.symm
    · obtain ⟨uuid₁, now₁, hlist₁⟩ := (hfirst.commitments_of_captured (first_captured hm hmake)).1 hembedded
        make hmake
      obtain ⟨uuid₂, now₂, hlist₂⟩ := (hnext.commitments_of_captured hcaptured).1 hembedded make hmake
      have hone := captured_commitments hmake (commitmentsOf s₀ api.tenantId) uuid₁ now₁
      have htwo := captured_commitments hmake (commitmentsOf s₁ api.tenantId) uuid₂ now₂
      rw [← hlist₁] at hone
      rw [← hlist₂, hsame.commitments, hone] at htwo
      rw [captured_commitments hmake]
      exact push_fixed_iff.mp htwo.symm
  · intro hharm
    refine ⟨fun s₁ k s' h₁ hk => ?_, fun s₁ k s' h₁ hk m' make uuid now i _ _ hfound hi => ?_⟩
    · have hrun : Captured api m s₀ s' ∧ SameOutcome api.tenantId s₁ s' := by
        refine hk.induction (I := fun _ s => Captured api m s₀ s ∧ SameOutcome api.tenantId s₁ s) ?_
          ⟨(h₁.freeText hm hact hplace (.refl s₀)).captured htrim, .of_store rfl⟩
        rintro n s s' ⟨hs, hsame⟩ h
        exact ⟨(h.freeText hm hact hplace hs.only).captured htrim,
          hsame.trans (h₁.sameOutcome hm hact hplace hharm hs hsame h)⟩
      exact hrun.2
    · have hrun : Captured api m s₀ s' ∧ (i + k < commitmentsMax → ∃ j ≤ i + k,
          fromEnd (commitmentsOf s' api.tenantId) j = some (make uuid now)) := by
        refine hk.induction (I := fun n s => Captured api m s₀ s ∧ (i + n < commitmentsMax → ∃ j ≤ i + n,
          fromEnd (commitmentsOf s api.tenantId) j = some (make uuid now))) ?_
          ⟨(h₁.freeText hm hact hplace (.refl s₀)).captured htrim, fun _ => ⟨i, le_rfl, hfound⟩⟩
        rintro n s s' ⟨hs, hplaced⟩ h
        refine ⟨(h.freeText hm hact hplace hs.only).captured htrim, fun hlt => ?_⟩
        obtain ⟨j, hj, hcj⟩ := hplaced (by omega)
        obtain ⟨j', hj', hcj'⟩ := h.fromEnd hm hact hplace hs (by omega) hcj
        exact ⟨j', by omega, hcj'⟩
      obtain ⟨j, -, hj⟩ := hrun.2 hi
      exact ⟨j, hj⟩

end FreeTextRuns

/-! ## The events that may be delivered again -/

/-- **Redelivery.** A Slack event delivered again leaves what the first delivery left, exactly if it captures
nothing or the lists are full of its copies already, and an approval that could not be posted cannot be posted
later. -/
theorem slack_idempotent_iff (api : SlackApi) (body : Json) (s₀ : DeliveryState) (w : ℕ → ChatAnswers) :
    Idempotent api body s₀ w ↔ Harmless api body s₀ w := by
  unfold Harmless
  cases hm : callbackMessage body with
  | none =>
    refine iff_of_true (idempotent_of_quiet fun n s s' hs h => ?_) nofun
    have hend := h.ends
    unfold DeliveryEnd at hend
    rw [hm] at hend
    exact hend.trans hs
  | some m =>
    have hsingle : ∀ {P : SlackMessage → Prop}, (∀ m', some m = some m' → P m') ↔ P m :=
      ⟨fun h => h m rfl, fun h _ heq => Option.some.inj heq ▸ h⟩
    rw [hsingle]
    cases hact : m.decision with
    | some act =>
      cases hd : decided api s₀.store m with
      | none =>
        -- there is no draft to decide about
        refine iff_of_true (idempotent_of_quiet fun n s s' hs h => ?_) ?_
        · have hend := h.decision hm hact
          unfold DecisionEnd at hend
          rw [hs, hd] at hend
          exact hend
        · cases act with
          | approve =>
            intro twin d snap h
            rw [hd] at h
            cases h
          | dontSend => trivial
      | some found =>
        obtain ⟨twin, d₀⟩ := found
        rw [decision_idempotent_iff hm hact hd]
        cases act with
        | approve => exact approve_fixed_iff hd
        | dontSend => exact iff_of_true (statusAt_of_fixed fun k => veto_fixed _ _ _) trivial
    | none =>
      cases hplace : m.isChannel || m.isDm with
      | true =>
        rw [freeText_idempotent_iff hm hact hplace]
        exact ⟨fun h _ => h, fun h => h rfl⟩
      | false =>
        refine iff_of_true (idempotent_of_quiet fun n s s' hs h => ?_) nofun
        have hend := h.ends
        unfold DeliveryEnd at hend
        rw [hm] at hend
        dsimp only at hend
        rw [hact] at hend
        dsimp only at hend
        rw [hplace, if_neg Bool.false_ne_true] at hend
        exact hend.trans hs

/-- A tenant without lists, and a report in a channel. -/
def reportApi : SlackApi :=
  ⟨⟨true, fun c => c.toUpper.toString, Char.isAlphanum, fun _ => "", "", ""⟩, ⟨.slack, {}⟩, some "ten_demo", ""⟩

def report : Json :=
  .obj [("type", .str "event_callback"), ("event", .obj [("type", .str "message"), ("channel", .str "C1"),
    ("user", .str "U1"), ("ts", .str "1.0"), ("text", .str "blocked on security review")])]

def nothingStored : DeliveryState := ⟨InMemoryTwinStore.new, [], []⟩

def answersOk : ChatAnswers := ⟨.ok ⟨"D", "1"⟩, .ok ⟨"C", "1"⟩⟩

/-- The report is kept as a claim once more each time it is delivered. -/
theorem report_kept_twice : ¬ ∀ api body s₀ w, Idempotent api body s₀ w := by
  intro h
  have hm : callbackMessage report =
    some ⟨"blocked on security review", "U1", "C1", "1.0", false, true⟩ := by decide +kernel
  have hiff : Idempotent reportApi report nothingStored (fun _ => answersOk) ↔
      (reportApi.lists.embedded = true → CaptureHarmless reportApi nothingStored _) :=
    freeText_idempotent_iff hm (by decide +kernel) rfl
  have hfull := (hiff.mp (h reportApi report nothingStored _) rfl).1 (by decide +kernel)
  have hlength := congrArg List.length hfull
  rw [List.length_map, length_keepLast, List.length_replicate] at hlength
  exact absurd hlength (by decide)

end AiManager.Platform
