import AiManager.Twins.Model
import AiManager.Lib.KMap
import AiManager.Lib.Run

/-! # The embedded twin store

`InMemoryTwinStore` and its operations. A call gives its answer and the next state; a call that
answers an error leaves the state as it was. The snapshot that survives a restart lists twins, Slack
maps, drafts, ledgers and tenant values; nothing of what was published. -/

namespace AiManager.Twins

open Lib

structure InMemoryTwinStore where
  twins : Table Twin.key
  slackMap : Table SlackUserMap.key
  ledgers : Table LedgerSnapshot.key
  /-- (tenant, twin, period start, period end) → ledger id -/
  ledgerPeriod : KMap (String × String × String × String) String
  drafts : Table DraftDelivery.key
  draftByLedger : KMap (String × String) String
  publishes : Table PublishRecord.key
  /-- ledger id uniqueness for publish -/
  publishByLedger : KMap (String × String) String
  compileRuns : Table CompileRun.key
  /-- (tenant, key) → value -/
  tenantKv : KMap (String × String) Json

/-- On-disk snapshot of an embedded store. -/
structure TwinPersistSnapshot where
  version : Nat
  savedAt : Option String
  twins : List Twin
  slackMaps : List SlackUserMap
  drafts : List DraftDelivery
  ledgers : List LedgerSnapshot
  tenantKv : List TenantKvEntry

namespace InMemoryTwinStore

def new : InMemoryTwinStore := ⟨∅, ∅, ∅, ∅, ∅, ∅, ∅, ∅, ∅, ∅⟩

variable (st : InMemoryTwinStore)

/-! ## Twins and maps -/

def upsertTwin (twin : Twin) : TwinResult Unit × InMemoryTwinStore :=
  (.ok (), { st with twins := st.twins.put twin })

def getTwin (tenantId twinId : String) : Option Twin := st.twins.get (tenantId, twinId)

def listTwins (tenantId : String) : List Twin :=
  st.twins.values.filter fun t => t.tenantId = tenantId

def putSlackMap (m : SlackUserMap) : TwinResult Unit × InMemoryTwinStore :=
  (.ok (), { st with slackMap := st.slackMap.put m })

def getSlackMap (tenantId globalUserId : String) : Option SlackUserMap :=
  st.slackMap.get (tenantId, globalUserId)

def getTenantKv (tenantId key : String) : Option Json := st.tenantKv.get (tenantId, key)

def putTenantKv (tenantId key : String) (value : Json) : InMemoryTwinStore :=
  { st with tenantKv := st.tenantKv.put (tenantId, key) value }

/-! ## Ledgers -/

/-- The ledgers without the one that `snap` replaces: another id under the same period. -/
def withoutReplaced (snap : LedgerSnapshot) : Table LedgerSnapshot.key :=
  match st.ledgerPeriod.get snap.periodKey with
  | some existingId =>
    if existingId ≠ snap.ledgerId then st.ledgers.del (snap.tenantId, existingId) else st.ledgers
  | none => st.ledgers

def putLedger (snap : LedgerSnapshot) : TwinResult Unit × InMemoryTwinStore :=
  -- If already published for this ledger id, do not replace content used for audit
  if st.publishByLedger.has snap.key then
    (.error (.conflict ("ledger " ++ snap.ledgerId ++ " already published")), st)
  else
    (.ok (), { st with
      ledgers := (st.withoutReplaced snap).put snap
      ledgerPeriod := st.ledgerPeriod.put snap.periodKey snap.ledgerId })

def getLedger (tenantId ledgerId : String) : Option LedgerSnapshot :=
  st.ledgers.get (tenantId, ledgerId)

def getLedgerByPeriod (tenantId twinId : String) (periodStart periodEnd : DateTime) :
    Option LedgerSnapshot :=
  match st.ledgerPeriod.get (tenantId, twinId, periodStart.toRfc3339, periodEnd.toRfc3339) with
  | some id => st.getLedger tenantId id
  | none => none

/-! ## Drafts -/

def putDraft (draft : DraftDelivery) : TwinResult Unit × InMemoryTwinStore :=
  let stored : InMemoryTwinStore := { st with
    draftByLedger := st.draftByLedger.put draft.ledgerKey draft.draftId
    drafts := st.drafts.put draft }
  match st.draftByLedger.get draft.ledgerKey with
  | some existingId =>
    if existingId ≠ draft.draftId then
      (.error (.conflict ("draft already exists for ledger " ++ draft.ledgerId)), st)
    else (.ok (), stored)
  | none => (.ok (), stored)

def getDraft (tenantId draftId : String) : Option DraftDelivery := st.drafts.get (tenantId, draftId)

def getDraftByLedger (tenantId ledgerId : String) : Option DraftDelivery :=
  match st.draftByLedger.get (tenantId, ledgerId) with
  | some id => st.getDraft tenantId id
  | none => none

/-- The whole row is replaced, whatever it held. -/
def updateDraft (draft : DraftDelivery) : TwinResult Unit × InMemoryTwinStore :=
  if st.drafts.has draft.key then (.ok (), { st with drafts := st.drafts.put draft })
  else (.error (.notFound ("draft " ++ draft.draftId)), st)

/-! ## Publish records -/

/-- Answers whether the record is new for its ledger. -/
def putPublishIfAbsent (rec : PublishRecord) : TwinResult Bool × InMemoryTwinStore :=
  if st.publishByLedger.has rec.ledgerKey then (.ok false, st)
  else (.ok true, { st with
    publishByLedger := st.publishByLedger.put rec.ledgerKey rec.publishId
    publishes := st.publishes.put rec })

def getPublishByLedger (tenantId ledgerId : String) : Option PublishRecord :=
  match st.publishByLedger.get (tenantId, ledgerId) with
  | some id => st.publishes.get (tenantId, id)
  | none => none

def putCompileRun (run : CompileRun) : TwinResult Unit × InMemoryTwinStore :=
  (.ok (), { st with compileRuns := st.compileRuns.put run })

/-! ## Snapshots -/

/-- Export durable pilot state (team map and digests) for embedded restarts. -/
def exportSnapshot (now : DateTime) : TwinPersistSnapshot where
  version := 2
  savedAt := some now.toRfc3339
  twins := st.twins.values
  slackMaps := st.slackMap.values
  drafts := st.drafts.values
  ledgers := st.ledgers.values
  tenantKv := st.tenantKv.items.map fun e => ⟨e.1.1, e.1.2, e.2⟩

def importDraft (st : InMemoryTwinStore) (d : DraftDelivery) : InMemoryTwinStore :=
  { st with
    draftByLedger := st.draftByLedger.put d.ledgerKey d.draftId
    drafts := st.drafts.put d }

def importLedger (st : InMemoryTwinStore) (l : LedgerSnapshot) : InMemoryTwinStore :=
  { st with
    ledgerPeriod := st.ledgerPeriod.put l.periodKey l.ledgerId
    ledgers := st.ledgers.put l }

def importKv (st : InMemoryTwinStore) (e : TenantKvEntry) : InMemoryTwinStore :=
  st.putTenantKv e.tenantId e.key e.value

/-- Restore from disk: an upsert of every row of the snapshot. -/
def importSnapshot (snap : TwinPersistSnapshot) : InMemoryTwinStore :=
  let st := { st with
    twins := st.twins.putAll snap.twins
    slackMap := st.slackMap.putAll snap.slackMaps }
  snap.tenantKv.foldl importKv (snap.ledgers.foldl importLedger (snap.drafts.foldl importDraft st))

/-- Every publish that is filed under its ledger is stored. -/
def PublishIndexed : Prop :=
  ∀ k id, st.publishByLedger.get k = some id → (st.publishes.get (k.1, id)).isSome

/-! ## What the operations do -/

section Specs
variable {st}

theorem withoutReplaced_get (snap : LedgerSnapshot) (tenantId ledgerId : String) :
    (st.withoutReplaced snap).get (tenantId, ledgerId) =
      if snap.tenantId = tenantId ∧ snap.ledgerId ≠ ledgerId ∧
          st.ledgerPeriod.get snap.periodKey = some ledgerId
      then none else st.getLedger tenantId ledgerId := by
  unfold withoutReplaced getLedger
  cases hperiod : st.ledgerPeriod.get snap.periodKey with
  | none => simp
  | some existingId =>
    dsimp only
    by_cases hsame : existingId = snap.ledgerId
    · subst hsame
      rw [if_neg (by simp), if_neg]
      rintro ⟨-, hne, heq⟩
      exact hne (Option.some.inj heq)
    · rw [if_pos hsame]
      by_cases hkey : snap.tenantId = tenantId ∧ existingId = ledgerId
      · obtain ⟨rfl, rfl⟩ := hkey
        rw [Table.get_del_self, if_pos ⟨rfl, Ne.symm hsame, rfl⟩]
      · rw [Table.get_del_ne, if_neg]
        · rintro ⟨htenant, -, heq⟩
          exact hkey ⟨htenant, Option.some.inj heq⟩
        · intro heq
          obtain ⟨htenant, hid⟩ := Prod.mk.inj heq
          exact hkey ⟨htenant.symm, hid.symm⟩

theorem getLedger_putLedger {snap : LedgerSnapshot} {tenantId ledgerId : String}
    (hfree : st.publishByLedger.has snap.key = false) (hne : (tenantId, ledgerId) ≠ snap.key) :
    (st.putLedger snap).2.getLedger tenantId ledgerId =
      (st.withoutReplaced snap).get (tenantId, ledgerId) := by
  simp only [putLedger, hfree, getLedger, Bool.false_eq_true, if_false]
  exact Table.get_put_ne _ hne

theorem putLedger_published {snap : LedgerSnapshot} (h : st.publishByLedger.has snap.key = true) :
    st.putLedger snap =
      (.error (.conflict ("ledger " ++ snap.ledgerId ++ " already published")), st) := by
  simp [putLedger, h]

/-- A put of an unpublished ledger makes it the one of its period. -/
theorem putLedger_free {snap : LedgerSnapshot} (h : st.publishByLedger.has snap.key = false) :
    (st.putLedger snap).1 = .ok () ∧
    (st.putLedger snap).2.getLedgerByPeriod snap.tenantId snap.twinId snap.periodStart
      snap.periodEnd = some snap := by
  simp only [putLedger, h, Bool.false_eq_true, if_false, true_and]
  have hperiod : (st.ledgerPeriod.put snap.periodKey snap.ledgerId).get snap.periodKey =
      some snap.ledgerId := KMap.get_put_self _ _ _
  simp only [getLedgerByPeriod]
  rw [show (snap.tenantId, snap.twinId, snap.periodStart.toRfc3339, snap.periodEnd.toRfc3339) =
    snap.periodKey from rfl, hperiod]
  exact Table.get_put_self _ _

@[simp] theorem putLedger_publishByLedger (snap : LedgerSnapshot) :
    (st.putLedger snap).2.publishByLedger = st.publishByLedger := by
  unfold putLedger; split_ifs <;> rfl

@[simp] theorem putLedger_publishes (snap : LedgerSnapshot) :
    (st.putLedger snap).2.publishes = st.publishes := by
  unfold putLedger; split_ifs <;> rfl

@[simp] theorem putDraft_publishByLedger (draft : DraftDelivery) :
    (st.putDraft draft).2.publishByLedger = st.publishByLedger := by
  unfold putDraft
  split
  · split_ifs <;> rfl
  · rfl

@[simp] theorem putDraft_ledgers (draft : DraftDelivery) :
    (st.putDraft draft).2.ledgers = st.ledgers := by
  unfold putDraft
  split
  · split_ifs <;> rfl
  · rfl

@[simp] theorem updateDraft_publishByLedger (draft : DraftDelivery) :
    (st.updateDraft draft).2.publishByLedger = st.publishByLedger := by
  unfold updateDraft; split_ifs <;> rfl

@[simp] theorem updateDraft_ledgers (draft : DraftDelivery) :
    (st.updateDraft draft).2.ledgers = st.ledgers := by
  unfold updateDraft; split_ifs <;> rfl

@[simp] theorem putPublishIfAbsent_ledgers (rec : PublishRecord) :
    (st.putPublishIfAbsent rec).2.ledgers = st.ledgers := by
  unfold putPublishIfAbsent; split_ifs <;> rfl

/-- A publish is recorded once and for all, as far as publishing goes. -/
theorem has_putPublishIfAbsent (rec : PublishRecord) {k : String × String}
    (h : st.publishByLedger.has k = true) :
    (st.putPublishIfAbsent rec).2.publishByLedger.has k = true := by
  unfold putPublishIfAbsent
  split_ifs
  · exact h
  · obtain ⟨id, hid⟩ := KMap.has_iff.mp h
    refine KMap.has_iff.mpr ?_
    show ∃ v, (st.publishByLedger.put rec.ledgerKey rec.publishId).get k = some v
    rw [KMap.get_put]
    split_ifs
    · exact ⟨_, rfl⟩
    · exact ⟨id, hid⟩

theorem has_putPublishIfAbsent_self (rec : PublishRecord) :
    (st.putPublishIfAbsent rec).2.publishByLedger.has rec.ledgerKey = true := by
  unfold putPublishIfAbsent
  split_ifs with h
  · exact h
  · exact KMap.has_iff.mpr ⟨_, KMap.get_put_self _ _ _⟩

theorem putPublishIfAbsent_true {rec : PublishRecord}
    (h : (st.putPublishIfAbsent rec).1 = .ok true) :
    (st.putPublishIfAbsent rec).2.publishByLedger.has rec.ledgerKey = true := by
  unfold putPublishIfAbsent at h ⊢
  split_ifs at h ⊢
  · cases h
  · exact KMap.has_iff.mpr ⟨_, KMap.get_put_self _ _ _⟩

theorem putPublishIfAbsent_eq_false_iff {rec : PublishRecord} :
    (st.putPublishIfAbsent rec).1 = .ok false ↔ st.publishByLedger.has rec.ledgerKey = true := by
  unfold putPublishIfAbsent
  split_ifs with h <;> simp [h]

@[simp] theorem putDraft_publishes (draft : DraftDelivery) :
    (st.putDraft draft).2.publishes = st.publishes := by
  unfold putDraft
  split
  · split_ifs <;> rfl
  · rfl

@[simp] theorem updateDraft_publishes (draft : DraftDelivery) :
    (st.updateDraft draft).2.publishes = st.publishes := by
  unfold updateDraft; split_ifs <;> rfl

@[simp] theorem putPublishIfAbsent_drafts (rec : PublishRecord) :
    (st.putPublishIfAbsent rec).2.drafts = st.drafts := by
  unfold putPublishIfAbsent; split_ifs <;> rfl

theorem publishIndexed_new : new.PublishIndexed := fun _ _ h => by cases h

theorem PublishIndexed.congr {st' : InMemoryTwinStore} (h : st.PublishIndexed)
    (hindex : st'.publishByLedger = st.publishByLedger) (hpublishes : st'.publishes = st.publishes) :
    st'.PublishIndexed := by
  intro k id hk
  rw [hindex] at hk
  rw [hpublishes]
  exact h k id hk

/-- The index stays good when a publish is recorded: a record that takes the place of another one
has the same id, so that nothing is lost from the index. -/
theorem PublishIndexed.putPublishIfAbsent (h : st.PublishIndexed) (rec : PublishRecord) :
    (st.putPublishIfAbsent rec).2.PublishIndexed := by
  unfold InMemoryTwinStore.putPublishIfAbsent
  split_ifs
  · exact h
  · intro k id hk
    change (st.publishByLedger.put rec.ledgerKey rec.publishId).get k = some id at hk
    show ((st.publishes.put rec).get (k.1, id)).isSome
    rw [Table.get_put]
    split_ifs with hrec
    · rfl
    · rw [KMap.get_put] at hk
      split_ifs at hk with hledger
      · subst hledger
        cases hk
        exact absurd rfl hrec
      · exact h k id hk

theorem getPublishByLedger_none (h : st.PublishIndexed) {tenantId ledgerId : String}
    (hnone : st.getPublishByLedger tenantId ledgerId = none) :
    st.publishByLedger.has (tenantId, ledgerId) = false := by
  rw [KMap.has_eq_false_iff]
  unfold getPublishByLedger at hnone
  cases hget : st.publishByLedger.get (tenantId, ledgerId) with
  | none => rfl
  | some id =>
    rw [hget] at hnone
    have hsome : (st.publishes.get (tenantId, id)).isSome := h _ _ hget
    rw [show st.publishes.get (tenantId, id) = none from hnone] at hsome
    cases hsome

/-- A draft in the store after a put is the one put, or was there before. -/
theorem drafts_putDraft {draft d : DraftDelivery} {k : String × String}
    (h : (st.putDraft draft).2.drafts.get k = some d) : d = draft ∨ st.drafts.get k = some d := by
  have hput : (st.drafts.put draft).get k = some d → d = draft ∨ st.drafts.get k = some d := by
    intro h
    rw [Table.get_put] at h
    split_ifs at h
    · exact .inl (Option.some.inj h).symm
    · exact .inr h
  unfold putDraft at h
  split at h
  · split_ifs at h
    · exact .inr h
    · exact hput h
  · exact hput h

theorem drafts_updateDraft {draft d : DraftDelivery} {k : String × String}
    (h : (st.updateDraft draft).2.drafts.get k = some d) :
    d = draft ∨ st.drafts.get k = some d := by
  unfold updateDraft at h
  split_ifs at h
  · change (st.drafts.put draft).get k = some d at h
    rw [Table.get_put] at h
    split_ifs at h
    · exact .inl (Option.some.inj h).symm
    · exact .inr h
  · exact .inr h

theorem getDraftByLedger_some {tenantId ledgerId : String} {d : DraftDelivery}
    (h : st.getDraftByLedger tenantId ledgerId = some d) :
    ∃ id, st.draftByLedger.get (tenantId, ledgerId) = some id ∧
      st.drafts.get (tenantId, id) = some d := by
  unfold getDraftByLedger at h
  split at h
  · next id hid => exact ⟨id, hid, h⟩
  · cases h

/-- A put that succeeds files the draft under its ledger, which was free or filed it already. -/
theorem putDraft_ok {draft : DraftDelivery} (h : (st.putDraft draft).1 = .ok ()) :
    (st.draftByLedger.get draft.ledgerKey = none ∨
      st.draftByLedger.get draft.ledgerKey = some draft.draftId) ∧
    (st.putDraft draft).2.drafts = st.drafts.put draft ∧
    (st.putDraft draft).2.draftByLedger =
      st.draftByLedger.put draft.ledgerKey draft.draftId := by
  unfold putDraft at h ⊢
  cases hget : st.draftByLedger.get draft.ledgerKey with
  | none => exact ⟨.inl rfl, rfl, rfl⟩
  | some existingId =>
    rw [hget] at h
    by_cases hsame : existingId = draft.draftId
    · rw [hsame]
      simp
    · simp [hsame] at h

/-- A put that fails changes nothing. -/
theorem putDraft_error {draft : DraftDelivery} {e : TwinError}
    (h : (st.putDraft draft).1 = .error e) : (st.putDraft draft).2 = st := by
  unfold putDraft at h ⊢
  cases hget : st.draftByLedger.get draft.ledgerKey with
  | none => simp [hget] at h
  | some existingId =>
    rw [hget] at h
    by_cases hsame : existingId = draft.draftId
    · simp [hsame] at h
    · simp [hsame]

/-- The ledger that a draft is filed under keeps it. -/
theorem draftByLedger_putDraft {k : String × String} {id : String}
    (h : st.draftByLedger.get k = some id) (draft : DraftDelivery) :
    (st.putDraft draft).2.draftByLedger.get k = some id := by
  cases hput : (st.putDraft draft).1 with
  | error e => rw [putDraft_error hput, h]
  | ok u =>
    obtain ⟨hfree, -, hindex⟩ := putDraft_ok hput
    rw [hindex, KMap.get_put]
    split_ifs with hk
    · subst hk
      rw [h] at hfree
      rcases hfree with hnone | hsame
      · cases hnone
      · exact hsame.symm
    · exact h

@[simp] theorem updateDraft_draftByLedger (draft : DraftDelivery) :
    (st.updateDraft draft).2.draftByLedger = st.draftByLedger := by
  unfold updateDraft; split_ifs <;> rfl

@[simp] theorem putPublishIfAbsent_draftByLedger (rec : PublishRecord) :
    (st.putPublishIfAbsent rec).2.draftByLedger = st.draftByLedger := by
  unfold putPublishIfAbsent; split_ifs <;> rfl

/-- An update that succeeds replaces a stored draft. -/
theorem updateDraft_ok {draft : DraftDelivery} (h : (st.updateDraft draft).1 = .ok ()) :
    st.drafts.has draft.key = true ∧ (st.updateDraft draft).2.drafts = st.drafts.put draft := by
  unfold updateDraft at h ⊢
  split_ifs at h ⊢ with hhas
  · exact ⟨hhas, rfl⟩

theorem updateDraft_error {draft : DraftDelivery} {e : TwinError}
    (h : (st.updateDraft draft).1 = .error e) : (st.updateDraft draft).2 = st := by
  unfold updateDraft at h ⊢
  split_ifs at h ⊢ with hhas
  · rfl

/-- A write of another draft leaves a draft alone. -/
theorem getDraft_putDraft_ne {draft : DraftDelivery} {k : String × String} (h : draft.key ≠ k) :
    (st.putDraft draft).2.drafts.get k = st.drafts.get k := by
  cases hput : (st.putDraft draft).1 with
  | error e => rw [putDraft_error hput]
  | ok u => rw [(putDraft_ok hput).2.1, Table.get_put_ne _ (Ne.symm h)]

theorem getDraft_updateDraft_ne {draft : DraftDelivery} {k : String × String}
    (h : draft.key ≠ k) : (st.updateDraft draft).2.drafts.get k = st.drafts.get k := by
  unfold updateDraft
  split_ifs
  · exact Table.get_put_ne _ (Ne.symm h)
  · rfl

end Specs

/-- An import leaves the publish records of the store as they were. -/
theorem importSnapshot_publishByLedger (snap : TwinPersistSnapshot) :
    (st.importSnapshot snap).publishByLedger = st.publishByLedger := by
  unfold importSnapshot
  rw [foldl_keeps importKv (·.publishByLedger) fun _ _ => rfl,
    foldl_keeps importLedger (·.publishByLedger) fun _ _ => rfl,
    foldl_keeps importDraft (·.publishByLedger) fun _ _ => rfl]

theorem importSnapshot_publishes (snap : TwinPersistSnapshot) :
    (st.importSnapshot snap).publishes = st.publishes := by
  unfold importSnapshot
  rw [foldl_keeps importKv (·.publishes) fun _ _ => rfl,
    foldl_keeps importLedger (·.publishes) fun _ _ => rfl,
    foldl_keeps importDraft (·.publishes) fun _ _ => rfl]

end InMemoryTwinStore

end AiManager.Twins
