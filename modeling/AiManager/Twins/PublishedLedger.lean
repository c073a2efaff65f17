import AiManager.Lib.Run
import AiManager.Twins.Store

/-! # Published ledgers over runs of the store

Once a publish is recorded for a ledger, its content is what an audit reads and no second publish
may be recorded. `putLedger` guards this with the publish records of the ledger it writes. Two steps
get around the guard: a put of another ledger of the same period, which removes the published one
without asking for its records, and a restart, whose snapshot carries no publish records. -/

namespace AiManager.Twins

open Lib

/-- A step of a store: an operation, or an export imported into a fresh store. -/
inductive StoreStep where
  | putLedger (snap : LedgerSnapshot)
  | putDraft (draft : DraftDelivery)
  | updateDraft (draft : DraftDelivery)
  | putPublishIfAbsent (rec : PublishRecord)
  | restart (snap : TwinPersistSnapshot)

/-- The rows of a snapshot are those of the store, in any order: the order in which a sharded map
is iterated is not specified. -/
structure TwinPersistSnapshot.Exports (snap : TwinPersistSnapshot) (st : InMemoryTwinStore) :
    Prop where
  twins : snap.twins.Perm (st.exportSnapshot 0).twins
  slackMaps : snap.slackMaps.Perm (st.exportSnapshot 0).slackMaps
  drafts : snap.drafts.Perm (st.exportSnapshot 0).drafts
  ledgers : snap.ledgers.Perm (st.exportSnapshot 0).ledgers
  tenantKv : snap.tenantKv.Perm (st.exportSnapshot 0).tenantKv

namespace StoreStep

def apply (st : InMemoryTwinStore) : StoreStep → InMemoryTwinStore
  | .putLedger snap => (st.putLedger snap).2
  | .putDraft draft => (st.putDraft draft).2
  | .updateDraft draft => (st.updateDraft draft).2
  | .putPublishIfAbsent rec => (st.putPublishIfAbsent rec).2
  | .restart snap => InMemoryTwinStore.new.importSnapshot snap

/-- A restart imports what was exported. -/
def Valid (st : InMemoryTwinStore) : StoreStep → Prop
  | .restart snap => snap.Exports st
  | _ => True

/-- The steps that leave a published ledger alone: no restart, and no put of another, unpublished
ledger under the period that the stored ledger is filed under. -/
def Spares (tenantId ledgerId : String) (st : InMemoryTwinStore) : StoreStep → Prop
  | .putLedger snap =>
    ¬ (st.publishByLedger.has snap.key = false ∧ snap.tenantId = tenantId ∧
      snap.ledgerId ≠ ledgerId ∧ st.ledgerPeriod.get snap.periodKey = some ledgerId ∧
      (st.getLedger tenantId ledgerId).isSome)
  | .restart _ => False
  | _ => True

end StoreStep

/-- The ledger still has the content `content`, and no publish of it would be new. -/
structure Settled (tenantId ledgerId : String) (content : Option LedgerSnapshot)
    (st : InMemoryTwinStore) : Prop where
  content_eq : st.getLedger tenantId ledgerId = content
  not_new : ∀ rec : PublishRecord, rec.ledgerKey = (tenantId, ledgerId) →
    (st.putPublishIfAbsent rec).1 = .ok false

section Step
variable {tenantId ledgerId : String} {content : Option LedgerSnapshot} {st : InMemoryTwinStore}

/-- A publish record of a ledger, for asking whether it would be new. -/
private def probe (tenantId ledgerId : String) : PublishRecord :=
  { (default : PublishRecord) with tenantId, ledgerId }

theorem not_new_iff :
    (∀ rec : PublishRecord, rec.ledgerKey = (tenantId, ledgerId) →
      (st.putPublishIfAbsent rec).1 = .ok false) ↔
    st.publishByLedger.has (tenantId, ledgerId) = true := by
  constructor
  · intro h
    exact InMemoryTwinStore.putPublishIfAbsent_eq_false_iff.mp (h (probe tenantId ledgerId) rfl)
  · intro h rec hrec
    rw [InMemoryTwinStore.putPublishIfAbsent_eq_false_iff, hrec]
    exact h

theorem settled_iff : Settled tenantId ledgerId content st ↔
    st.getLedger tenantId ledgerId = content ∧
      st.publishByLedger.has (tenantId, ledgerId) = true :=
  ⟨fun h => ⟨h.content_eq, not_new_iff.mp h.not_new⟩, fun h => ⟨h.1, not_new_iff.mpr h.2⟩⟩

/-- What a put of a ledger does to a published one. -/
theorem putLedger_getLedger_eq_iff (snap : LedgerSnapshot)
    (hpub : st.publishByLedger.has (tenantId, ledgerId) = true) :
    (st.putLedger snap).2.getLedger tenantId ledgerId = st.getLedger tenantId ledgerId ↔
      StoreStep.Spares tenantId ledgerId st (.putLedger snap) := by
  cases hfree : st.publishByLedger.has snap.key with
  | true =>
    rw [InMemoryTwinStore.putLedger_published hfree]
    simp [StoreStep.Spares, hfree]
  | false =>
    have hne : (tenantId, ledgerId) ≠ snap.key := by
      intro heq
      rw [heq, hfree] at hpub
      cases hpub
    rw [InMemoryTwinStore.getLedger_putLedger hfree hne, InMemoryTwinStore.withoutReplaced_get]
    unfold StoreStep.Spares
    split_ifs with hrepl
    · -- the put removes the ledger: its content is kept only if there was none
      obtain ⟨htenant, hother, hperiod⟩ := hrepl
      cases hget : st.getLedger tenantId ledgerId with
      | none => simp
      | some l => simp [hfree, htenant, hother, hperiod]
    · refine iff_of_true rfl ?_
      rintro ⟨-, htenant, hother, hperiod, -⟩
      exact hrepl ⟨htenant, hother, hperiod⟩

/-- A restarted store has no publish records. -/
theorem restart_forgets (snap : TwinPersistSnapshot) (k : String × String) :
    (StoreStep.apply st (.restart snap)).publishByLedger.has k = false := by
  show (InMemoryTwinStore.new.importSnapshot snap).publishByLedger.has k = false
  rw [InMemoryTwinStore.importSnapshot_publishByLedger]
  rfl

/-- **One step.** A settled ledger stays settled exactly under the steps that spare it. -/
theorem settled_step_iff (x : StoreStep) (h : Settled tenantId ledgerId content st) :
    Settled tenantId ledgerId content (x.apply st) ↔ x.Spares tenantId ledgerId st := by
  obtain ⟨hcontent, hpub⟩ := settled_iff.mp h
  rw [settled_iff, ← hcontent]
  cases x with
  | putLedger snap =>
    rw [← putLedger_getLedger_eq_iff snap hpub]
    simp [StoreStep.apply, hpub]
  | putDraft draft => simp [StoreStep.apply, StoreStep.Spares, InMemoryTwinStore.getLedger, hpub]
  | updateDraft draft =>
    simp [StoreStep.apply, StoreStep.Spares, InMemoryTwinStore.getLedger, hpub]
  | putPublishIfAbsent rec =>
    have hkept := InMemoryTwinStore.has_putPublishIfAbsent rec hpub
    simp [StoreStep.apply, StoreStep.Spares, InMemoryTwinStore.getLedger, hkept]
  | restart snap =>
    refine iff_of_false ?_ not_false
    rintro ⟨-, hhas⟩
    rw [restart_forgets] at hhas
    cases hhas

end Step

/-- A run as it can happen: every restart imports an export of the state before it. -/
def ValidRun (st : InMemoryTwinStore) (steps : List StoreStep) : Prop :=
  EachStep StoreStep.apply StoreStep.Valid st steps

/-- Every publish of a store that the operations have built is filed with its record. -/
theorem publishIndexed_apply {st : InMemoryTwinStore} (h : st.PublishIndexed) (x : StoreStep) :
    (x.apply st).PublishIndexed := by
  cases x with
  | putLedger snap =>
    exact h.congr (InMemoryTwinStore.putLedger_publishByLedger snap)
      (InMemoryTwinStore.putLedger_publishes snap)
  | putDraft draft =>
    exact h.congr (InMemoryTwinStore.putDraft_publishByLedger draft)
      (InMemoryTwinStore.putDraft_publishes draft)
  | updateDraft draft =>
    exact h.congr (InMemoryTwinStore.updateDraft_publishByLedger draft)
      (InMemoryTwinStore.updateDraft_publishes draft)
  | putPublishIfAbsent rec => exact h.putPublishIfAbsent rec
  | restart snap =>
    exact InMemoryTwinStore.publishIndexed_new.congr
      (InMemoryTwinStore.importSnapshot_publishByLedger _ snap)
      (InMemoryTwinStore.importSnapshot_publishes _ snap)

theorem publishIndexed_run {st : InMemoryTwinStore} (h : st.PublishIndexed)
    (steps : List StoreStep) : (runFrom StoreStep.apply st steps).PublishIndexed := by
  induction steps generalizing st with
  | nil => exact h
  | cons x xs ih => exact ih (publishIndexed_apply h x)

/-- **Published ledgers.** After a publish of a ledger is recorded, its content stays and no later
publish of it is new, throughout a run, exactly when every step of the run spares the ledger. -/
theorem published_settled_iff {st₀ st : InMemoryTwinStore} (rec : PublishRecord)
    {steps : List StoreStep} (hpub : st₀.putPublishIfAbsent rec = (.ok true, st))
    (hrun : ValidRun st steps) :
    Throughout StoreStep.apply
        (Settled rec.tenantId rec.ledgerId (st.getLedger rec.tenantId rec.ledgerId)) st steps ↔
      EachStep StoreStep.apply (StoreStep.Spares rec.tenantId rec.ledgerId) st steps := by
  have hhas := InMemoryTwinStore.putPublishIfAbsent_true (congrArg Prod.fst hpub)
  rw [hpub] at hhas
  exact throughout_iff (fun _ x _ h => settled_step_iff x h) hrun (settled_iff.mpr ⟨rfl, hhas⟩)

/-! ### Two runs that lose a published ledger -/

def ledgerA : LedgerSnapshot :=
  { (default : LedgerSnapshot) with
    tenantId := "t", ledgerId := "A", twinId := "twin", periodStart := 0, periodEnd := 86400 }

/-- Another ledger of the same period. -/
def ledgerB : LedgerSnapshot := { ledgerA with ledgerId := "B" }

def publishA : PublishRecord :=
  { (default : PublishRecord) with tenantId := "t", publishId := "p", ledgerId := "A" }

/-- A store in which `A` was put and published. -/
def storeA : InMemoryTwinStore :=
  ((InMemoryTwinStore.new.putLedger ledgerA).2.putPublishIfAbsent publishA).2

theorem storeA_exports : ((storeA.exportSnapshot 0).Exports storeA) :=
  ⟨.rfl, .rfl, .rfl, .rfl, .rfl⟩

theorem published_ledger_lost :
    let content := storeA.getLedger "t" "A"
    (((InMemoryTwinStore.new.putLedger ledgerA).2.putPublishIfAbsent publishA).1 = .ok true) ∧
    content = some ledgerA ∧
    ¬ Throughout StoreStep.apply (Settled "t" "A" content) storeA [.putLedger ledgerB] ∧
    ValidRun storeA [.restart (storeA.exportSnapshot 0)] ∧
    ¬ Throughout StoreStep.apply (Settled "t" "A" content) storeA
      [.restart (storeA.exportSnapshot 0)] := by
  refine ⟨by decide, by decide, ?_, ⟨storeA_exports, trivial⟩, ?_⟩
  · intro h
    have hcontent := h.last.content_eq
    revert hcontent
    decide
  · intro h
    have hnew := h.last.not_new publishA rfl
    revert hnew
    decide

theorem published_settled_iff_restart :
    Throughout StoreStep.apply (Settled "t" "A" (storeA.getLedger "t" "A")) storeA
        [.restart (storeA.exportSnapshot 0)] ↔
      EachStep StoreStep.apply (StoreStep.Spares "t" "A") storeA
        [.restart (storeA.exportSnapshot 0)] :=
  have hpub : (InMemoryTwinStore.new.putLedger ledgerA).2.putPublishIfAbsent publishA =
      (.ok true, storeA) := rfl
  published_settled_iff publishA hpub ⟨storeA_exports, trivial⟩

end AiManager.Twins
