import AiManager.Lib.Run
import AiManager.Twins.StoreCrdb

/-! # Two stores for drafts

The embedded and the production twin store under the same calls. They agree until a put meets a draft
that is there: the one refuses a second draft of a ledger and takes a draft id of another ledger, the other
overwrites the ledger's row and refuses the id (`drafts_agree_iff`). -/

namespace AiManager.Twins

open Lib

inductive DraftCall where
  | put (draft : DraftDelivery)
  | update (draft : DraftDelivery)
  | get (tenantId draftId : String)
  | getByLedger (tenantId ledgerId : String)

/-- The answer to a call; one to a write is empty. -/
abbrev DraftAnswer := TwinResult (Option DraftDelivery)

/-- A write has no draft to answer. -/
def written {σ : Type} (r : TwinResult Unit × σ) : DraftAnswer × σ := (r.1.map fun _ => none, r.2)

namespace InMemoryTwinStore

def call (st : InMemoryTwinStore) : DraftCall → DraftAnswer × InMemoryTwinStore
  | .put d => written (st.putDraft d)
  | .update d => written (st.updateDraft d)
  | .get t id => (.ok (st.getDraft t id), st)
  | .getByLedger t l => (.ok (st.getDraftByLedger t l), st)

end InMemoryTwinStore

section Stores
variable (column : DateTime → DateTime) (duplicateKey : String)

namespace CrdbTwinStore

def call (db : CrdbTwinStore) : DraftCall → DraftAnswer × CrdbTwinStore
  | .put d => written (putDraft column duplicateKey db d)
  | .update d => written (updateDraft column db d)
  | .get t id => (db.getDraft t id, db)
  | .getByLedger t l => (db.getDraftByLedger t l, db)

end CrdbTwinStore

/-- Both stores, and the drafts whose puts each of them acknowledged. -/
structure TwinStores where
  memory : InMemoryTwinStore
  database : CrdbTwinStore
  memoryPuts : List (String × String)
  databasePuts : List (String × String)

namespace TwinStores

def new : TwinStores := ⟨.new, .new, [], []⟩

def acknowledge (x : DraftCall) (answer : DraftAnswer) (puts : List (String × String)) :
    List (String × String) :=
  match x, answer with
  | .put d, .ok _ => d.key :: puts
  | _, _ => puts

/-- The same call to both. -/
def step (s : TwinStores) (x : DraftCall) : TwinStores where
  memory := (s.memory.call x).2
  database := (s.database.call column duplicateKey x).2
  memoryPuts := acknowledge x (s.memory.call x).1 s.memoryPuts
  databasePuts := acknowledge x (s.database.call column duplicateKey x).1 s.databasePuts

/-! ## Agreement -/

/-- Both calls fail, or both succeed with the same answer. -/
def SameAnswer : DraftAnswer → DraftAnswer → Prop
  | .ok a, .ok b => a.map (CrdbTwinStore.asStored column) = b
  | .error _, .error _ => True
  | _, _ => False

/-- The stores hold the same drafts. -/
structure SameDrafts (s : TwinStores) : Prop where
  byId : ∀ t id, s.database.getDraft t id =
    .ok ((s.memory.getDraft t id).map (CrdbTwinStore.asStored column))
  byLedger : ∀ t l, s.database.getDraftByLedger t l =
    .ok ((s.memory.getDraftByLedger t l).map (CrdbTwinStore.asStored column))

/-- A put leaves the status of its ledger's draft alone, in both stores. -/
def StatusKept (s : TwinStores) : DraftCall → Prop
  | .put d =>
    (∀ old, s.memory.getDraftByLedger d.tenantId d.ledgerId = some old →
      ((step column duplicateKey s (.put d)).memory.getDraft d.tenantId old.draftId).map
        DraftDelivery.status = some old.status) ∧
    ∀ old, s.database.getDraftByLedger d.tenantId d.ledgerId = .ok (some old) →
      ((step column duplicateKey s (.put d)).database.getDraft d.tenantId old.draftId).map
        (Option.map DraftDelivery.status) = .ok (some old.status)
  | _ => True

/-- What was acknowledged can be read back. -/
structure Readable (s : TwinStores) : Prop where
  memory : ∀ k ∈ s.memoryPuts, ∃ d, s.memory.getDraft k.1 k.2 = some d
  database : ∀ k ∈ s.databasePuts, ∃ d, s.database.getDraft k.1 k.2 = .ok (some d)

/-- What is asked of a call. -/
structure Lawful (s : TwinStores) (x : DraftCall) : Prop where
  answers : SameAnswer column (s.memory.call x).1 (s.database.call column duplicateKey x).1
  drafts : SameDrafts column (step column duplicateKey s x)
  status : StatusKept column duplicateKey s x
  readable : Readable (step column duplicateKey s x)

/-- A draft may be put in the place of another: of the same ledger, twin and time of creation. -/
def InPlace (old d : DraftDelivery) : Prop :=
  old.ledgerId = d.ledgerId ∧ old.twinId = d.twinId ∧ column old.createdAt = column d.createdAt

/-- A put is for a ledger without a draft, with an id that no draft has, or it repeats the ledger's draft
with its status; an update keeps ledger, twin and time of creation. -/
def Fits (s : TwinStores) : DraftCall → Prop
  | .put d =>
    match s.memory.getDraftByLedger d.tenantId d.ledgerId with
    | some old => old.draftId = d.draftId ∧ InPlace column old d ∧ old.status = d.status
    | none => s.memory.getDraft d.tenantId d.draftId = none
  | .update d => ∀ old, s.memory.getDraft d.tenantId d.draftId = some old → InPlace column old d
  | _ => True

/-- The rows of the database are the drafts in memory, and the index in memory is the database's. -/
structure Related (s : TwinStores) : Prop where
  rows : ∀ k, s.database.drafts.get k = (s.memory.drafts.get k).map (CrdbTwinStore.draftRow column)
  index : ∀ k, s.memory.draftByLedger.get k = (s.database.drafts.bySecond k).map DraftRow.draftId
  readable : Readable s

variable {column duplicateKey} {s : TwinStores} {d old : DraftDelivery} {x : DraftCall}

open CrdbTwinStore InMemoryTwinStore

/-! ### Reading -/

theorem Related.bySecond (h : Related column s) (t l : String) :
    s.database.drafts.bySecond (t, l) = (s.memory.getDraftByLedger t l).map (draftRow column) := by
  unfold InMemoryTwinStore.getDraftByLedger InMemoryTwinStore.getDraft
  rw [h.index]
  cases hrow : s.database.drafts.bySecond (t, l) with
  | none => rfl
  | some row =>
    obtain ⟨hget, hledger⟩ := UniqueTable.bySecond_eq_some.mp hrow
    have hkey : row.key = (t, row.draftId) := Prod.ext (Prod.mk.inj hledger).1 rfl
    rw [hkey, h.rows] at hget
    exact hget.symm

theorem Related.sameDrafts (h : Related column s) : SameDrafts column s := by
  refine ⟨fun t id => ?_, fun t l => ?_⟩
  · unfold CrdbTwinStore.getDraft
    rw [h.rows]
    exact readRow_draftRow _
  · unfold CrdbTwinStore.getDraftByLedger
    rw [h.bySecond]
    exact readRow_draftRow _

theorem Related.index_of_ledger (h : Related column s) {t l : String} :
    s.memory.draftByLedger.get (t, l) = (s.memory.getDraftByLedger t l).map DraftDelivery.draftId := by
  rw [h.index, h.bySecond, Option.map_map]
  rfl

theorem Related.of_ledger (h : Related column s) {t l : String}
    (hold : s.memory.getDraftByLedger t l = some old) :
    old.ledgerKey = (t, l) ∧ s.memory.drafts.get (t, old.draftId) = some old := by
  have hrow := h.bySecond t l
  rw [hold] at hrow
  obtain ⟨-, hledger⟩ := UniqueTable.bySecond_eq_some.mp hrow
  obtain ⟨id, hid, hget⟩ := getDraftByLedger_some hold
  rw [h.index_of_ledger, hold] at hid
  refine ⟨hledger, ?_⟩
  rw [Option.some.inj hid]
  exact hget

/-! ### Writing -/

theorem putDraft_free (hindex : s.memory.draftByLedger.get d.ledgerKey = none ∨
    s.memory.draftByLedger.get d.ledgerKey = some d.draftId) :
    (s.memory.putDraft d).1 = .ok () := by
  unfold InMemoryTwinStore.putDraft
  rcases hindex with h | h <;> simp [h]

theorem putDraft_conflict {id : String} (hindex : s.memory.draftByLedger.get d.ledgerKey = some id)
    (hid : id ≠ d.draftId) : ∃ e, (s.memory.putDraft d).1 = .error e := by
  unfold InMemoryTwinStore.putDraft
  simp [hindex, hid]

/-- No call takes a draft away. -/
theorem drafts_call {st : InMemoryTwinStore} {k : String × String} (h : ∃ d, st.drafts.get k = some d)
    (x : DraftCall) : ∃ d, (st.call x).2.drafts.get k = some d := by
  have hput : ∀ d, ∃ d', (st.drafts.put d).get k = some d' := by
    intro d
    rw [Table.get_put]
    split_ifs
    · exact ⟨d, rfl⟩
    · exact h
  cases x with
  | put d =>
    show ∃ d', (st.putDraft d).2.drafts.get k = some d'
    cases hresult : (st.putDraft d).1 with
    | ok _ =>
      rw [(putDraft_ok hresult).2.1]
      exact hput d
    | error e =>
      rw [putDraft_error hresult]
      exact h
  | update d =>
    show ∃ d', (st.updateDraft d).2.drafts.get k = some d'
    cases hresult : (st.updateDraft d).1 with
    | ok _ =>
      rw [(updateDraft_ok hresult).2]
      exact hput d
    | error e =>
      rw [updateDraft_error hresult]
      exact h
  | get t id => exact h
  | getByLedger t l => exact h

theorem acknowledge_cases {answer : DraftAnswer} {puts : List (String × String)} {k : String × String}
    (h : k ∈ acknowledge x answer puts) : k ∈ puts ∨ ∃ d, x = .put d ∧ k = d.key ∧ ∃ a, answer = .ok a := by
  unfold acknowledge at h
  split at h
  · rcases List.mem_cons.mp h with rfl | h
    · exact .inr ⟨_, rfl, rfl, _, rfl⟩
    · exact .inl h
  · exact .inl h

/-- The relation after a call, when the rows are related and an acknowledged draft is there. -/
theorem related_step (h : Related column s)
    (hrows : ∀ k, (step column duplicateKey s x).database.drafts.get k =
      ((step column duplicateKey s x).memory.drafts.get k).map (draftRow column))
    (hindex : ∀ k, (step column duplicateKey s x).memory.draftByLedger.get k =
      ((step column duplicateKey s x).database.drafts.bySecond k).map DraftRow.draftId)
    (hput : ∀ d, x = .put d → ∃ d', (step column duplicateKey s x).memory.drafts.get d.key = some d') :
    Related column (step column duplicateKey s x) := by
  have hthere : ∀ k, (∃ d, s.memory.drafts.get k = some d) →
      ∃ d, (step column duplicateKey s x).memory.drafts.get k = some d := fun k hk => drafts_call hk x
  have hread : ∀ k : String × String, (∃ d, (step column duplicateKey s x).memory.drafts.get k = some d) →
      ∃ d, (step column duplicateKey s x).database.getDraft k.1 k.2 = .ok (some d) := by
    rintro k ⟨d, hd⟩
    refine ⟨asStored column d, ?_⟩
    unfold CrdbTwinStore.getDraft
    rw [hrows, hd]
    exact readRow_draftRow (some d)
  refine ⟨hrows, hindex, fun k hk => ?_, fun k hk => hread k ?_⟩
  · rcases acknowledge_cases hk with hk | ⟨d, hx, rfl, -⟩
    · exact hthere k (h.readable.memory k hk)
    · exact hput d hx
  · rcases acknowledge_cases hk with hk | ⟨d, hx, rfl, -⟩
    · obtain ⟨d, hd⟩ := h.readable.database k hk
      rw [h.sameDrafts.byId] at hd
      apply hthere
      cases hget : s.memory.drafts.get k with
      | some d' => exact ⟨d', rfl⟩
      | none =>
        have hnone : s.memory.getDraft k.1 k.2 = none := hget
        rw [hnone] at hd
        cases Except.ok.inj hd
    · exact hput d hx

variable (duplicateKey) in
/-- Where a put fits, both stores take the draft. -/
theorem put_fits (h : Related column s) (hfits : Fits column s (.put d)) :
    (s.memory.putDraft d).1 = .ok () ∧ (putDraft column duplicateKey s.database d).1 = .ok () ∧
    (∀ k, (putDraft column duplicateKey s.database d).2.drafts.get k =
      if k = d.key then some (draftRow column d) else s.database.drafts.get k) ∧
    ∀ k, (putDraft column duplicateKey s.database d).2.drafts.bySecond k =
      if k = d.ledgerKey then some (draftRow column d) else s.database.drafts.bySecond k := by
  unfold Fits at hfits
  dsimp only at hfits
  cases hledger : s.memory.getDraftByLedger d.tenantId d.ledgerId with
  | none =>
    rw [hledger] at hfits
    have hindex : s.memory.draftByLedger.get d.ledgerKey = none := by
      show s.memory.draftByLedger.get (d.tenantId, d.ledgerId) = none
      rw [h.index_of_ledger, hledger]
      rfl
    have hsecond : s.database.drafts.bySecond d.ledgerKey = none := by
      show s.database.drafts.bySecond (d.tenantId, d.ledgerId) = none
      rw [h.bySecond, hledger]
      rfl
    have hkey : s.database.drafts.get d.key = none := by
      rw [h.rows, show s.memory.drafts.get d.key = none from hfits]
      rfl
    exact ⟨putDraft_free (.inl hindex), putDraft_new column duplicateKey hsecond hkey⟩
  | some old =>
    rw [hledger] at hfits
    obtain ⟨hid, ⟨hsameLedger, htwin, hcreated⟩, -⟩ := hfits
    have hindex : s.memory.draftByLedger.get d.ledgerKey = some d.draftId := by
      show s.memory.draftByLedger.get (d.tenantId, d.ledgerId) = _
      rw [h.index_of_ledger, hledger, ← hid]
      rfl
    have hsecond : s.database.drafts.bySecond d.ledgerKey = some (draftRow column old) := by
      show s.database.drafts.bySecond (d.tenantId, d.ledgerId) = _
      rw [h.bySecond, hledger]
      rfl
    have htenant : old.tenantId = d.tenantId := (Prod.mk.inj (h.of_ledger hledger).1).1
    -- what the statement sets and what it leaves together are the new draft
    have hrow : (draftRow column old).set (draftRow column d) = draftRow column d := by
      unfold DraftRow.set draftRow
      dsimp only
      rw [htenant, hid, hsameLedger, htwin, hcreated]
    have hkey : (draftRow column old).key = d.key := Prod.ext htenant hid
    have hledgerKey : (draftRow column old).ledgerKey = d.ledgerKey := Prod.ext htenant hsameLedger
    have hput := putDraft_ledger column duplicateKey hsecond
    rw [hrow, hkey, hledgerKey] at hput
    exact ⟨putDraft_free (.inr hindex), hput⟩

theorem related_put (h : Related column s) (hfits : Fits column s (.put d)) :
    Related column (step column duplicateKey s (.put d)) := by
  obtain ⟨hmemory, -, hrows, hsecond⟩ := put_fits duplicateKey h hfits
  obtain ⟨-, hdrafts, hindex⟩ := putDraft_ok hmemory
  refine related_step h (fun k => ?_) (fun k => ?_) fun d' hd' => ?_
  · show (putDraft column duplicateKey s.database d).2.drafts.get k =
      ((s.memory.putDraft d).2.drafts.get k).map _
    rw [hrows, hdrafts, Table.get_put]
    show (if k = d.key then _ else _) = Option.map _ (if k = d.key then _ else _)
    split_ifs
    · rfl
    · exact h.rows k
  · show (s.memory.putDraft d).2.draftByLedger.get k =
      ((putDraft column duplicateKey s.database d).2.drafts.bySecond k).map _
    rw [hsecond, hindex, KMap.get_put]
    split_ifs
    · rfl
    · exact h.index k
  · cases hd'
    refine ⟨d, ?_⟩
    show (s.memory.putDraft d).2.drafts.get d.key = some d
    rw [hdrafts]
    exact Table.get_put_self _ d

variable (duplicateKey) in
theorem related_update (h : Related column s) (hfits : Fits column s (.update d)) :
    (s.memory.updateDraft d).1 = (updateDraft column s.database d).1 ∧
      Related column (step column duplicateKey s (.update d)) := by
  cases hold : s.memory.drafts.get d.key with
  | none =>
    have hrow : s.database.drafts.get d.key = none := by
      rw [h.rows, hold]
      rfl
    have hmemory : s.memory.updateDraft d = (.error (.notFound ("draft " ++ d.draftId)), s.memory) := by
      unfold InMemoryTwinStore.updateDraft
      rw [Table.has_eq_false_iff.mpr hold]
      rfl
    refine ⟨?_, related_step h (fun k => ?_) (fun k => ?_) nofun⟩
    · rw [hmemory, updateDraft_none hrow]
    · show (updateDraft column s.database d).2.drafts.get k = ((s.memory.updateDraft d).2.drafts.get k).map _
      rw [hmemory, updateDraft_none hrow]
      exact h.rows k
    · show (s.memory.updateDraft d).2.draftByLedger.get k =
        ((updateDraft column s.database d).2.drafts.bySecond k).map _
      rw [hmemory, updateDraft_none hrow]
      exact h.index k
  | some old =>
    obtain ⟨hledger, htwin, hcreated⟩ := hfits old hold
    have hkey : old.key = d.key := Table.key_of_get hold
    obtain ⟨htenant, hid⟩ := Prod.mk.inj hkey
    have hget : s.database.drafts.get d.key = some (draftRow column old) := by
      rw [h.rows, hold]
      rfl
    have hown : s.database.drafts.get (draftRow column old).key = some (draftRow column old) := by
      show s.database.drafts.get old.key = _
      rw [hkey]
      exact hget
    have hrow : (draftRow column old).set (draftRow column d) = draftRow column d := by
      unfold DraftRow.set draftRow
      dsimp only
      rw [htenant, hid, hledger, htwin, hcreated]
    obtain ⟨hok, hrows, hsecond⟩ := updateDraft_some column hget
    rw [hrow] at hrows hsecond
    have hmemory : s.memory.updateDraft d = (.ok (), { s.memory with drafts := s.memory.drafts.put d }) := by
      unfold InMemoryTwinStore.updateDraft
      rw [if_pos (Table.has_iff.mpr ⟨old, hold⟩)]
    refine ⟨?_, related_step h (fun k => ?_) (fun k => ?_) nofun⟩
    · rw [hmemory, hok]
    · show (updateDraft column s.database d).2.drafts.get k = ((s.memory.updateDraft d).2.drafts.get k).map _
      rw [hrows, hmemory, Table.get_put]
      show (if k = old.key then _ else _) = Option.map _ (if k = d.key then _ else _)
      rw [hkey]
      split_ifs
      · rfl
      · exact h.rows k
    · show (s.memory.updateDraft d).2.draftByLedger.get k =
        ((updateDraft column s.database d).2.drafts.bySecond k).map _
      rw [hsecond, hmemory]
      show s.memory.draftByLedger.get k = Option.map _ (if k = old.ledgerKey then _ else _)
      -- the ledger's row is the draft's own, before and after
      have hledgerRow : s.database.drafts.bySecond old.ledgerKey = some (draftRow column old) :=
        UniqueTable.bySecond_eq_some.mpr ⟨hown, rfl⟩
      rw [h.index k]
      split_ifs with hk
      · rw [hk, hledgerRow]
        exact congrArg some hid
      · rfl

variable (duplicateKey) in
theorem related_of_fits (h : Related column s) (hfits : Fits column s x) :
    Related column (step column duplicateKey s x) := by
  cases x with
  | put d => exact related_put h hfits
  | update d => exact (related_update duplicateKey h hfits).2
  | get t id => exact ⟨h.rows, h.index, h.readable⟩
  | getByLedger t l => exact ⟨h.rows, h.index, h.readable⟩

/-! ## Runs -/

theorem lawful_of_fits (h : Related column s) (hfits : Fits column s x) :
    Lawful column duplicateKey s x := by
  have hrelated := related_of_fits duplicateKey h hfits
  refine ⟨?_, hrelated.sameDrafts, ?_, hrelated.readable⟩
  · cases x with
    | put d =>
      obtain ⟨hmemory, hdatabase, -⟩ := put_fits duplicateKey h hfits
      show SameAnswer column ((s.memory.putDraft d).1.map _) ((putDraft column duplicateKey s.database d).1.map _)
      rw [hmemory, hdatabase]
      rfl
    | update d =>
      show SameAnswer column ((s.memory.updateDraft d).1.map _) ((updateDraft column s.database d).1.map _)
      rw [(related_update duplicateKey h hfits).1]
      cases (updateDraft column s.database d).1 <;> trivial
    | get t id =>
      show SameAnswer column (.ok _) (s.database.getDraft t id)
      rw [h.sameDrafts.byId]
      rfl
    | getByLedger t l =>
      show SameAnswer column (.ok _) (s.database.getDraftByLedger t l)
      rw [h.sameDrafts.byLedger]
      rfl
  · cases x with
    | put d =>
      have hmemory := (put_fits duplicateKey h hfits).1
      have hafter : ∀ old, s.memory.getDraftByLedger d.tenantId d.ledgerId = some old →
          ((step column duplicateKey s (.put d)).memory.getDraft d.tenantId old.draftId).map
            DraftDelivery.status = some old.status := by
        intro old hold
        unfold Fits at hfits
        dsimp only at hfits
        rw [hold] at hfits
        obtain ⟨hid, -, hstatus⟩ := hfits
        have hput : (s.memory.putDraft d).2.drafts.get d.key = some d := by
          rw [(putDraft_ok hmemory).2.1]
          exact Table.get_put_self _ d
        show ((s.memory.putDraft d).2.drafts.get (d.tenantId, old.draftId)).map _ = _
        rw [hid]
        show ((s.memory.putDraft d).2.drafts.get d.key).map _ = _
        rw [hput, hstatus]
        rfl
      refine ⟨hafter, fun old hold => ?_⟩
      rw [h.sameDrafts.byLedger] at hold
      obtain ⟨old', hold', rfl⟩ := Option.map_eq_some_iff.mp (Except.ok.inj hold)
      rw [hrelated.sameDrafts.byId]
      refine congrArg Except.ok ?_
      rw [Option.map_map]
      exact hafter old' hold'
    | update d => trivial
    | get t id => trivial
    | getByLedger t l => trivial

/-- The new draft is what the statement made of the old row. -/
theorem inPlace_of_set (t id : String) (hsame : SameDrafts column (step column duplicateKey s x))
    (hmemory : (step column duplicateKey s x).memory.drafts.get (t, id) = some d)
    (hdatabase : (step column duplicateKey s x).database.drafts.get (t, id) =
      some ((draftRow column old).set (draftRow column d))) : InPlace column old d := by
  have hread := hsame.byId t id
  have hget : (step column duplicateKey s x).memory.getDraft t id = some d := hmemory
  rw [hget] at hread
  unfold CrdbTwinStore.getDraft at hread
  rw [hdatabase] at hread
  have hset : readRow (some ((draftRow column old).set (draftRow column d))) = .ok (some
      { asStored column d with
        tenantId := old.tenantId, draftId := old.draftId, ledgerId := old.ledgerId, twinId := old.twinId,
        createdAt := column old.createdAt }) := by
    have hstatus : ((draftRow column old).set (draftRow column d)).status = d.status.asStr := rfl
    show (DraftRow.toDraft _).map some = _
    unfold DraftRow.toDraft
    rw [hstatus, DraftStatus.parse_asStr]
    rfl
  rw [hset] at hread
  have heq := Option.some.inj (Except.ok.inj hread)
  have hledger := congrArg DraftDelivery.ledgerId heq
  have htwin := congrArg DraftDelivery.twinId heq
  have hcreated := congrArg DraftDelivery.createdAt heq
  exact ⟨hledger, htwin, hcreated⟩

theorem fits_of_lawful (h : Related column s) (hlawful : Lawful column duplicateKey s x) :
    Fits column s x := by
  obtain ⟨hanswers, hsame, hstatus, -⟩ := hlawful
  cases x with
  | get t id => trivial
  | getByLedger t l => trivial
  | update d =>
    intro old hold
    have hmemory : s.memory.drafts.get d.key = some old := hold
    have hget : s.database.drafts.get d.key = some (draftRow column old) := by
      rw [h.rows, hmemory]
      rfl
    have hkey : (draftRow column old).key = d.key := UniqueTable.key_of_get hget
    refine inPlace_of_set d.tenantId d.draftId hsame ?_ ?_
    · show (s.memory.updateDraft d).2.drafts.get d.key = some d
      unfold InMemoryTwinStore.updateDraft
      rw [if_pos (Table.has_iff.mpr ⟨old, hmemory⟩)]
      exact Table.get_put_self _ d
    · show (updateDraft column s.database d).2.drafts.get d.key = _
      rw [(updateDraft_some column hget).2.1, if_pos hkey.symm]
  | put d =>
    unfold Fits
    dsimp only
    change SameAnswer column ((s.memory.putDraft d).1.map _) ((putDraft column duplicateKey s.database d).1.map _)
      at hanswers
    have hindex : s.memory.draftByLedger.get d.ledgerKey = _ := h.index_of_ledger
    have hsecond : s.database.drafts.bySecond d.ledgerKey = _ := h.bySecond d.tenantId d.ledgerId
    cases hledger : s.memory.getDraftByLedger d.tenantId d.ledgerId with
    | none =>
      rw [hledger] at hindex hsecond
      show s.memory.getDraft d.tenantId d.draftId = none
      -- an id of another ledger is taken in memory, and refused by the database
      cases hold : s.memory.getDraft d.tenantId d.draftId with
      | none => rfl
      | some old =>
        have hkey : s.database.drafts.get d.key = some (draftRow column old) := by
          rw [h.rows, show s.memory.drafts.get d.key = some old from hold]
          rfl
        rw [putDraft_free (.inl hindex), putDraft_taken hsecond hkey] at hanswers
        exact hanswers.elim
    | some old =>
      rw [hledger] at hindex hsecond
      show old.draftId = d.draftId ∧ InPlace column old d ∧ old.status = d.status
      have hput := putDraft_ledger column duplicateKey hsecond
      obtain ⟨hkeys, -⟩ := h.of_ledger hledger
      have hid : old.draftId = d.draftId := by
        by_contra hne
        obtain ⟨e, he⟩ := putDraft_conflict hindex hne
        rw [he, hput.1] at hanswers
        exact hanswers
      have hmemory : (s.memory.putDraft d).2.drafts.get d.key = some d := by
        have hok : (s.memory.putDraft d).1 = .ok () := by
          refine putDraft_free (.inr ?_)
          rw [hindex, ← hid]
          rfl
        rw [(putDraft_ok hok).2.1]
        exact Table.get_put_self _ d
      have hkey : (draftRow column old).key = d.key := Prod.ext (Prod.mk.inj hkeys).1 hid
      refine ⟨hid, inPlace_of_set d.tenantId d.draftId hsame hmemory ?_, ?_⟩
      · show (putDraft column duplicateKey s.database d).2.drafts.get d.key = _
        rw [hput.2.1, if_pos hkey.symm]
      · have hkept := hstatus.1 old hledger
        change ((s.memory.putDraft d).2.drafts.get (d.tenantId, old.draftId)).map _ = _ at hkept
        rw [hid] at hkept
        change ((s.memory.putDraft d).2.drafts.get d.key).map _ = _ at hkept
        rw [hmemory] at hkept
        exact (Option.some.inj hkept).symm

theorem related_new : Related column new := by
  refine ⟨fun k => ?_, fun k => ?_, ⟨nofun, nofun⟩⟩
  · show (∅ : UniqueTable _ _).get k = Option.map _ ((∅ : Table _).get k)
    rw [UniqueTable.get_empty, Table.get_empty]
    rfl
  · have hnone : new.database.drafts.bySecond k = none :=
      UniqueTable.bySecond_eq_none.mpr fun k' v hv => by
        change (∅ : UniqueTable _ _).get k' = some v at hv
        rw [UniqueTable.get_empty] at hv
        cases hv
    rw [hnone]
    exact KMap.get_empty k

/-- **The two stores agree** on every call of a run exactly if every call of the run fits. -/
theorem drafts_agree_iff (column : DateTime → DateTime) (duplicateKey : String) (xs : List DraftCall) :
    EachStep (step column duplicateKey) (Lawful column duplicateKey) new xs ↔
      EachStep (step column duplicateKey) (fun s x => Fits column s x) new xs :=
  eachStep_iff (I := Related column) (fun _ _ h => ⟨fits_of_lawful h, lawful_of_fits h⟩)
    (fun _ _ h hfits => related_of_fits duplicateKey h hfits) related_new

/-- The draft of a ledger is vetoed; another one is put for the ledger. -/
def vetoedDraft : DraftDelivery :=
  { (default : DraftDelivery) with tenantId := "t", draftId := "d1", ledgerId := "l", status := .vetoed }

def secondDraft : DraftDelivery :=
  { (default : DraftDelivery) with tenantId := "t", draftId := "d2", ledgerId := "l", status := .pending }

/-- The embedded store refuses; the other one revives the vetoed draft, and does not know the new one. -/
theorem second_put_revives :
    let s := step id "" new (.put vetoedDraft)
    let s' := step id "" s (.put secondDraft)
    ¬ SameAnswer id (s.memory.call (.put secondDraft)).1 (s.database.call id "" (.put secondDraft)).1 ∧
    (s'.database.getDraft "t" "d1").map (Option.map DraftDelivery.status) = .ok (some .pending) ∧
    ("t", "d2") ∈ s'.databasePuts ∧ s'.database.getDraft "t" "d2" = .ok none ∧
    ¬ EachStep (step id "") (Lawful id "") new [.put vetoedDraft, .put secondDraft] := by
  have hanswers : ¬ SameAnswer id ((step id "" new (.put vetoedDraft)).memory.call (.put secondDraft)).1
      ((step id "" new (.put vetoedDraft)).database.call id "" (.put secondDraft)).1 := by
    have hmemory : ((step id "" new (.put vetoedDraft)).memory.call (.put secondDraft)).1 =
        .error (.conflict "draft already exists for ledger l") := by decide
    have hdatabase : ((step id "" new (.put vetoedDraft)).database.call id "" (.put secondDraft)).1 =
        .ok none := by decide
    rw [hmemory, hdatabase]
    exact id
  refine ⟨hanswers, by decide, by decide, by decide, ?_⟩
  rintro ⟨-, hsecond, -⟩
  exact hanswers hsecond.answers

end TwinStores

end Stores

end AiManager.Twins
