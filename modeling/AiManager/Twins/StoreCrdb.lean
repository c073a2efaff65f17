import AiManager.Lib.UniqueTable
import AiManager.Lib.Text
import AiManager.Twins.Store

/-! # The production twin store: drafts

The table `draft_delivery` by its statements: its primary key is tenant and draft, and tenant and ledger
are unique. A put is an `INSERT … ON CONFLICT (tenant_id, ledger_id) DO UPDATE`. What a column of instants
keeps of a time is `column`; `duplicateKey` is the database's message for a violated key. -/

namespace AiManager.Twins

open Lib

namespace DraftStatus

def parse (s : String) : Option DraftStatus :=
  match Text.toAsciiLowercase s with
  | "shadow" => some .shadow
  | "pending" => some .pending
  | "edited" => some .edited
  | "vetoed" => some .vetoed
  | "publish_queued" => some .publishQueued
  | "published" => some .published
  | "expired" => some .expired
  | "force_human" => some .forceHuman
  | "publish_failed" => some .publishFailed
  | _ => none

theorem parse_asStr (s : DraftStatus) : parse s.asStr = some s := by
  cases s <;> decide

end DraftStatus

/-- A row of `draft_delivery`. -/
structure DraftRow where
  tenantId : String
  draftId : String
  ledgerId : String
  twinId : String
  status : String
  slackDmChannel : String
  slackDmTs : String
  draftText : String
  editedText : Option String
  vetoDeadline : Option DateTime
  createdAt : DateTime
  updatedAt : DateTime
  deriving DecidableEq

namespace DraftRow

def key (r : DraftRow) : String × String := (r.tenantId, r.draftId)

def ledgerKey (r : DraftRow) : String × String := (r.tenantId, r.ledgerId)

/-- The columns that both statements set; draft, ledger, twin and creation stay. -/
def set (row excluded : DraftRow) : DraftRow :=
  { row with
    status := excluded.status
    slackDmChannel := excluded.slackDmChannel
    slackDmTs := excluded.slackDmTs
    draftText := excluded.draftText
    editedText := excluded.editedText
    vetoDeadline := excluded.vetoDeadline
    updatedAt := excluded.updatedAt }

@[simp] theorem set_key (row excluded : DraftRow) : (row.set excluded).key = row.key := rfl

@[simp] theorem set_ledgerKey (row excluded : DraftRow) : (row.set excluded).ledgerKey = row.ledgerKey := rfl

def toDraft (r : DraftRow) : TwinResult DraftDelivery :=
  match DraftStatus.parse r.status with
  | some status => .ok
    { tenantId := r.tenantId
      draftId := r.draftId
      ledgerId := r.ledgerId
      twinId := r.twinId
      status := status
      slackDmChannel := r.slackDmChannel
      slackDmTs := r.slackDmTs
      draftText := r.draftText
      editedText := r.editedText
      vetoDeadline := r.vetoDeadline
      createdAt := r.createdAt
      updatedAt := r.updatedAt }
  | none => .error (.storage "bad status")

end DraftRow

structure CrdbTwinStore where
  drafts : UniqueTable DraftRow.key DraftRow.ledgerKey

namespace CrdbTwinStore

def new : CrdbTwinStore := ⟨∅⟩

section Statements
variable (column : DateTime → DateTime) (duplicateKey : String)

/-- What is bound to the statement's parameters, as the columns keep it. -/
def draftRow (d : DraftDelivery) : DraftRow where
  tenantId := d.tenantId
  draftId := d.draftId
  ledgerId := d.ledgerId
  twinId := d.twinId
  status := d.status.asStr
  slackDmChannel := d.slackDmChannel
  slackDmTs := d.slackDmTs
  draftText := d.draftText
  editedText := d.editedText
  vetoDeadline := d.vetoDeadline.map column
  createdAt := column d.createdAt
  updatedAt := column d.updatedAt

/-- The ledger's row is updated, whatever draft the statement names. -/
def putDraft (db : CrdbTwinStore) (draft : DraftDelivery) : TwinResult Unit × CrdbTwinStore :=
  let excluded := draftRow column draft
  match h : db.drafts.bySecond excluded.ledgerKey with
  | some row =>
    (.ok (), ⟨db.drafts.replace row (row.set excluded) (UniqueTable.bySecond_eq_some.mp h).1 rfl⟩)
  | none =>
    if (db.drafts.get excluded.key).isSome then (.error (.storage duplicateKey), db)
    else (.ok (), ⟨db.drafts.insert excluded h⟩)

def updateDraft (db : CrdbTwinStore) (draft : DraftDelivery) : TwinResult Unit × CrdbTwinStore :=
  let excluded := draftRow column draft
  match h : db.drafts.get excluded.key with
  | some row =>
    (.ok (), ⟨db.drafts.replace row (row.set excluded)
      (by rw [DraftRow.set_key, UniqueTable.key_of_get h]; exact h) rfl⟩)
  | none => (.error (.notFound ("draft " ++ draft.draftId)), db)

def readRow : Option DraftRow → TwinResult (Option DraftDelivery)
  | none => .ok none
  | some r => r.toDraft.map some

def getDraft (db : CrdbTwinStore) (tenantId draftId : String) : TwinResult (Option DraftDelivery) :=
  readRow (db.drafts.get (tenantId, draftId))

def getDraftByLedger (db : CrdbTwinStore) (tenantId ledgerId : String) :
    TwinResult (Option DraftDelivery) :=
  readRow (db.drafts.bySecond (tenantId, ledgerId))

/-! ### What the statements do -/

/-- A draft as it comes back. -/
def asStored (d : DraftDelivery) : DraftDelivery :=
  { d with
    vetoDeadline := d.vetoDeadline.map column
    createdAt := column d.createdAt
    updatedAt := column d.updatedAt }

variable {column duplicateKey} {db : CrdbTwinStore} {draft : DraftDelivery} {row : DraftRow}

theorem readRow_draftRow (d : Option DraftDelivery) :
    readRow (d.map (draftRow column)) = .ok (d.map (asStored column)) := by
  cases d with
  | none => rfl
  | some d =>
    show ((draftRow column d).toDraft).map some = _
    unfold DraftRow.toDraft
    show (match DraftStatus.parse d.status.asStr with | some _ => _ | none => _ : TwinResult _).map some = _
    rw [DraftStatus.parse_asStr]
    rfl

variable (column duplicateKey) in
theorem putDraft_ledger (h : db.drafts.bySecond draft.ledgerKey = some row) :
    (putDraft column duplicateKey db draft).1 = .ok () ∧
    (∀ k, (putDraft column duplicateKey db draft).2.drafts.get k =
      if k = row.key then some (row.set (draftRow column draft)) else db.drafts.get k) ∧
    ∀ k, (putDraft column duplicateKey db draft).2.drafts.bySecond k =
      if k = row.ledgerKey then some (row.set (draftRow column draft)) else db.drafts.bySecond k := by
  unfold putDraft
  dsimp only
  split
  · next row' h' =>
    obtain rfl := Option.some.inj (h.symm.trans h')
    have hget : db.drafts.get (row.set (draftRow column draft)).key = some row :=
      (UniqueTable.bySecond_eq_some.mp h).1
    exact ⟨rfl, UniqueTable.get_replace hget rfl, UniqueTable.bySecond_replace hget rfl⟩
  · next h' => cases h.symm.trans h'

theorem putDraft_taken (h : db.drafts.bySecond draft.ledgerKey = none)
    (hkey : db.drafts.get draft.key = some row) :
    putDraft column duplicateKey db draft = (.error (.storage duplicateKey), db) := by
  unfold putDraft
  dsimp only
  split
  · next row' h' => cases h.symm.trans h'
  · have htaken : (db.drafts.get (draftRow column draft).key).isSome = true :=
      Option.isSome_iff_exists.mpr ⟨row, hkey⟩
    rw [if_pos htaken]

variable (column duplicateKey) in
theorem putDraft_new (h : db.drafts.bySecond draft.ledgerKey = none)
    (hkey : db.drafts.get draft.key = none) :
    (putDraft column duplicateKey db draft).1 = .ok () ∧
    (∀ k, (putDraft column duplicateKey db draft).2.drafts.get k =
      if k = draft.key then some (draftRow column draft) else db.drafts.get k) ∧
    ∀ k, (putDraft column duplicateKey db draft).2.drafts.bySecond k =
      if k = draft.ledgerKey then some (draftRow column draft) else db.drafts.bySecond k := by
  unfold putDraft
  dsimp only
  split
  · next row' h' => cases h.symm.trans h'
  · have hfree : ¬ (db.drafts.get (draftRow column draft).key).isSome = true := by
      show ¬ (db.drafts.get draft.key).isSome = true
      rw [hkey]
      exact Bool.false_ne_true
    rw [if_neg hfree]
    exact ⟨rfl, UniqueTable.get_insert h, UniqueTable.bySecond_insert h hkey⟩

variable (column) in
theorem updateDraft_some (h : db.drafts.get draft.key = some row) :
    (updateDraft column db draft).1 = .ok () ∧
    (∀ k, (updateDraft column db draft).2.drafts.get k =
      if k = row.key then some (row.set (draftRow column draft)) else db.drafts.get k) ∧
    ∀ k, (updateDraft column db draft).2.drafts.bySecond k =
      if k = row.ledgerKey then some (row.set (draftRow column draft)) else db.drafts.bySecond k := by
  unfold updateDraft
  dsimp only
  split
  · next row' h' =>
    obtain rfl := Option.some.inj (h.symm.trans h')
    have hget : db.drafts.get (row.set (draftRow column draft)).key = some row := by
      rw [DraftRow.set_key, UniqueTable.key_of_get h]
      exact h
    exact ⟨rfl, UniqueTable.get_replace hget rfl, UniqueTable.bySecond_replace hget rfl⟩
  · next h' => cases h.symm.trans h'

theorem updateDraft_none (h : db.drafts.get draft.key = none) :
    updateDraft column db draft = (.error (.notFound ("draft " ++ draft.draftId)), db) := by
  unfold updateDraft
  dsimp only
  split
  · next row' h' => cases h.symm.trans h'
  · rfl

end Statements

end CrdbTwinStore

end AiManager.Twins
