import AiManager.Lib.Sha256
import AiManager.Lib.Text
import AiManager.Twins.Model
import Mathlib.Data.List.Sort

/-! # Notify policy

Whether a draft is worth a direct message: no message while the status story is unchanged, and a cap
on the messages a day. The bookkeeping lives in the configuration of the twin. -/

namespace AiManager.Twins

open Lib

def configKey : String := "notify_v1"

structure NotifyState where
  lastFingerprint : String := ""
  /-- time of the last status message -/
  lastDmAt : Option String := none
  /-- UTC day of the counter -/
  lastDmDay : String := ""
  dmsToday : Nat := 0
  deriving DecidableEq

inductive SuppressReason where
  | unchanged
  | dailyCap
  | empty
  | quiet
  | shadow
  deriving DecidableEq, Repr

def SuppressReason.asStr : SuppressReason → String
  | .unchanged => "unchanged"
  | .dailyCap => "daily_cap"
  | .empty => "empty"
  | .quiet => "quiet"
  | .shadow => "shadow"

structure NotifyDecision where
  allowDm : Bool
  fingerprint : String
  hasNewBlocker : Bool
  suppress : Option SuppressReason

/-! ## Fingerprint -/

def normalizeSummary (s : String) : String := Text.join " " (Text.splitWhitespace s)

/-- Order by resource, node and kind. -/
def itemBefore (a b : LedgerItem) : Prop :=
  a.resourceId < b.resourceId ∨
  (a.resourceId = b.resourceId ∧
    (a.nodeId < b.nodeId ∨ (a.nodeId = b.nodeId ∧ ¬ b.kind < a.kind)))

instance : DecidableRel itemBefore := fun a b => by unfold itemBefore; infer_instance

/-- Stable fingerprint of substantive status content, not of the window. -/
def ledgerFingerprint (ledger : StatusLedger) : String :=
  let items := ledger.items.insertionSort itemBefore
  let blockers := ledger.openBlockers.insertionSort fun a b => ¬ b.nodeId < a.nodeId
  Sha256.hex <| Text.join "\n" <|
    ("rollup:" ++ ledger.confidenceRollup.asStr) ::
    items.map (fun it => "i:" ++ it.kind ++ "|" ++ it.resourceId ++ "|" ++ it.nodeId ++ "|"
      ++ normalizeSummary it.summary)
    ++ blockers.map fun b => "b:" ++ b.nodeId ++ "|" ++ normalizeSummary b.summary

def ledgerIsEmpty (ledger : StatusLedger) : Bool :=
  ledger.items.isEmpty && ledger.openBlockers.isEmpty

/-! ## Bookkeeping -/

/-- The four fields as a record, or as a list of four. An absent optional field is `none`. -/
def NotifyState.fromValue (j : Json) : Option NotifyState := do
  let (fp, at?, day, n) ← match j with
    | .obj _ => some (j.get "last_fingerprint", j.get "last_dm_at", j.get "last_dm_day",
        j.get "dms_today")
    | .arr [fp, at?, day, n] => some (some fp, some at?, some day, some n)
    | _ => none
  let lastFingerprint ← fp.bind Json.asStr
  let lastDmAt ← match at? with
    | none => some none
    | some .null => some none
    | some v => v.asStr.map some
  let lastDmDay ← day.bind Json.asStr
  let dmsToday ← n.bind Json.asU64
  if dmsToday < 2 ^ 32 then some ⟨lastFingerprint, lastDmAt, lastDmDay, dmsToday⟩ else none

def NotifyState.toValue (s : NotifyState) : Json :=
  .obj [("last_fingerprint", .str s.lastFingerprint),
    ("last_dm_at", match s.lastDmAt with | none => .null | some t => .str t),
    ("last_dm_day", .str s.lastDmDay), ("dms_today", .num s.dmsToday 0)]

def loadNotifyState (twin : Twin) : NotifyState :=
  ((twin.configJson.get configKey).bind NotifyState.fromValue).getD {}

/-- `now` is the clock read for the update time of the twin. -/
def writeNotifyState (twin : Twin) (state : NotifyState) (now : DateTime) : Twin :=
  let cfg := if twin.configJson.isObject then twin.configJson else .obj []
  { twin with configJson := cfg.insert configKey state.toValue, updatedAt := now }

def recordDmSent (state : NotifyState) (fingerprint : String) (now : DateTime) : NotifyState :=
  let day := now.dayText
  let counted : NotifyState :=
    if state.lastDmDay = day then { state with dmsToday := min (state.dmsToday + 1) (2 ^ 32 - 1) }
    else { state with lastDmDay := day, dmsToday := 1 }
  { counted with lastFingerprint := fingerprint, lastDmAt := some now.toRfc3339 }

/-! ## Decision -/

/-- Decide whether to send a direct message for this draft. `forceNotify` bypasses fingerprint and
daily cap; without `allowNotify` a compile is quiet. -/
def decideNotify (ledger : StatusLedger) (state : NotifyState) (now : DateTime)
    (maxDmsPerDay : Nat) (allowNotify forceNotify inShadow : Bool) : NotifyDecision :=
  let fingerprint := ledgerFingerprint ledger
  let hasBlocker := !ledger.openBlockers.isEmpty || decide (ledger.confidenceRollup = .blocker)
  let hasNewBlocker := hasBlocker &&
    (decide (state.lastFingerprint = "") || !Text.contains state.lastFingerprint "b:"
      || decide (fingerprint ≠ state.lastFingerprint))
  if inShadow then ⟨false, fingerprint, hasNewBlocker, some .shadow⟩
  else if !allowNotify && !forceNotify then ⟨false, fingerprint, hasNewBlocker, some .quiet⟩
  else if ledgerIsEmpty ledger then ⟨false, fingerprint, false, some .empty⟩
  else if forceNotify then ⟨true, fingerprint, hasNewBlocker, none⟩
  -- Change-only: identical story → silence
  else if state.lastFingerprint ≠ "" ∧ state.lastFingerprint = fingerprint then
    ⟨false, fingerprint, false, some .unchanged⟩
  else
    -- Daily cap (UTC) unless new blocker appeared
    let dmsToday := if state.lastDmDay = now.dayText then state.dmsToday else 0
    if maxDmsPerDay > 0 ∧ dmsToday ≥ maxDmsPerDay ∧ !hasNewBlocker then
      ⟨false, fingerprint, hasNewBlocker, some .dailyCap⟩
    else ⟨true, fingerprint, hasNewBlocker, none⟩

/-- A message is allowed exactly when there is no reason against it. -/
theorem decideNotify_allow_iff (ledger : StatusLedger) (state : NotifyState) (now : DateTime)
    (maxDmsPerDay : Nat) (allowNotify forceNotify inShadow : Bool) :
    (decideNotify ledger state now maxDmsPerDay allowNotify forceNotify inShadow).allowDm = true ↔
      (decideNotify ledger state now maxDmsPerDay allowNotify forceNotify inShadow).suppress =
        none := by
  unfold decideNotify
  dsimp only
  split_ifs <;> simp

end AiManager.Twins
