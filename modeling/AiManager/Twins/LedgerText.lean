import AiManager.Lib.Sha256
import AiManager.Lib.Text
import AiManager.Twins.Model

/-! # Ledgers as text

Confidence of a ledger, its id, and the draft that is rendered from it. Nothing here invents work:
the text of a ledger without items and blockers says so. -/

namespace AiManager.Twins

open Lib

/-! ## Confidence -/

/-- Score a single work item by its lifecycle; activity makes no difference so far. -/
def scoreItemConfidence (lifecycle : String) (_hasActivity : Bool) : ConfidenceTier :=
  match Text.toAsciiUppercase lifecycle with
  | "MERGED" | "CLOSED" | "DONE" | "RESOLVED" => .high
  | _ => .medium

/-- A blocker outweighs everything; then high if all substantive items are. -/
def rollUpConfidence (items : List LedgerItem) (openBlockers : List BlockerItem) :
    ConfidenceTier :=
  if !openBlockers.isEmpty || items.any (fun i => i.confidence = .blocker) then .blocker
  else if items.isEmpty then .medium
  else if items.all fun i => i.confidence = .high then .high
  else if items.any (fun i => i.confidence = .high)
      && (items.filter fun i => i.confidence = .medium).all (fun i => i.summary = "") then .high
  else .medium

def applyRollup (ledger : StatusLedger) : StatusLedger :=
  { ledger with confidenceRollup := rollUpConfidence ledger.items ledger.openBlockers }

/-- The rollup is the blocker tier exactly when something blocks. -/
theorem rollUpConfidence_eq_blocker_iff (items : List LedgerItem)
    (openBlockers : List BlockerItem) :
    rollUpConfidence items openBlockers = .blocker ↔
      openBlockers ≠ [] ∨ ∃ i ∈ items, i.confidence = .blocker := by
  unfold rollUpConfidence
  split_ifs with hblocked <;> simp_all

/-! ## Ids -/

/-- Deterministic ledger id from tenant, twin and period. -/
def ledgerIdFor (tenantId twinId : String) (periodStart periodEnd : DateTime) : String :=
  "led_" ++ String.ofList ((Sha256.hex (tenantId ++ "|" ++ twinId ++ "|" ++ periodStart.toRfc3339
    ++ "|" ++ periodEnd.toRfc3339)).toList.take 24)

/-! ## Draft text -/

/-- Date of the digest header in IST. -/
def istDateLabel (t : DateTime) : String := t.toIst.dayText

/-- Lookback window: a rounded duration and the bounds in IST. -/
def formatLookbackIst (start finish : DateTime) : String :=
  let secs := max 0 ((finish - start).tdiv DateTime.nanosPerSecond)
  let label :=
    if secs ≥ 86400 then toString ((secs + 43200) / 86400) ++ "d"
    else if secs ≥ 3600 then toString ((secs + 1800) / 3600) ++ "h"
    else toString ((secs + 30) / 60) ++ "m"
  label ++ " (" ++ start.formatIstCompact ++ " → " ++ finish.formatIstCompact ++ ")"

/-- A name for a person id. `upper` is the upper case of a character, a string. -/
def humanName (upper : Char → String) (personId : String) : String :=
  let s := ((Text.stripPrefix personId "gu_").or (Text.stripPrefix personId "person:")).getD personId
  if s = "" then "you"
  else if Text.contains s "-" && decide (s.utf8ByteSize > 20) then "you"
  else match s.toList with
    | c :: cs => upper c ++ String.ofList cs
    | [] => s

def bullet (item : LedgerItem) : String := "• " ++ Text.trim item.summary

/-- The items under a heading, at most `cap` of them. -/
def textSection (heading : String) (cap : Nat) (items : List LedgerItem) : List String :=
  let shown := items.take cap
  if shown.isEmpty then [] else heading :: shown.map bullet ++ [""]

def blockerLine (b : BlockerItem) : String :=
  "• Blocker: " ++ if b.summary = "" then b.nodeId else b.summary

/-- Status text for a window: outcomes first, not every small event. -/
def renderDraftText (upper : Char → String) (ledger : StatusLedger) : String :=
  let conf := match ledger.confidenceRollup with
    | .high => "shipped / closed work"
    | .medium => "work in progress"
    | .blocker => "blocked — needs attention"
  let header :=
    ["Status update for " ++ humanName upper ledger.personId ++ " · "
        ++ istDateLabel ledger.period.finish ++ " IST",
      "Lookback: " ++ formatLookbackIst ledger.period.start ledger.period.finish ++ " · " ++ conf
        ++ ".",
      ""]
  if ledger.items.isEmpty && ledger.openBlockers.isEmpty then
    Text.join "\n" (header ++ ["• No code or ticket signals in this window (nothing invented)."])
  else
    Text.join "\n" <| header
      ++ textSection "*Completed / closed*" 5 (ledger.items.filter fun i => i.confidence = .high)
      ++ textSection "*Still open*" 3 (ledger.items.filter fun i => i.confidence = .medium)
      ++ (ledger.openBlockers.take 3).map blockerLine
      ++ [if ledger.confidenceRollup = .blocker then
            "Please unblock or reply before this posts to the team channel."
          else "Scheduled summary (only when something changes). Approve · Edit · Don't send."]

end AiManager.Twins
