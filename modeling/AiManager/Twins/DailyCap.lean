import AiManager.Lib.Run
import AiManager.Twins.NotifyPolicy

/-! # The daily cap

The policy counts the messages of a UTC day and allows no more than a limit, except that a new blocker may
break the limit. What it takes for a new blocker is any blocker in a changed ledger: it compares with the
fingerprint of the last message, which tells only whether something changed. So the limit holds exactly as
long as no changed ledger with old blockers comes when it is reached (`cap_holds_iff`). -/

namespace AiManager.Twins

open Lib

/-! ## Calls of the policy -/

def ledgerHasBlocker (ledger : StatusLedger) : Bool :=
  !ledger.openBlockers.isEmpty || decide (ledger.confidenceRollup = .blocker)

/-- A blocker that the last notified ledger did not have, or the first rollup to a blocker. -/
def introducesBlocker (last : Option StatusLedger) (ledger : StatusLedger) : Bool :=
  (ledger.openBlockers.any fun b =>
    !last.any fun l => l.openBlockers.any fun old => decide (old.nodeId = b.nodeId))
  || (decide (ledger.confidenceRollup = .blocker)
    && !last.any fun l => decide (l.confidenceRollup = .blocker))

/-- A call for one twin, without force. A record is made of the ledger whose message went out. -/
inductive NotifyCall where
  | decide (ledger : StatusLedger) (now : DateTime) (allowNotify inShadow : Bool)
  | record (ledger : StatusLedger) (now : DateTime)

/-- The bookkeeping of a twin, the ledger it was last notified of, and the UTC days of the messages that were
allowed for ledgers without a new blocker. -/
structure NotifyRun where
  state : NotifyState
  lastNotified : Option StatusLedger
  allowed : List String

namespace NotifyRun
variable (max : Nat) (r : NotifyRun)

def start : NotifyRun := ⟨{}, none, []⟩

def step (r : NotifyRun) : NotifyCall → NotifyRun
  | .decide ledger now allowNotify inShadow =>
    if (decideNotify ledger r.state now max allowNotify false inShadow).allowDm
        && !introducesBlocker r.lastNotified ledger then
      { r with allowed := now.dayText :: r.allowed }
    else r
  | .record ledger now =>
    { r with
      state := recordDmSent r.state (ledgerFingerprint ledger) now
      lastNotified := some ledger }

/-- The messages that the bookkeeping knows of a day. -/
def counted (day : String) : Nat := if r.state.lastDmDay = day then r.state.dmsToday else 0

/-! ## The law and the condition -/

/-- No day has more messages without a new blocker than the limit; 0 is no limit. -/
def WithinCap : Prop := 0 < max → ∀ day, r.allowed.count day ≤ max

/-- A message beyond the limit is for a new blocker. -/
def OnlyNewBypasses : NotifyCall → Prop
  | .decide ledger now allowNotify inShadow =>
    (decideNotify ledger r.state now max allowNotify false inShadow).allowDm = true → 0 < max →
      max ≤ r.counted now.dayText → introducesBlocker r.lastNotified ledger = true
  | .record _ _ => True

/-- A message is in question: it is wanted, and the ledger is neither empty nor the last one again. -/
structure Due (ledger : StatusLedger) (allowNotify inShadow : Bool) : Prop where
  allow : allowNotify = true
  shown : inShadow = false
  filled : ledgerIsEmpty ledger = false
  changed : ¬ (r.state.lastFingerprint ≠ "" ∧ r.state.lastFingerprint = ledgerFingerprint ledger)

/-- Where a message is in question whose blockers are all old, the limit is not reached. -/
def BlockersBelowCap : NotifyCall → Prop
  | .decide ledger now allowNotify inShadow =>
    0 < max → r.Due ledger allowNotify inShadow → ledgerHasBlocker ledger = true →
      introducesBlocker r.lastNotified ledger = false → r.counted now.dayText < max
  | .record _ _ => True

/-- Where a message without a new blocker is in question and the bookkeeping has missed one of the day, fewer
were allowed than the limit. -/
def MissedBelowCap : NotifyCall → Prop
  | .decide ledger now allowNotify inShadow =>
    0 < max → r.Due ledger allowNotify inShadow → introducesBlocker r.lastNotified ledger = false →
      r.counted now.dayText < r.allowed.count now.dayText → r.allowed.count now.dayText < max
  | .record _ _ => True

/-! ## One call -/

section Step
variable {max : Nat} {r : NotifyRun}

/-- A message goes out when it is in question, below the limit, and beyond it for any blocker. -/
theorem allow_iff (ledger : StatusLedger) (now : DateTime) (allowNotify inShadow : Bool) :
    (decideNotify ledger r.state now max allowNotify false inShadow).allowDm = true ↔
      r.Due ledger allowNotify inShadow ∧
        (0 < max → max ≤ r.counted now.dayText → ledgerHasBlocker ledger = true) := by
  by_cases hdue : r.Due ledger allowNotify inShadow
  · obtain ⟨rfl, rfl, hfilled, hchanged⟩ := hdue
    have hnew : (decide (r.state.lastFingerprint = "") || !Text.contains r.state.lastFingerprint "b:"
        || decide (ledgerFingerprint ledger ≠ r.state.lastFingerprint)) = true := by
      by_cases hfirst : r.state.lastFingerprint = ""
      · simp [hfirst]
      · have hne : ledgerFingerprint ledger ≠ r.state.lastFingerprint :=
          fun heq => hchanged ⟨hfirst, heq.symm⟩
        simp [hne]
    have hiff : ∀ n : Nat, (¬ (max > 0 ∧ n ≥ max ∧ (!ledgerHasBlocker ledger) = true)) ↔
        (0 < max → max ≤ n → ledgerHasBlocker ledger = true) := by
      intro n
      cases ledgerHasBlocker ledger <;> simp
    rw [and_iff_right ⟨rfl, rfl, hfilled, hchanged⟩, ← hiff]
    unfold decideNotify
    simp only [hnew, Bool.and_true, hfilled, if_neg hchanged, Bool.false_eq_true, if_false, Bool.not_true,
      Bool.false_and]
    unfold counted ledgerHasBlocker
    split_ifs with hday hcap hcap
    · exact iff_of_false id (not_not_intro hcap)
    · exact iff_of_true rfl hcap
    · exact iff_of_false id (not_not_intro hcap)
    · exact iff_of_true rfl hcap
  · refine iff_of_false (fun hallow => hdue ?_) fun h => hdue h.1
    unfold decideNotify at hallow
    dsimp only at hallow
    split_ifs at hallow with hshadow hquiet hempty hforce hsame
    · cases hforce
    all_goals exact ⟨by simpa using hquiet, by simpa using hshadow, by simpa using hempty, hsame⟩

theorem bypass_iff (call : NotifyCall) : OnlyNewBypasses max r call ↔ BlockersBelowCap max r call := by
  cases call with
  | record ledger now => exact Iff.rfl
  | decide ledger now allowNotify inShadow =>
    unfold OnlyNewBypasses BlockersBelowCap
    dsimp only
    rw [allow_iff]
    constructor
    · intro h hmax hdue hblocker hold
      by_contra hreached
      have hnew := h ⟨hdue, fun _ _ => hblocker⟩ hmax (Nat.le_of_not_lt hreached)
      rw [hold] at hnew
      cases hnew
    · rintro h ⟨hdue, hallow⟩ hmax hreached
      cases hnew : introducesBlocker r.lastNotified ledger with
      | true => rfl
      | false => exact absurd (h hmax hdue (hallow hmax hreached) hnew) (Nat.not_lt.mpr hreached)

theorem withinCap_step_iff (call : NotifyCall) (hbelow : BlockersBelowCap max r call)
    (hwithin : WithinCap max r) : WithinCap max (step max r call) ↔ MissedBelowCap max r call := by
  cases call with
  | record ledger now => exact iff_of_true hwithin trivial
  | decide ledger now allowNotify inShadow =>
    unfold step MissedBelowCap
    dsimp only
    by_cases hcounts : (decideNotify ledger r.state now max allowNotify false inShadow).allowDm = true ∧
        introducesBlocker r.lastNotified ledger = false
    · -- one message more for the day
      obtain ⟨hallow, hold⟩ := hcounts
      rw [hallow, hold, Bool.not_false, Bool.and_self, if_pos rfl]
      obtain ⟨hdue, hblocker⟩ := (allow_iff ledger now allowNotify inShadow).mp hallow
      constructor
      · intro h hmax _ _ _
        have := h hmax now.dayText
        rw [List.count_cons_self] at this
        exact this
      · intro h hmax day
        rw [List.count_cons]
        split_ifs with hday
        · rw [beq_iff_eq] at hday
          subst hday
          have hcount : r.counted now.dayText < max := by
            by_contra hreached
            have := hblocker hmax (Nat.le_of_not_lt hreached)
            exact hreached (hbelow hmax hdue this hold)
          by_cases hmissed : r.counted now.dayText < r.allowed.count now.dayText
          · exact h hmax hdue rfl hmissed
          · omega
        · exact hwithin hmax day
    · rw [if_neg (by simpa using hcounts)]
      refine iff_of_true hwithin fun hmax hdue hold hmissed => ?_
      -- a message that was in question did not go out: the limit was reached
      have hnot : ¬ (decideNotify ledger r.state now max allowNotify false inShadow).allowDm = true :=
        fun hallow => hcounts ⟨hallow, hold⟩
      rw [allow_iff] at hnot
      have hreached : max ≤ r.counted now.dayText := by
        by_contra hbelow'
        exact hnot ⟨hdue, fun _ hreached => absurd hreached hbelow'⟩
      have := hwithin hmax now.dayText
      omega

end Step

end NotifyRun

/-- **The daily cap.** Over every sequence of decisions and records, no UTC day has more messages without a new
blocker than the limit and only a new blocker breaks it, exactly if old blockers only come below the limit and
the bookkeeping misses no message of a day on which it is reached. -/
theorem cap_holds_iff (max : Nat) (calls : List NotifyCall) :
    Throughout (NotifyRun.step max) (NotifyRun.WithinCap max) .start calls ∧
        EachStep (NotifyRun.step max) (NotifyRun.OnlyNewBypasses max) .start calls ↔
      EachStep (NotifyRun.step max) (NotifyRun.BlockersBelowCap max) .start calls ∧
        EachStep (NotifyRun.step max) (NotifyRun.MissedBelowCap max) .start calls := by
  have hstart : NotifyRun.WithinCap max .start := fun _ day => Nat.zero_le max
  have hbypass : EachStep (NotifyRun.step max) (NotifyRun.OnlyNewBypasses max) .start calls ↔
      EachStep (NotifyRun.step max) (NotifyRun.BlockersBelowCap max) .start calls :=
    eachStep_iff (I := fun _ => True) (fun _ call _ => NotifyRun.bypass_iff call) (fun _ _ _ _ => trivial) trivial
  rw [hbypass, and_comm]
  refine and_congr_right fun hbelow => ?_
  exact throughout_iff (fun _ call hbelow hwithin => NotifyRun.withinCap_step_iff call hbelow hwithin) hbelow hstart

/-! ### An old blocker, and a story that goes on -/

/-- A ledger with one open blocker and one item. -/
def blockedLedger (summary : String) : StatusLedger :=
  { (default : StatusLedger) with
    confidenceRollup := .blocker
    items := [{ (default : LedgerItem) with kind := "pr", nodeId := "pr:a/b/1", summary := summary }]
    openBlockers := [{ (default : BlockerItem) with nodeId := "pr:a/b/2", summary := "blocked" }] }

/-- The story changes twice on one day; the blocker is the same from the start. -/
def blockedDay : List NotifyCall :=
  [.decide (blockedLedger "opened") 0 true false, .record (blockedLedger "opened") 0,
    .decide (blockedLedger "reviewed") 1 true false, .record (blockedLedger "reviewed") 1,
    .decide (blockedLedger "merged") 2 true false]

/-- With a limit of one, two messages go out that day for ledgers without a new blocker. -/
theorem old_blocker_breaks_cap :
    (runFrom (NotifyRun.step 1) .start blockedDay).allowed = ["1970-01-01", "1970-01-01"] ∧
      ¬ (Throughout (NotifyRun.step 1) (NotifyRun.WithinCap 1) .start blockedDay ∧
        EachStep (NotifyRun.step 1) (NotifyRun.OnlyNewBypasses 1) .start blockedDay) := by
  have hallowed : (runFrom (NotifyRun.step 1) .start blockedDay).allowed = ["1970-01-01", "1970-01-01"] := by
    decide +kernel
  refine ⟨hallowed, fun ⟨hwithin, _⟩ => ?_⟩
  have htwo := hwithin.last Nat.one_pos "1970-01-01"
  rw [hallowed] at htwo
  exact absurd htwo (by decide)

end AiManager.Twins
