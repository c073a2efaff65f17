import AiManager.Twins.Model
import Mathlib.Logic.Relation

/-! # The delivery state machine

Pure transitions of a draft's status, and the policy for the first status after a compile. -/

namespace AiManager.Twins

/-- Events that drive draft delivery transitions. -/
inductive DeliveryEvent where
  | enterShadow
  | leaveShadow
  | dmSent
  | edit
  | veto
  | mediumSilenceTimeout
  | explicitPublish
  | highAutoPublish
  | forceHuman
  | publishSucceeded
  | publishFailed
  deriving DecidableEq, Repr

/-- Apply a delivery event; `none` where the transition is illegal. -/
def applyDeliveryEvent (current : DraftStatus) (event : DeliveryEvent) (confidence : ConfidenceTier)
    (highAutoPublish : Bool) : Option DraftStatus :=
  match current, event with
  | .shadow, .leaveShadow => some .pending
  | .shadow, .enterShadow => some .shadow
  | .pending, .edit => some .edited
  | .pending, .veto => some .vetoed
  | .pending, .mediumSilenceTimeout => if confidence = .medium then some .publishQueued else none
  | .pending, .explicitPublish => some .publishQueued
  | .pending, .highAutoPublish =>
    if confidence = .high ∧ highAutoPublish then some .publishQueued else none
  | .pending, .forceHuman => if confidence = .blocker then some .forceHuman else none
  | .pending, .publishFailed => some .publishFailed
  | .edited, .explicitPublish => some .publishQueued
  | .edited, .mediumSilenceTimeout => if confidence = .medium then some .publishQueued else none
  | .edited, .veto => some .vetoed
  | .forceHuman, .explicitPublish => some .publishQueued
  | .forceHuman, .veto => some .vetoed
  | .forceHuman, .edit => some .edited
  | .publishQueued, .publishSucceeded => some .published
  | .publishQueued, .publishFailed => some .publishFailed
  | .publishFailed, .explicitPublish => some .publishQueued
  | .publishFailed, .highAutoPublish =>
    if confidence = .high ∧ highAutoPublish then some .publishQueued else none
  | .pending, .dmSent => some .pending
  | _, _ => none

/-- Choose initial draft status after compile. -/
def initialDraftStatus (inShadow : Bool) (confidence : ConfidenceTier) (highAutoPublish : Bool) :
    DraftStatus :=
  if inShadow then .shadow
  else match confidence with
    | .blocker => .forceHuman
    | .high => if highAutoPublish then .publishQueued else .pending
    | .medium => .pending

theorem initial_eq_publishQueued {inShadow auto : Bool} {c : ConfidenceTier}
    (h : initialDraftStatus inShadow c auto = .publishQueued) : c = .high ∧ auto = true := by
  revert h
  cases inShadow <;> cases c <;> cases auto <;> simp [initialDraftStatus]

/-- Whether silence timeout may auto-queue publish. -/
def silenceMayPublish (confidence : ConfidenceTier) : Bool := confidence = .medium

section Transitions
variable {s t : DraftStatus} {e : DeliveryEvent} {c : ConfidenceTier} {auto : Bool}

/-- A veto is terminal. -/
@[simp] theorem apply_vetoed : applyDeliveryEvent .vetoed e c auto = none := by
  cases e <;> rfl

/-- What can still go on is not vetoed. -/
theorem ne_vetoed_of_apply (h : applyDeliveryEvent s e c auto = some t) : s ≠ .vetoed := by
  rintro rfl
  rw [apply_vetoed] at h
  cases h

@[simp] theorem apply_published : applyDeliveryEvent .published e c auto = none := by
  cases e <;> rfl

/-- Only a veto leads to a vetoed draft. -/
theorem apply_eq_vetoed (h : applyDeliveryEvent s e c auto = some .vetoed) : e = .veto := by
  revert h
  cases s <;> cases e <;> simp [applyDeliveryEvent]

theorem apply_veto (h : applyDeliveryEvent s .veto c auto = some t) : t = .vetoed := by
  revert h
  cases s <;> simp [applyDeliveryEvent, eq_comm]

theorem apply_edit (h : applyDeliveryEvent s .edit c auto = some t) : t = .edited := by
  revert h
  cases s <;> simp [applyDeliveryEvent, eq_comm]

theorem apply_explicitPublish (h : applyDeliveryEvent s .explicitPublish c auto = some t) :
    t = .publishQueued := by
  revert h
  cases s <;> simp [applyDeliveryEvent, eq_comm]

theorem apply_mediumSilenceTimeout (h : applyDeliveryEvent s .mediumSilenceTimeout c auto = some t) :
    t = .publishQueued := by
  revert h
  cases s <;> simp +contextual [applyDeliveryEvent, eq_comm]

end Transitions

/-! ## Sequences of events -/

namespace DraftStatus

/-- Events take the status `s` to `t`, for one tier and one setting of auto-publish. -/
def Leads (confidence : ConfidenceTier) (highAutoPublish : Bool) : DraftStatus → DraftStatus → Prop :=
  Relation.ReflTransGen fun s t => ∃ e, applyDeliveryEvent s e confidence highAutoPublish = some t

/-- How far a draft has come. -/
def rank : DraftStatus → ℕ
  | .shadow => 0
  | .pending => 1
  | .forceHuman => 2
  | .edited => 3
  | _ => 4

section Leads
variable {s t : DraftStatus} {e : DeliveryEvent} {c : ConfidenceTier} {auto : Bool}

theorem Leads.refl (s : DraftStatus) : Leads c auto s s := Relation.ReflTransGen.refl

theorem Leads.of_apply (h : applyDeliveryEvent s e c auto = some t) : Leads c auto s t :=
  Relation.ReflTransGen.single ⟨e, h⟩

theorem Leads.apply {u : DraftStatus} (hst : Leads c auto s t)
    (h : applyDeliveryEvent t e c auto = some u) : Leads c auto s u :=
  hst.tail ⟨e, h⟩

/-- No event takes a draft back. -/
theorem rank_le_of_apply (h : applyDeliveryEvent s e c auto = some t) : s.rank ≤ t.rank := by
  revert h
  cases s <;> cases e <;> cases t <;> simp [applyDeliveryEvent, rank]

theorem rank_le_of_leads (h : Leads c auto s t) : s.rank ≤ t.rank := by
  induction h with
  | refl => exact Nat.le_refl _
  | tail _ hstep ih =>
    obtain ⟨e, he⟩ := hstep
    exact Nat.le_trans ih (rank_le_of_apply he)

theorem leads_published (h : Leads c auto s .publishQueued) : Leads c auto s .published :=
  h.apply (e := .publishSucceeded) rfl

theorem leads_publishFailed (h : Leads c auto s .publishQueued) : Leads c auto s .publishFailed :=
  h.apply (e := .publishFailed) rfl

/-- An open draft can come to any status of a new draft that is not behind its own. -/
theorem leads_of_rank_le (hs : s = .shadow ∨ s = .pending ∨ s = .forceHuman ∨ s = .edited)
    (ht : t = .shadow ∨ t = .pending ∨ (t = .forceHuman ∧ c = .blocker) ∨ t = .publishQueued)
    (h : s.rank ≤ t.rank) : Leads c auto s t := by
  have hqueue : ∀ u : DraftStatus, u = .pending ∨ u = .forceHuman ∨ u = .edited →
      Leads c auto u .publishQueued := by
    rintro u (rfl | rfl | rfl) <;> exact Leads.of_apply (e := .explicitPublish) rfl
  have hhuman : c = .blocker → Leads c auto .pending .forceHuman := by
    rintro rfl
    exact Leads.of_apply (e := .forceHuman) rfl
  have hleave : Leads c auto .shadow .pending := Leads.of_apply (e := .leaveShadow) rfl
  rcases hs with rfl | hs
  · rcases ht with rfl | rfl | ⟨rfl, hc⟩ | rfl
    · exact Leads.refl _
    · exact hleave
    · exact Relation.ReflTransGen.trans hleave (hhuman hc)
    · exact Relation.ReflTransGen.trans hleave (hqueue _ (.inl rfl))
  · rcases ht with rfl | rfl | ⟨rfl, hc⟩ | rfl
    · rcases hs with rfl | rfl | rfl <;> simp [rank] at h
    · rcases hs with rfl | rfl | rfl
      · exact Leads.refl _
      all_goals simp [rank] at h
    · rcases hs with rfl | rfl | rfl
      · exact hhuman hc
      · exact Leads.refl _
      · simp [rank] at h
    · exact hqueue s hs

end Leads

end DraftStatus

end AiManager.Twins
