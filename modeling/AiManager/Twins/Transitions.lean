import AiManager.Twins.DraftIds
import AiManager.Twins.DraftRows

/-! # Calls and the state machine

Vetoes, edits and publishes ask the state machine before they write a status. A compile does not: when
it upgrades a draft that had nothing to report it writes the status of a new draft, and that may lie
behind the status the draft had. Exactly then a call leaves the transition relation
(`refines_iff_not_set_back`). -/

namespace AiManager.Twins

open Lib

/-- Every stored draft is still there, in a status that delivery events lead to. -/
def Advances (s s' : DeliveryState) : Prop :=
  ∀ k d, s.store.drafts.get k = some d → ∃ d', s'.store.drafts.get k = some d' ∧
    ∃ c auto, DraftStatus.Leads c auto d.status d'.status

/-- Whatever fails, the call moves the stored statuses along the transitions. -/
def Refines (svc : DeliveryService) (call : DeliveryCall) (s : DeliveryState) : Prop :=
  ∀ cs r s', (call.program svc).run.exec answer cs s = some (r, s') → Advances s s'

/-- A recompile sets no draft back: one that it upgrades has not come further than a new draft. -/
def NoSetBack (s : DeliveryState) : DeliveryCall → Prop
  | .startAfterCompileOpts x =>
    ∀ existing, s.store.getDraftByLedger x.twin.tenantId x.snap.ledgerId = some existing →
      upgradable x existing = true → existing.status.rank ≤ (upgradeStatus x).rank
  | _ => True

section Calls
variable {s s' : DeliveryState} {svc : DeliveryService} {ok : Choice → Prop} {x : StartInput}
  {draft existing : DraftDelivery}

theorem advances_of_sameRows (h : SameRows s s') : Advances s s' :=
  fun k d hd => ⟨d, by rw [h.drafts, hd], .medium, false, DraftStatus.Leads.refl _⟩

/-- One row changes, along the transitions. -/
theorem advances_of_ends {l : String × String} {P : DraftStatus → Prop}
    (hdraft : s.store.drafts.get draft.key = some draft) (h : Ends draft.key l P s s')
    (hP : ∀ t, P t → ∃ c auto, DraftStatus.Leads c auto draft.status t) : Advances s s' := by
  obtain ⟨d, hkey, -, hstatus, hholds⟩ := h
  intro k d₀ hd₀
  by_cases hk : k = d.key
  · subst hk
    rw [hkey, hdraft] at hd₀
    obtain rfl := Option.some.inj hd₀
    exact ⟨d, hholds.row, hP _ hstatus⟩
  · refine ⟨d₀, ?_, .medium, false, DraftStatus.Leads.refl _⟩
    rw [hholds.others k hk, hd₀]

theorem advances_of_moves {t d : String} {via : DraftStatus} {P : DraftStatus → Prop}
    (h : Moves t d s via P s') (hP : ∀ c auto u, P u → DraftStatus.Leads c auto via u) :
    Advances s s' := by
  rcases h with hsame | ⟨draft, c, auto, hdraft, hvia, hends⟩
  · exact advances_of_sameRows hsame
  · have hkey : draft.key = (t, d) := Table.key_of_get hdraft
    refine advances_of_ends (by rw [hkey]; exact hdraft) hends fun u hu => ⟨c, auto, ?_⟩
    exact Relation.ReflTransGen.trans hvia (hP c auto u hu)

theorem leads_publishEnd (c : ConfidenceTier) (auto : Bool) (u : DraftStatus) (h : PublishEnd ok u) :
    DraftStatus.Leads c auto .publishQueued u := by
  rcases h with rfl | ⟨rfl | rfl, -⟩
  · exact DraftStatus.leads_published (DraftStatus.Leads.refl _)
  · exact DraftStatus.Leads.refl _
  · exact DraftStatus.leads_publishFailed (DraftStatus.Leads.refl _)

/-- The statuses of new drafts. -/
theorem upgradeStatus_cases (x : StartInput) : upgradeStatus x = .shadow ∨
    upgradeStatus x = .pending ∨
    (upgradeStatus x = .forceHuman ∧ x.snap.confidenceRollup = .blocker) ∨
    upgradeStatus x = .publishQueued := by
  have hinitial : ∀ c, initialDraftStatus (x.twin.isInShadow x.now) c x.twin.highAutoPublish =
      .shadow ∨ initialDraftStatus (x.twin.isInShadow x.now) c x.twin.highAutoPublish = .pending ∨
      (initialDraftStatus (x.twin.isInShadow x.now) c x.twin.highAutoPublish = .forceHuman ∧
        c = .blocker) ∨
      initialDraftStatus (x.twin.isInShadow x.now) c x.twin.highAutoPublish = .publishQueued := by
    intro c
    cases c <;> cases x.twin.isInShadow x.now <;> cases x.twin.highAutoPublish <;>
      simp [initialDraftStatus]
  unfold upgradeStatus startStatus
  dsimp only
  split_ifs
  · exact .inl rfl
  · exact .inr (.inl rfl)
  · exact hinitial x.snap.confidenceRollup

theorem openish_cases {t : DraftStatus} (h : t.openish = true) :
    t = .shadow ∨ t = .pending ∨ t = .forceHuman ∨ t = .edited := by
  cases t <;> simp [DraftStatus.openish] at h ⊢

theorem advances_of_restarts (hrow : s.store.drafts.get existing.key = some existing)
    (hcond : upgradable x existing = true → existing.status.rank ≤ (upgradeStatus x).rank)
    (h : Restarts x ok existing s s') : Advances s s' := by
  unfold Restarts at h
  split_ifs at h with hup
  · rcases h with hends | ⟨hsame, -⟩
    · refine advances_of_ends hrow hends fun t ht => ⟨x.snap.confidenceRollup, false, ?_⟩
      subst ht
      exact DraftStatus.leads_of_rank_le (openish_cases (openish_of_upgradable hup))
        (upgradeStatus_cases x) (hcond hup)
    · exact advances_of_sameRows hsame
  · rcases h with hsame | ⟨-, hends⟩
    · exact advances_of_sameRows hsame
    · refine advances_of_ends hrow hends fun t ht => ⟨.medium, false, ?_⟩
      rw [ht]
      exact DraftStatus.Leads.refl _

/-- A new draft takes no other's place. -/
theorem advances_of_creates (hfresh : FreshIds s) (h : Creates svc x ok s s') : Advances s s' := by
  rcases h with ⟨uuid, huuid, d, hkey, -, -, hholds⟩ | ⟨hsame, -⟩
  · intro k d₀ hd₀
    have hk : k ≠ d.key := by
      rintro rfl
      rw [hkey, hfresh _ uuid huuid] at hd₀
      cases hd₀
    refine ⟨d₀, ?_, .medium, false, DraftStatus.Leads.refl _⟩
    rw [hholds.others k hk, hd₀]
  · exact advances_of_sameRows hsame

theorem advances_of_callEnd {call : DeliveryCall} (hfresh : FreshIds s) (hcond : NoSetBack s call)
    (h : CallEnd svc ok s s' call) : Advances s s' := by
  cases call with
  | explicitPublish twin t d => exact advances_of_moves h leads_publishEnd
  | silenceTimeout twin t d => exact advances_of_moves h leads_publishEnd
  | vetoDraft t d =>
    refine advances_of_moves h fun c auto u hu => ?_
    rw [hu]
    exact DraftStatus.Leads.refl _
  | editDraft t d text =>
    refine advances_of_moves h fun c auto u hu => ?_
    rw [hu]
    exact DraftStatus.Leads.refl _
  | startAfterCompileOpts x =>
    simp only [CallEnd, StartEnd] at h
    split at h
    · next existing hrow =>
      obtain ⟨id, -, hget⟩ := InMemoryTwinStore.getDraftByLedger_some hrow
      have hget : s.store.drafts.get existing.key = some existing := by
        rw [Table.key_of_get hget, hget]
      exact advances_of_restarts hget (hcond existing hrow) h
    · exact advances_of_creates hfresh h

/-! ## Upgrades that set back -/

/-- An upgrade that nothing keeps from its end. -/
theorem upgrade_ends (svc : DeliveryService)
    (hrow : s.store.getDraftByLedger x.twin.tenantId x.snap.ledgerId = some existing)
    (hup : upgradable x existing = true) :
    ∃ cs r s', ((DeliveryCall.startAfterCompileOpts x).program svc).run.exec answer cs s =
        some (r, s') ∧
      Ends existing.key existing.ledgerKey (fun t => t = upgradeStatus x) s s' := by
  obtain ⟨cs, r, s', hcs, he⟩ :=
    exists_smooth_exec ((DeliveryCall.startAfterCompileOpts x).program svc) s
  refine ⟨cs, r, s', he, ?_⟩
  have hend := (program_rows (.startAfterCompileOpts x)).of_exec hcs he
  simp only [CallEnd, StartEnd, hrow, Restarts, if_pos hup] at hend
  rcases hend with hends | ⟨-, hfail⟩
  · exact hends
  · exact absurd (fun c hc => hc) hfail

end Calls

/-- **Refinement.** A call moves the stored statuses along the transitions of the state machine exactly
if it does not set a draft back. -/
theorem refines_iff_not_set_back {svc : DeliveryService} {s : DeliveryState} (hs : Reachable svc s)
    (call : DeliveryCall) : Refines svc call s ↔ NoSetBack s call := by
  constructor
  · intro hrefines
    cases call with
    | startAfterCompileOpts x =>
      intro existing hrow hup
      obtain ⟨cs, r, s', he, d', hkey, -, hstatus, hholds⟩ := upgrade_ends svc hrow hup
      obtain ⟨id, -, hget⟩ := InMemoryTwinStore.getDraftByLedger_some hrow
      have hget : s.store.drafts.get existing.key = some existing := by
        rw [Table.key_of_get hget, hget]
      obtain ⟨d, hd, c, auto, hleads⟩ := hrefines _ r s' he existing.key existing hget
      rw [← hkey, hholds.row] at hd
      obtain rfl := Option.some.inj hd
      rw [← hstatus]
      exact DraftStatus.rank_le_of_leads hleads
    | _ => trivial
  · intro hcond cs r s' he
    have hrows : (call.program svc).run.Ensures answer (fun _ => True)
        (fun _ s' => CallEnd svc (fun _ => True) s s' call) s := program_rows call
    exact advances_of_callEnd (fresh_of_reachable hs) hcond (hrows.of_exec (fun _ => trivial) he)

/-! ### An edited draft that is upgraded -/

section Example
variable {svc : DeliveryService} {s : DeliveryState}

theorem Refines.after {run : CallRun} (h : Refines svc run.call s) :
    Advances s (run.after svc s) := by
  unfold CallRun.after
  split
  · next r s' he => exact h run.env r s' he
  · exact advances_of_sameRows (SameRows.refl s)

/-- A compile that finds nothing: its draft is kept, and not sent. -/
def nothingFound : CallRun :=
  ⟨.startAfterCompileOpts { compiled "" with snap := mediumLedger, forceNotify := false },
    smoothly "a"⟩

/-- The person writes a status instead. -/
def ownWords : CallRun := ⟨.editDraft "t" "dft_ai" "pairing all day", smoothly "b"⟩

def editedDraft : DeliveryState :=
  ownWords.after mockService (nothingFound.after mockService beforeDraft)

theorem editedDraft_reachable : Reachable mockService editedDraft :=
  ((Reachable.start beforeDraft rfl rfl).after nothingFound).after ownWords

/-- A recompile that finds an item makes a pending draft of the edited one. -/
theorem recompile_sets_back :
    Reachable mockService editedDraft ∧
      ¬ Refines mockService (compileRun "B" "c").call editedDraft := by
  refine ⟨editedDraft_reachable, fun hrefines => ?_⟩
  have hbefore : (editedDraft.store.drafts.get ("t", "dft_ai")).map (·.status) = some .edited := by
    decide +kernel
  have hafter : (((compileRun "B" "c").after mockService editedDraft).store.drafts.get
      ("t", "dft_ai")).map (·.status) = some .pending := by
    decide +kernel
  obtain ⟨d, hd, hedited⟩ := Option.map_eq_some_iff.mp hbefore
  obtain ⟨d', hd', c, auto, hleads⟩ := hrefines.after _ d hd
  rw [hd', Option.map_some, Option.some.injEq] at hafter
  rw [hedited, hafter] at hleads
  have hrank := DraftStatus.rank_le_of_leads hleads
  simp [DraftStatus.rank] at hrank

theorem refines_iff_edited :
    Refines mockService (compileRun "B" "c").call editedDraft ↔
      NoSetBack editedDraft (compileRun "B" "c").call :=
  refines_iff_not_set_back editedDraft_reachable _

end Example

end AiManager.Twins
