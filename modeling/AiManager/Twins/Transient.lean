import AiManager.Twins.DraftIds
import AiManager.Twins.DraftRows

/-! # Queued drafts at rest

A queued draft should be on its way to the channel. An upgrade to the queue, and a first compile whose
message is suppressed, leave it there; without failures no other call does. A draft at rest is then
decided, or waits for its person, or is in the shadow, where nobody is asked. -/

namespace AiManager.Twins

open Lib

/-- The ledger of the draft is published. -/
def PublishedLedger (s : DeliveryState) (d : DraftDelivery) : Prop :=
  (s.store.getPublishByLedger d.tenantId d.ledgerId).isSome = true

/-- No draft is queued but those of published ledgers. -/
def Unqueued (s : DeliveryState) : Prop :=
  ∀ k d, s.store.drafts.get k = some d → d.status = .publishQueued → PublishedLedger s d

/-- A call that queues a draft and does not publish it. -/
def Strands (svc : DeliveryService) (s : DeliveryState) : DeliveryCall → Prop
  | .startAfterCompileOpts x =>
    match s.store.getDraftByLedger x.twin.tenantId x.snap.ledgerId with
    | some existing => upgradable x existing = true ∧ upgradeStatus x = .publishQueued ∧
        ¬ PublishedLedger s existing
    | none => createStatus svc x = .publishQueued ∧ createSends svc x = false ∧
        s.store.getPublishByLedger x.twin.tenantId x.snap.ledgerId = none
  | _ => False

/-- The status is a last one. -/
def DraftStatus.terminal : DraftStatus → Bool
  | .vetoed | .published | .expired => true
  | _ => false

/-- The person can still decide: a veto, an edit or an approval is accepted. -/
def DraftStatus.Decidable (t : DraftStatus) : Prop :=
  ∀ c auto, (applyDeliveryEvent t .veto c auto).isSome = true ∨
    (applyDeliveryEvent t .edit c auto).isSome = true ∨
    (applyDeliveryEvent t .explicitPublish c auto).isSome = true

/-- A draft that nothing is about to happen to. -/
def AtRest (s : DeliveryState) (d : DraftDelivery) : Prop :=
  d.status.terminal = true ∨ PublishedLedger s d ∨ d.status.Decidable ∨ d.status = .shadow

theorem decidable_of_not_terminal {t : DraftStatus} (hterminal : t.terminal = false)
    (hqueued : t ≠ .publishQueued) (hshadow : t ≠ .shadow) : t.Decidable := by
  intro c auto
  cases t <;> simp_all [DraftStatus.terminal, applyDeliveryEvent]

/-- Where no draft is queued, every draft is at rest. -/
theorem Unqueued.atRest {s : DeliveryState} (h : Unqueued s) {k : String × String} {d : DraftDelivery}
    (hd : s.store.drafts.get k = some d) : AtRest s d := by
  cases hterminal : d.status.terminal with
  | true => exact .inl hterminal
  | false =>
    by_cases hqueued : d.status = .publishQueued
    · exact .inr (.inl (h k d hd hqueued))
    · by_cases hshadow : d.status = .shadow
      · exact .inr (.inr (.inr hshadow))
      · exact .inr (.inr (.inl (decidable_of_not_terminal hterminal hqueued hshadow)))

/-! ## Publish records stay -/

section Records
variable {s s' : DeliveryState} {svc : DeliveryService} {ok : Choice → Prop}

/-- Every publish record of `s` is one of `s'`. -/
def RecordsStay (s s' : DeliveryState) : Prop :=
  ∀ t l, (s.store.getPublishByLedger t l).isSome = true →
    (s'.store.getPublishByLedger t l).isSome = true

theorem recordsStay_put (st : InMemoryTwinStore) (rec : PublishRecord) {t l : String}
    (h : (st.getPublishByLedger t l).isSome = true) :
    ((st.putPublishIfAbsent rec).2.getPublishByLedger t l).isSome = true := by
  unfold InMemoryTwinStore.putPublishIfAbsent
  split_ifs with hhas
  · exact h
  · unfold InMemoryTwinStore.getPublishByLedger at h ⊢
    cases hid : st.publishByLedger.get (t, l) with
    | none => simp [hid] at h
    | some id =>
      have hne : (t, l) ≠ rec.ledgerKey := by
        intro heq
        rw [Bool.not_eq_true, KMap.has_eq_false_iff, ← heq, hid] at hhas
        cases hhas
      simp only [hid] at h
      simp only [KMap.get_put_ne _ _ hne, hid, Table.get_put]
      split_ifs
      · rfl
      · exact h

theorem recordsStay_answer {c : Choice} {op : DeliveryOp} {r : op.Res}
    (hs : answer c op s = some (r, s')) : RecordsStay s s' := by
  intro t l h
  by_cases hop : ∃ rec, op = .putPublishIfAbsent rec
  · obtain ⟨rec, rfl⟩ := hop
    obtain ⟨-, -, rfl⟩ | ⟨-, rfl⟩ := writing_eq (f := fun st => st.putPublishIfAbsent rec) hs
    · exact h
    · exact recordsStay_put s.store rec h
  · obtain ⟨hindex, hpublishes⟩ := answer_publishes hs fun rec heq => hop ⟨rec, heq⟩
    unfold InMemoryTwinStore.getPublishByLedger at h ⊢
    rw [hindex, hpublishes]
    exact h

theorem recordsStay_program (call : DeliveryCall) :
    (call.program svc).run.Ensures answer ok (fun _ s' => RecordsStay s s') s := by
  refine Prog.ensures_of_keeps (I := fun s' => RecordsStay s s') ?_ _ fun _ _ h => h
  exact fun _ _ _ _ _ hs hI t l h => recordsStay_answer hs t l (hI t l h)

/-- A program that records no publish leaves the records as they are. -/
theorem records_of_callsOnly {α : Type} {p : DeliveryM α}
    (h : p.run.CallsOnly fun op => ∀ rec, op ≠ .putPublishIfAbsent rec) :
    p.run.Ensures answer ok (fun _ (s' : DeliveryState) => ∀ t l,
      s'.store.getPublishByLedger t l = s.store.getPublishByLedger t l) s := by
  refine h.ensures (I := fun s' : DeliveryState => ∀ t l, s'.store.getPublishByLedger t l =
    s.store.getPublishByLedger t l) ?_ fun _ _ => rfl
  intro c op r s₁ s₂ _ hop hs hI t l
  obtain ⟨hindex, hpublishes⟩ := answer_publishes hs hop
  rw [← hI]
  unfold InMemoryTwinStore.getPublishByLedger
  rw [hindex, hpublishes]

/-- A compile publishes nothing unless it makes a draft for the channel. -/
theorem records_start (ok : Choice → Prop) {x : StartInput}
    (h : s.store.getDraftByLedger x.twin.tenantId x.snap.ledgerId = none →
      autoPublishes svc x = false) :
    ((DeliveryCall.startAfterCompileOpts x).program svc).run.Ensures answer ok
      (fun _ (s' : DeliveryState) => ∀ t l,
        s'.store.getPublishByLedger t l = s.store.getPublishByLedger t l) s := by
  refine drop_ensures ?_
  refine read_bind_ensures (v := s.store.getDraftByLedger x.twin.tenantId x.snap.ledgerId)
    (fun _ => rfl) ?_ fun _ _ _ => rfl
  cases hrow : s.store.getDraftByLedger x.twin.tenantId x.snap.ledgerId with
  | none => exact records_of_callsOnly (createDraft_noRecord (h hrow))
  | some existing =>
    refine records_of_callsOnly (restartDraft_unfiling.mono ?_)
    intro op hop rec heq
    rw [heq] at hop
    exact hop

end Records

/-! ## One call -/

section Step
variable {s s' : DeliveryState} {svc : DeliveryService} {ok : Choice → Prop} {x : StartInput}
  {d : DraftDelivery}

theorem unqueued_of_sameRows (hP : Unqueued s) (hstay : RecordsStay s s') (h : SameRows s s') :
    Unqueued s' := by
  intro k d hd hqueued
  rw [h.drafts] at hd
  exact hstay _ _ (hP k d hd hqueued)

/-- After a call that wrote one row, it is that row that matters. -/
theorem unqueued_iff_of_holds (hP : Unqueued s) (hstay : RecordsStay s s') (h : Holds s d s') :
    Unqueued s' ↔ (d.status = .publishQueued → PublishedLedger s' d) := by
  constructor
  · exact fun hall hqueued => hall _ d h.row hqueued
  · intro hd k d' hd' hqueued
    by_cases hk : k = d.key
    · subst hk
      rw [h.row] at hd'
      obtain rfl := Option.some.inj hd'
      exact hd hqueued
    · rw [h.others k hk] at hd'
      exact hstay _ _ (hP k d' hd' hqueued)

theorem unqueued_of_ends {k l : String × String} {P : DraftStatus → Prop} (hP : Unqueued s)
    (hstay : RecordsStay s s') (h : Ends k l P s s') (hne : ∀ t, P t → t ≠ .publishQueued) :
    Unqueued s' := by
  obtain ⟨d, -, -, hstatus, hholds⟩ := h
  exact (unqueued_iff_of_holds hP hstay hholds).mpr fun hqueued => absurd hqueued (hne _ hstatus)

theorem unqueued_of_moves {t u : String} {via : DraftStatus} {P : DraftStatus → Prop}
    (hP : Unqueued s) (hstay : RecordsStay s s') (h : Moves t u s via P s')
    (hne : ∀ t, P t → t ≠ .publishQueued) : Unqueued s' := by
  rcases h with hsame | ⟨draft, c, auto, -, -, hends⟩
  · exact unqueued_of_sameRows hP hstay hsame
  · exact unqueued_of_ends hP hstay hends hne

theorem publishEnd_ne_queued (hok : Smooth ok) (t : DraftStatus) (h : PublishEnd ok t) :
    t ≠ .publishQueued := by
  rcases h with rfl | ⟨-, hfail⟩
  · exact nofun
  · exact absurd hok hfail

theorem openish_ne_queued {t : DraftStatus} (h : t.openish = true) : t ≠ .publishQueued := by
  rintro rfl
  cases h

/-- A draft that goes to the queue and whose message goes out is one for the channel. -/
theorem autoPublishes_of_queued (hqueued : createStatus svc x = .publishQueued)
    (hsends : createSends svc x = true) : autoPublishes svc x = true := by
  refine autoPublishes_iff.mpr ⟨hsends, hqueued, ?_⟩
  unfold createStatus startStatus at hqueued
  dsimp only at hqueued
  split_ifs at hqueued
  exact initial_eq_publishQueued hqueued

theorem publishedLedger_iff {existing : DraftDelivery}
    (hledger : d.ledgerKey = existing.ledgerKey)
    (hrecords : ∀ t l, s'.store.getPublishByLedger t l = s.store.getPublishByLedger t l) :
    PublishedLedger s' d ↔ PublishedLedger s existing := by
  obtain ⟨htenant, hid⟩ := Prod.mk.inj hledger
  unfold PublishedLedger
  rw [hrecords, htenant, hid]

theorem unqueued_restart_iff {existing : DraftDelivery} (hok : Smooth ok) (hP : Unqueued s)
    (hstay : RecordsStay s s')
    (hrecords : ∀ t l, s'.store.getPublishByLedger t l = s.store.getPublishByLedger t l)
    (h : Restarts x ok existing s s') :
    Unqueued s' ↔ ¬ (upgradable x existing = true ∧ upgradeStatus x = .publishQueued ∧
      ¬ PublishedLedger s existing) := by
  unfold Restarts at h
  split_ifs at h with hup
  · rcases h with ⟨d, -, hledger, hstatus, hholds⟩ | ⟨-, hfail⟩
    · rw [unqueued_iff_of_holds hP hstay hholds, hstatus, publishedLedger_iff hledger hrecords]
      simp [hup]
    · exact absurd hok hfail
  · refine iff_of_true ?_ fun hcond => hup hcond.1
    rcases h with hsame | ⟨hopen, hends⟩
    · exact unqueued_of_sameRows hP hstay hsame
    · refine unqueued_of_ends hP hstay hends fun t ht => ?_
      rw [ht]
      exact openish_ne_queued hopen

theorem unqueued_create_iff (hok : Smooth ok) (hP : Unqueued s) (hstay : RecordsStay s s')
    (hfree : s.store.draftByLedger.get (x.twin.tenantId, x.snap.ledgerId) = none)
    (hrecords : autoPublishes svc x = false →
      ∀ t l, s'.store.getPublishByLedger t l = s.store.getPublishByLedger t l)
    (h : Creates svc x ok s s') :
    Unqueued s' ↔ ¬ (createStatus svc x = .publishQueued ∧ createSends svc x = false ∧
      s.store.getPublishByLedger x.twin.tenantId x.snap.ledgerId = none) := by
  rcases h with ⟨uuid, -, hends⟩ | ⟨-, hno⟩
  · cases hauto : autoPublishes svc x with
    | true =>
      obtain ⟨hsends, -⟩ := autoPublishes_iff.mp hauto
      refine iff_of_true (unqueued_of_ends hP hstay hends fun t ht => ?_) ?_
      · rw [CreateEnd, if_pos hauto] at ht
        exact publishEnd_ne_queued hok t ht
      · simp [hsends]
    | false =>
      obtain ⟨d, -, hledger, hstatus, hholds⟩ := hends
      rw [CreateEnd, hauto] at hstatus
      have hstatus : d.status = createStatus svc x := hstatus
      obtain ⟨htenant, hid⟩ := Prod.mk.inj hledger
      have hpublished : PublishedLedger s' d ↔
          s.store.getPublishByLedger x.twin.tenantId x.snap.ledgerId ≠ none := by
        unfold PublishedLedger
        rw [hrecords hauto, htenant, hid, Option.isSome_iff_ne_none]
      have hsends : createStatus svc x = .publishQueued → createSends svc x = false := by
        intro hqueued
        by_contra hsends
        rw [Bool.not_eq_false] at hsends
        rw [autoPublishes_of_queued hqueued hsends] at hauto
        cases hauto
      rw [unqueued_iff_of_holds hP hstay hholds, hstatus, hpublished]
      constructor
      · rintro himp ⟨hqueued, -, hnone⟩
        exact himp hqueued hnone
      · exact fun hcond hqueued hnone => hcond ⟨hqueued, hsends hqueued, hnone⟩
  · exact absurd hfree (hno hok)

/-- A call without failures leaves no draft queued, unless it is one that strands a draft. -/
theorem unqueued_step_iff (hs : Reachable svc s) (hP : Unqueued s) {run : CallRun}
    (hsmooth : ∀ n, (run.env n).NoFailure) {r : TwinResult Unit}
    (he : (run.call.program svc).run.exec answer run.env s = some (r, s')) :
    Unqueued s' ↔ ¬ Strands svc s run.call := by
  have hok : Smooth Choice.NoFailure := fun c hc => hc
  have hend := (program_rows run.call).of_exec hsmooth he
  have hstay := (recordsStay_program run.call).of_exec hsmooth he
  obtain ⟨call, env⟩ := run
  cases call with
  | explicitPublish twin t d =>
    exact iff_of_true (unqueued_of_moves hP hstay hend (publishEnd_ne_queued hok)) id
  | silenceTimeout twin t d =>
    exact iff_of_true (unqueued_of_moves hP hstay hend (publishEnd_ne_queued hok)) id
  | vetoDraft t d =>
    refine iff_of_true (unqueued_of_moves hP hstay hend fun u hu => ?_) id
    rw [hu]
    exact nofun
  | editDraft t d text =>
    refine iff_of_true (unqueued_of_moves hP hstay hend fun u hu => ?_) id
    rw [hu]
    exact nofun
  | startAfterCompileOpts x =>
    simp only [CallEnd, StartEnd] at hend
    unfold Strands
    dsimp only
    cases hrow : s.store.getDraftByLedger x.twin.tenantId x.snap.ledgerId with
    | some existing =>
      rw [hrow] at hend
      have hrecords := (records_start Choice.NoFailure fun hnone => by
        rw [hrow] at hnone; cases hnone).of_exec hsmooth he
      exact unqueued_restart_iff hok hP hstay hrecords hend
    | none =>
      rw [hrow] at hend
      refine unqueued_create_iff hok hP hstay ?_ (fun hauto => ?_) hend
      · exact DraftsIndexed.index_none (indexed_of_reachable hs) hrow
      · exact (records_start Choice.NoFailure fun _ => hauto).of_exec hsmooth he

/-- The run finishes, or leaves the state as it is. -/
theorem unqueued_after_iff (hs : Reachable svc s) (hP : Unqueued s) {run : CallRun}
    (hsmooth : ∀ n, (run.env n).NoFailure) :
    Unqueued (run.after svc s) ↔
      (Strands svc s run.call → (run.call.program svc).run.exec answer run.env s = none) := by
  unfold CallRun.after
  split
  · next r s' he =>
    rw [unqueued_step_iff hs hP hsmooth he, he]
    simp
  · next he => exact iff_of_true hP fun _ => he

end Step

theorem reachable_smooth {svc : DeliveryService} {s : DeliveryState} (hs : Reachable svc s) {runs : List CallRun}
    (hsmooth : ∀ run ∈ runs, ∀ n, (run.env n).NoFailure) :
    EachStep (fun s run => run.after svc s) (fun s run => Reachable svc s ∧ ∀ n, (run.env n).NoFailure) s runs := by
  have hcalls : EachStep (fun s run => run.after svc s) (fun _ run => ∀ n, (run.env n).NoFailure) s runs :=
    .of_mem (fun _ => hsmooth) s
  exact (throughout_of_eachStep (fun _ run _ h => h.after run) hcalls hs).eachStep.and hcalls

/-- **Queues drain.** Calls without failures, none of which strands a draft, leave no draft queued
whose ledger is unpublished, and every draft at rest. -/
theorem queue_drains {svc : DeliveryService} {s : DeliveryState} (hs : Reachable svc s)
    (hP : Unqueued s) {runs : List CallRun} (hsmooth : ∀ run ∈ runs, ∀ n, (run.env n).NoFailure)
    (hcond : EachStep (fun s run => run.after svc s) (fun s run => ¬ Strands svc s run.call) s runs) :
    Throughout (fun s run => run.after svc s)
      (fun s => Unqueued s ∧ ∀ k d, s.store.drafts.get k = some d → AtRest s d) s runs := by
  have hsteps := (reachable_smooth hs hsmooth).and hcond
  refine (throughout_of_eachStep ?_ hsteps hP).mono fun s h => ⟨h, fun k d => h.atRest⟩
  rintro s run ⟨⟨hs, hrun⟩, hstays⟩ hP
  exact (unqueued_after_iff hs hP hrun).mpr fun h => absurd h hstays

/-- The queue drains throughout exactly if no call that ends strands a draft. -/
theorem queue_drains_iff {svc : DeliveryService} {s : DeliveryState} (hs : Reachable svc s) (hP : Unqueued s)
    {runs : List CallRun} (hsmooth : ∀ run ∈ runs, ∀ n, (run.env n).NoFailure) :
    Throughout (fun s run => run.after svc s) Unqueued s runs ↔
      EachStep (fun s run => run.after svc s) (fun s run => Strands svc s run.call →
        (run.call.program svc).run.exec answer run.env s = none) s runs := by
  refine throughout_iff ?_ (reachable_smooth hs hsmooth) hP
  exact fun s run h hP => unqueued_after_iff h.1 hP h.2

/-! ### A draft in the shadow, one that is queued and published, and one that is stranded -/

/-- The first compile of a twin whose shadow lasts. -/
def shadowRun : CallRun :=
  ⟨.startAfterCompileOpts { compiled "A" with twin := { teamTwin with shadowUntil := some 1 } },
    smoothly "a"⟩

theorem beforeDraft_unqueued : Unqueued beforeDraft := by
  intro k d hd
  cases hd

theorem smoothly_noFailure (call : String) (n : ℕ) : (smoothly call n).NoFailure :=
  smooth_noFailure _

theorem shadowRun_strands_not (s : DeliveryState)
    (hnew : s.store.getDraftByLedger "t" "L" = none) : ¬ Strands mockService s shadowRun.call := by
  intro h
  unfold Strands shadowRun at h
  dsimp only at h
  rw [show s.store.getDraftByLedger teamTwin.tenantId (compiled "A").snap.ledgerId = none from hnew] at h
  obtain ⟨hqueued, -⟩ := h
  have hstatus : createStatus mockService
      { compiled "A" with twin := { teamTwin with shadowUntil := some 1 } } = .shadow := by decide
  rw [hstatus] at hqueued
  cases hqueued

theorem approve_strands_not (s : DeliveryState) : ¬ Strands mockService s approve.call := id

/-- The first compile of a sure ledger, for a twin that publishes such ledgers by itself. -/
def highInput : StartInput :=
  { compiled "Shipped" with
    twin := { teamTwin with highAutoPublish := true }
    snap := { (compiled "Shipped").snap with ledgerId := "H", confidenceRollup := .high } }

def highRun : CallRun := ⟨.startAfterCompileOpts highInput, smoothly "h"⟩

/-- The same ledger without items, of which nobody is told. -/
def emptyRun : CallRun :=
  ⟨.startAfterCompileOpts
    { highInput with snap := { highInput.snap with ledger := mediumLedger.ledger }, forceNotify := false },
    smoothly "h"⟩

theorem highRun_strands_not : ¬ Strands mockService beforeDraft highRun.call := by
  intro h
  obtain ⟨-, hsends, -⟩ : createStatus mockService _ = .publishQueued ∧ createSends mockService _ = false ∧ _ := h
  have hsent : createSends mockService highInput = true := by decide +kernel
  exact Bool.noConfusion (hsends.symm.trans hsent)

theorem emptyRun_strands : Strands mockService beforeDraft emptyRun.call := by
  show createStatus mockService _ = .publishQueued ∧ createSends mockService _ = false ∧ _
  exact ⟨by decide +kernel, by decide +kernel, rfl⟩

/-- Of three drafts one is queued, and it is published before its compile ends. -/
theorem queue_drains_shadow :
    Throughout (fun s run => CallRun.after mockService run s)
      (fun s => Unqueued s ∧ ∀ k d, s.store.drafts.get k = some d → AtRest s d)
      beforeDraft [highRun, shadowRun, approve] ∧
    createStatus mockService highInput = .publishQueued ∧
    ((highRun.after mockService beforeDraft).store.drafts.get ("t", "dft_hi")).map (fun d => (d.ledgerId, d.status)) =
      some ("H", .published) := by
  refine ⟨queue_drains (.start beforeDraft rfl rfl) beforeDraft_unqueued ?_
    ⟨highRun_strands_not, shadowRun_strands_not _ ?_, approve_strands_not _, trivial⟩, by decide +kernel,
    by decide +kernel⟩
  · simp only [List.forall_mem_cons]
    exact ⟨smoothly_noFailure "h", smoothly_noFailure "a", smoothly_noFailure "c", List.forall_mem_nil _⟩
  · decide +kernel

/-- The empty ledger strands its draft. -/
theorem queue_drains_iff_empty :
    ¬ Throughout (fun s run => CallRun.after mockService run s) Unqueued beforeDraft [emptyRun] := by
  intro h
  have hends : ((emptyRun.call.program mockService).run.exec answer emptyRun.env beforeDraft).isSome = true := by
    decide +kernel
  have hsmooth : ∀ run ∈ [emptyRun], ∀ n, (run.env n).NoFailure := by
    simp only [List.forall_mem_singleton]
    exact smoothly_noFailure "h"
  have hnone := ((queue_drains_iff (.start beforeDraft rfl rfl) beforeDraft_unqueued hsmooth).mp h).1 emptyRun_strands
  rw [hnone] at hends
  cases hends

/-- A draft in the shadow is not decided, and takes neither a veto nor an edit nor an approval. -/
theorem shadow_waits_for_nobody :
    (∀ n, (shadowRun.env n).NoFailure) ∧
    ∃ d, (shadowRun.after mockService beforeDraft).store.drafts.get ("t", "dft_ai") = some d ∧
      d.status.terminal = false ∧
      ¬ PublishedLedger (shadowRun.after mockService beforeDraft) d ∧
      ¬ d.status.Decidable := by
  have hdraft : ((shadowRun.after mockService beforeDraft).store.drafts.get
      ("t", "dft_ai")).map (fun d => (d.status, d.tenantId, d.ledgerId)) =
        some (.shadow, "t", "L") := by
    decide +kernel
  have hnone : ((shadowRun.after mockService beforeDraft).store.getPublishByLedger "t" "L").isSome =
      false := by
    decide +kernel
  obtain ⟨d, hd, heq⟩ := Option.map_eq_some_iff.mp hdraft
  obtain ⟨hshadow, htenant, hledger⟩ : d.status = .shadow ∧ d.tenantId = "t" ∧ d.ledgerId = "L" := by
    simpa using heq
  refine ⟨smoothly_noFailure "a", d, hd, by rw [hshadow]; rfl, ?_, ?_⟩
  · unfold PublishedLedger
    rw [htenant, hledger, hnone]
    exact Bool.false_ne_true
  · rw [hshadow]
    intro h
    have hnone := h .medium false
    simp [applyDeliveryEvent] at hnone

end AiManager.Twins
