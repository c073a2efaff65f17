import AiManager.Twins.Consent

/-! # Identifiers of drafts

Only a first compile files a draft, and under the identifier that was handed out to it last. So an
identifier that is still to be handed out names no stored draft, in every state that the service can
come to (`fresh_of_reachable`). -/

namespace AiManager.Twins

open Lib

/-- Calls that neither file a draft nor take an identifier nor record a publish. -/
def DeliveryOp.Unfiling : DeliveryOp → Prop
  | .putDraft _ | .newUuid | .putPublishIfAbsent _ => False
  | _ => True

/-- Calls that file no draft. -/
def DeliveryOp.NoPut : DeliveryOp → Prop
  | .putDraft _ => False
  | _ => True

/-- Calls that neither file nor send a draft. -/
def DeliveryOp.Publishing : DeliveryOp → Prop
  | .putDraft _ | .postDraftDm _ _ _ _ => False
  | _ => True

/-- The same, off the channel. -/
def DeliveryOp.OffChannel : DeliveryOp → Prop
  | .putDraft _ | .postDraftDm _ _ _ _ | .postChannel _ _ => False
  | _ => True

theorem DeliveryOp.OffChannel.publishing {op : DeliveryOp} (h : op.OffChannel) : op.Publishing := by
  cases op <;> trivial

theorem DeliveryOp.Publishing.noPut {op : DeliveryOp} (h : op.Publishing) : op.NoPut := by
  cases op <;> trivial

theorem DeliveryOp.Unfiling.noPut {op : DeliveryOp} (h : op.Unfiling) : op.NoPut := by
  cases op <;> trivial

theorem DeliveryOp.Aside.offChannel {op : DeliveryOp} (h : op.Aside) : op.OffChannel := by
  cases op <;> trivial

theorem DeliveryOp.Aside.unfiling {op : DeliveryOp} (h : op.Aside) : op.Unfiling := by
  cases op <;> trivial

/-! ## Which programs file drafts -/

section Programs
variable {svc : DeliveryService} {twin : Twin} {draft : DraftDelivery} {x : StartInput}
  {tenantId draftId : String} {α β : Type} {K : DeliveryOp → Prop}

theorem ask_bind_calls {op : DeliveryOp} {f : op.Val → DeliveryM β} (hop : K op)
    (hf : ∀ a, (f a).run.CallsOnly K) : (ask op >>= f).run.CallsOnly K :=
  Prog.CallsOnly.exceptT_bind (callsOnly_ask hop) hf

theorem attempt_bind_calls {p : DeliveryM α} {f : TwinResult α → DeliveryM β}
    (hp : p.run.CallsOnly K) (hf : ∀ r, (f r).run.CallsOnly K) :
    (attempt p >>= f).run.CallsOnly K :=
  Prog.CallsOnly.exceptT_bind (callsOnly_attempt hp) hf

theorem loadDraft_bind_calls {f : DraftDelivery × LedgerSnapshot → DeliveryM β}
    (hf : ∀ y, (f y).run.CallsOnly DeliveryOp.NoPut) :
    (loadDraft tenantId draftId >>= f).run.CallsOnly DeliveryOp.NoPut := by
  refine Prog.CallsOnly.exceptT_bind (ask_bind_calls trivial fun found => ?_) hf
  cases found with
  | none => trivial
  | some draft =>
    refine ask_bind_calls trivial fun found => ?_
    cases found <;> trivial

theorem finishDraft_offChannel {st : DraftStatus} :
    (finishDraft draft st).run.CallsOnly DeliveryOp.OffChannel :=
  ask_bind_calls trivial fun _ => ask_bind_calls trivial fun _ => trivial

theorem publishFailed_offChannel {channel body : String} {e : TwinError} :
    (publishFailed svc twin draft channel body e).run.CallsOnly DeliveryOp.OffChannel := by
  unfold publishFailed
  dsimp only
  split_ifs
  · refine attempt_bind_calls ((resolveChatUserId_aside _ _).mono fun op h => h.offChannel)
      fun user => attempt_bind_calls (callsOnly_ask trivial) fun dm => ?_
    cases dm with
    | ok dm =>
      exact ask_bind_calls trivial fun _ => ask_bind_calls trivial fun _ =>
        ask_bind_calls trivial fun _ =>
          Prog.CallsOnly.exceptT_bind finishDraft_offChannel fun _ => trivial
    | error e => exact Prog.CallsOnly.exceptT_bind finishDraft_offChannel fun _ => trivial
  · exact Prog.CallsOnly.exceptT_bind finishDraft_offChannel fun _ => trivial

theorem publishQueued_publishing :
    (publishQueued svc twin draft).run.CallsOnly DeliveryOp.Publishing := by
  refine ask_bind_calls trivial fun found => ?_
  cases found with
  | some existing =>
    exact ask_bind_calls trivial fun _ =>
      attempt_bind_calls (callsOnly_ask trivial) fun _ => trivial
  | none =>
    refine attempt_bind_calls (callsOnly_ask trivial) fun post => ?_
    cases post with
    | error e => exact publishFailed_offChannel.mono fun op h => h.publishing
    | ok post =>
      have hfinish : ∀ d, (finishDraft d .published).run.CallsOnly DeliveryOp.Publishing :=
        fun _ => finishDraft_offChannel.mono fun _ h => h.publishing
      refine ask_bind_calls trivial fun uuid => ask_bind_calls trivial fun now =>
        ask_bind_calls trivial fun inserted => ?_
      cases inserted with
      | true => exact Prog.CallsOnly.exceptT_bind (hfinish _) fun _ => trivial
      | false =>
        exact ask_bind_calls trivial fun _ =>
          Prog.CallsOnly.exceptT_bind (hfinish _) fun _ => trivial

theorem tryPublishChannel_publishing :
    (tryPublishChannel svc twin draft).run.CallsOnly DeliveryOp.Publishing := by
  unfold tryPublishChannel
  split_ifs
  · trivial
  · trivial
  · exact ask_bind_calls trivial fun _ => trivial
  · trivial
  · exact publishQueued_publishing

theorem tryPublishChannel_noPut :
    (tryPublishChannel svc twin draft).run.CallsOnly DeliveryOp.NoPut :=
  tryPublishChannel_publishing.mono fun _ h => h.noPut

theorem vetoDraft_noPut : (vetoDraft tenantId draftId).run.CallsOnly DeliveryOp.NoPut := by
  refine loadDraft_bind_calls fun y => ?_
  dsimp only
  split
  · trivial
  · exact ask_bind_calls trivial fun _ => ask_bind_calls trivial fun _ => trivial

theorem editDraft_noPut {text : String} :
    (editDraft tenantId draftId text).run.CallsOnly DeliveryOp.NoPut := by
  refine loadDraft_bind_calls fun y => ?_
  dsimp only
  split
  · trivial
  · exact ask_bind_calls trivial fun _ => ask_bind_calls trivial fun _ => trivial

theorem silenceTimeout_noPut :
    (silenceTimeout svc twin tenantId draftId).run.CallsOnly DeliveryOp.NoPut := by
  refine loadDraft_bind_calls fun y => ?_
  dsimp only
  split_ifs
  · trivial
  · split
    · trivial
    · refine ask_bind_calls trivial fun now => ask_bind_calls trivial fun _ => ?_
      split_ifs
      · exact tryPublishChannel_noPut
      · trivial

theorem explicitPublish_noPut :
    (explicitPublish svc twin tenantId draftId).run.CallsOnly DeliveryOp.NoPut := by
  refine loadDraft_bind_calls fun y => ?_
  dsimp only
  split_ifs
  · exact ask_bind_calls trivial fun _ => trivial
  · trivial
  · split
    · trivial
    · exact ask_bind_calls trivial fun now => ask_bind_calls trivial fun _ =>
        tryPublishChannel_noPut
  · exact tryPublishChannel_noPut

theorem sendDraft_unfiling : (sendDraft svc x draft).run.CallsOnly DeliveryOp.Unfiling := by
  refine Prog.CallsOnly.exceptT_bind ((resolveChatUserId_aside _ _).mono fun op h => h.unfiling)
    fun user => attempt_bind_calls (callsOnly_ask trivial) fun dm => ?_
  cases dm with
  | ok dm =>
    exact Prog.CallsOnly.exceptT_bind ((rememberNotify_aside _ _).mono fun op h => h.unfiling)
      fun _ => trivial
  | error e => trivial

theorem restartDraft_unfiling : (restartDraft svc x draft).run.CallsOnly DeliveryOp.Unfiling := by
  unfold restartDraft
  split_ifs
  · refine Prog.CallsOnly.exceptT_bind ?_ fun y => ask_bind_calls trivial fun _ => trivial
    unfold upgradeNotify
    split_ifs
    · exact sendDraft_unfiling
    · exact Prog.CallsOnly.exceptT_bind ((rememberUnchanged_aside _ _).mono fun op h => h.unfiling)
        fun _ => trivial
  · exact ask_bind_calls trivial fun _ => trivial
  · trivial

theorem createDraft_noRecord (h : autoPublishes svc x = false) :
    (createDraft svc x).run.CallsOnly fun op => ∀ rec, op ≠ .putPublishIfAbsent rec := by
  have hunfiling : ∀ op : DeliveryOp, op.Unfiling → ∀ rec, op ≠ .putPublishIfAbsent rec := by
    intro op hop rec heq
    rw [heq] at hop
    exact hop
  unfold createDraft
  refine ask_bind_calls nofun fun uuid => ?_
  dsimp only
  split_ifs with hquiet hauto
  · exact ask_bind_calls nofun fun _ => Prog.CallsOnly.exceptT_bind
      ((rememberUnchanged_aside _ _).mono fun op hop => hunfiling op hop.unfiling) fun _ => trivial
  · rw [h] at hauto
    cases hauto
  · refine Prog.CallsOnly.exceptT_bind ?_ fun y => ask_bind_calls nofun fun _ => trivial
    unfold createNotify
    split_ifs
    · exact sendDraft_unfiling.mono hunfiling
    · trivial

/-! ## First compiles -/

/-- Watches the identifier that a program was handed last; only a draft of that name is filed. -/
def idMonitor : Monitor DeliveryOp DeliveryOp.Res (Option String) where
  next q op r :=
    match op, r with
    | .newUuid, .ok uuid => some uuid
    | _, _ => q
  allows q
    | .putDraft draft => ∃ uuid, q = some uuid ∧ draft.draftId = "dft_" ++ uuid
    | _ => True
  replies _ _ := True

theorem noPut_meets {p : DeliveryM α} (h : p.run.CallsOnly DeliveryOp.NoPut) (q : Option String) :
    p.run.Meets idMonitor (fun _ _ => True) q := by
  refine h.meets_of_allows (fun q op hop => ?_) q
  cases op <;> trivial

theorem unfiling_meets {p : DeliveryM α} (h : p.run.CallsOnly DeliveryOp.Unfiling)
    (q : Option String) : p.run.Meets idMonitor (fun _ q' => q' = q) q := by
  refine h.meets (fun op hop => ?_) fun op r hop => ?_
  · cases op <;> trivial
  · cases op <;> first | rfl | cases hop

theorem put_bind_meets {uuid : String} {f : Unit → DeliveryM β}
    (hid : draft.draftId = "dft_" ++ uuid) (hf : (f ()).run.CallsOnly DeliveryOp.NoPut) :
    (ask (.putDraft draft) >>= f).run.Meets idMonitor (fun _ _ => True) (some uuid) :=
  ask_bind_meets ⟨uuid, rfl, hid⟩ (fun _ _ => noPut_meets hf _) fun _ _ => trivial

theorem sendDraft_meets {uuid : String} (hid : draft.draftId = "dft_" ++ uuid) :
    (sendDraft svc x draft).run.Meets idMonitor
      (fun r q => q = some uuid ∧ ∀ y, r = .ok y → y.1.draftId = "dft_" ++ uuid) (some uuid) := by
  unfold sendDraft
  refine bind_meets (unfiling_meets ((resolveChatUserId_aside _ _).mono fun op h => h.unfiling) _)
    ?_ ?_
  · intro user q hq
    obtain rfl := hq
    refine attempt_bind_meets (R := fun _ q => q = some uuid) (ask_meets trivial fun r _ => rfl) ?_
    intro dm q hq
    obtain rfl := hq
    cases dm with
    | ok dm =>
      refine bind_meets (unfiling_meets ((rememberNotify_aside _ _).mono fun op h => h.unfiling) _)
        ?_ ?_
      · intro _ q hq
        refine ⟨hq, fun y hy => ?_⟩
        obtain rfl := Except.ok.inj hy
        exact hid
      · exact fun e q hq => ⟨hq, fun y hy => by cases hy⟩
    | error e =>
      refine ⟨rfl, fun y hy => ?_⟩
      obtain rfl := Except.ok.inj hy
      exact hid
  · exact fun e q hq => ⟨hq, fun y hy => by cases hy⟩

theorem autoPublish_meets {uuid : String} (hid : draft.draftId = "dft_" ++ uuid) :
    (autoPublish svc x draft).run.Meets idMonitor (fun _ _ => True) (some uuid) := by
  have hrest : ∀ d : DraftDelivery, d.draftId = draft.draftId →
      (publishStored svc x d).run.Meets idMonitor (fun _ _ => True) (some uuid) := by
    intro d hd
    refine put_bind_meets (hd.trans hid) ?_
    exact Prog.CallsOnly.exceptT_bind tryPublishChannel_noPut fun y =>
      Prog.CallsOnly.exceptT_bind ((rememberNotify_aside _ _).mono fun op h => h.unfiling.noPut)
        fun _ => trivial
  have hmessage : ∀ text, (do
      let chatUser ← resolveChatUserId x.twin svc.adapterKind
      ask (.postDm chatUser text) : DeliveryM DeliveryPostResult).run.CallsOnly
        DeliveryOp.Unfiling := fun text =>
    Prog.CallsOnly.exceptT_bind ((resolveChatUserId_aside _ _).mono fun op h => h.unfiling)
      fun user => callsOnly_ask trivial
  unfold autoPublish
  refine attempt_bind_meets (unfiling_meets (hmessage _) _) fun dm q hq => ?_
  obtain rfl := hq
  cases dm with
  | error e => exact hrest draft rfl
  | ok dm => exact hrest _ rfl

theorem createDraft_meets (q : Option String) :
    (createDraft svc x).run.Meets idMonitor (fun _ _ => True) q := by
  unfold createDraft
  refine ask_bind_meets trivial (fun uuid _ => ?_) fun _ _ => trivial
  show Prog.Meets idMonitor _ _ (some uuid)
  dsimp only
  split_ifs
  · refine put_bind_meets rfl ?_
    exact Prog.CallsOnly.exceptT_bind
      ((rememberUnchanged_aside _ _).mono fun op h => h.unfiling.noPut) fun _ => trivial
  · exact autoPublish_meets rfl
  · refine bind_meets (R := fun r q => q = some uuid ∧
      ∀ y, r = .ok y → y.1.draftId = "dft_" ++ uuid) ?_ ?_ fun _ _ _ => trivial
    · unfold createNotify
      split_ifs
      · exact sendDraft_meets rfl
      · refine ⟨rfl, fun y hy => ?_⟩
        obtain rfl := Except.ok.inj hy
        rfl
    · intro y q hq
      obtain ⟨rfl, hy⟩ := hq
      exact put_bind_meets (hy y rfl) trivial

theorem program_ids (call : DeliveryCall) (q : Option String) :
    (call.program svc).run.Meets idMonitor (fun _ _ => True) q := by
  have hdrop : ∀ {α : Type} {p : DeliveryM α}, p.run.Meets idMonitor (fun _ _ => True) q →
      (p >>= fun _ => (pure () : DeliveryM Unit)).run.Meets idMonitor (fun _ _ => True) q :=
    fun h => bind_meets h (fun _ _ _ => trivial) fun _ _ _ => trivial
  cases call with
  | explicitPublish twin t d => exact hdrop (noPut_meets explicitPublish_noPut q)
  | silenceTimeout twin t d => exact hdrop (noPut_meets silenceTimeout_noPut q)
  | vetoDraft t d => exact hdrop (noPut_meets vetoDraft_noPut q)
  | editDraft t d text => exact hdrop (noPut_meets editDraft_noPut q)
  | startAfterCompileOpts x =>
    refine hdrop (ask_bind_meets trivial (fun found _ => ?_) fun _ _ => trivial)
    cases found with
    | none => exact createDraft_meets _
    | some existing =>
      exact noPut_meets (restartDraft_unfiling.mono fun op h => h.noPut) _

end Programs

/-! ## Reachable states -/

/-- An identifier that is still to be handed out names no stored draft. -/
def FreshIds (s : DeliveryState) : Prop :=
  ∀ tenantId uuid, uuid ∉ s.issued → s.store.drafts.get (tenantId, "dft_" ++ uuid) = none

/-- States that the service can come to: from a store without drafts, by calls in any interleaving
and by writes of others, which touch no draft. -/
inductive Reachable (svc : DeliveryService) : DeliveryState → Prop
  | start (s : DeliveryState) : s.store.drafts = ∅ → s.store.draftByLedger = ∅ → Reachable svc s
  | other (s s' : DeliveryState) : Reachable svc s → s'.store.drafts = s.store.drafts →
      s'.store.draftByLedger = s.store.draftByLedger → s.issued ⊆ s'.issued → Reachable svc s'
  | calls {ι : Type} [DecidableEq ι] (s : DeliveryState) (calls : ι → DeliveryCall)
      (sched : List (ι × Choice)) : Reachable svc s →
      Reachable svc ((DeliveryPool.start svc calls s).run answer sched).shared

/-- What holds in a pool: identifiers in hand were handed out. -/
structure IdsHeld {ι : Type} [DecidableEq ι] (pool : DeliveryPool ι) : Prop where
  fresh : FreshIds pool.shared
  held : ∀ i uuid, watch idMonitor.next none i pool.trace = some uuid → uuid ∈ pool.shared.issued

theorem draftId_inj {u v : String} (h : "dft_" ++ u = "dft_" ++ v) : u = v := by
  simpa using h

theorem freshIds_answer {c : Choice} {op : DeliveryOp} {r : op.Res} {s s' : DeliveryState}
    (hs : answer c op s = some (r, s')) (hfresh : FreshIds s)
    (hput : ∀ draft, op = .putDraft draft → ∃ u ∈ s.issued, draft.draftId = "dft_" ++ u) :
    FreshIds s' := by
  intro tenantId uuid huuid
  have hold : uuid ∉ s.issued := fun h => huuid (answer_issued hs h)
  cases hget : s'.store.drafts.get (tenantId, "dft_" ++ uuid) with
  | none => rfl
  | some d =>
    have hkey := Table.key_of_get hget
    have hid : d.draftId = "dft_" ++ uuid := (Prod.mk.inj hkey).2
    rcases answer_drafts hs hget with rfl | rfl | hstored
    · obtain ⟨u, hu, hd⟩ := hput d rfl
      obtain rfl := draftId_inj (hid.symm.trans hd)
      exact absurd hu hold
    · obtain ⟨-, rfl⟩ | ⟨-, hhas, -⟩ := answer_updateDraft hs
      · rw [hfresh tenantId uuid hold] at hget
        cases hget
      · obtain ⟨d', hd'⟩ := Table.has_iff.mp hhas
        rw [hkey, hfresh tenantId uuid hold] at hd'
        cases hd'
    · rw [hfresh tenantId uuid hold] at hstored
      cases hstored

theorem idsHeld_run {ι : Type} [DecidableEq ι] {svc : DeliveryService} {s : DeliveryState}
    (h : FreshIds s) (calls : ι → DeliveryCall) (sched : List (ι × Choice)) :
    IdsHeld ((DeliveryPool.start svc calls s).run answer sched) := by
  have htracks : (DeliveryPool.start svc calls s).Tracks idMonitor (fun _ _ _ => True)
      fun _ => none := fun i => program_ids (calls i) none
  have hstart : IdsHeld (DeliveryPool.start svc calls s) := ⟨h, fun i u hu => by cases hu⟩
  refine (Pool.run_induction (I := IdsHeld) (C := fun _ _ => True) (P := fun _ => True)
    (fun _ _ _ _ _ _ _ _ => trivial) ?_ htracks hstart sched (fun _ _ => trivial)
    (.of_forall (fun _ _ => trivial) _ _)).2
  · intro pool i c op k r s' _ hI _ _ _ hs _ hallows _
    refine ⟨freshIds_answer hs hI.fresh fun draft hop => ?_, fun j u hu => ?_⟩
    · subst hop
      obtain ⟨u, hu, hid⟩ := hallows
      exact ⟨u, hI.held i u hu, hid⟩
    · rw [Pool.after_shared]
      by_cases hj : j = i
      · subst hj
        rw [Pool.after_trace, watch_cons_self] at hu
        by_cases hop : op = .newUuid
        · subst hop
          obtain ⟨-, rfl, rfl⟩ := newUuid_eq hs
          obtain rfl := Option.some.inj hu
          exact List.mem_cons_self
        · have hsame : idMonitor.next (watch idMonitor.next none j pool.trace) op r =
              watch idMonitor.next none j pool.trace := by
            cases op <;> first | rfl | exact absurd rfl hop
          rw [hsame] at hu
          exact answer_issued hs (hI.held j u hu)
      · rw [Pool.after_trace, watch_cons_ne _ _ (Ne.symm hj)] at hu
        exact answer_issued hs (hI.held j u hu)

/-- **Identifiers are fresh** in every state that the service can come to. -/
theorem fresh_of_reachable {svc : DeliveryService} {s : DeliveryState} (h : Reachable svc s) :
    FreshIds s := by
  induction h with
  | start s hnone _ =>
    intro tenantId uuid _
    rw [hnone, Table.get_empty]
  | other s s' _ hdrafts _ hissued ih =>
    intro tenantId uuid huuid
    rw [hdrafts]
    exact ih tenantId uuid fun hu => huuid (hissued hu)
  | calls s calls sched _ ih => exact (idsHeld_run ih calls sched).fresh

/-- A ledger is filed with a draft that is stored. -/
def DraftsIndexed (s : DeliveryState) : Prop :=
  ∀ k id, s.store.draftByLedger.get k = some id → s.store.drafts.has (k.1, id) = true

theorem has_put_draft {t : Table DraftDelivery.key} {d : DraftDelivery} {k : String × String}
    (h : t.has k = true) : (t.put d).has k = true := by
  obtain ⟨d', hd'⟩ := Table.has_iff.mp h
  refine Table.has_iff.mpr ?_
  rw [Table.get_put]
  split_ifs
  · exact ⟨d, rfl⟩
  · exact ⟨d', hd'⟩

/-- Where no draft is found by the index, the index has none. -/
theorem DraftsIndexed.index_none {s : DeliveryState} (h : DraftsIndexed s) {tenantId ledgerId : String}
    (hnone : s.store.getDraftByLedger tenantId ledgerId = none) :
    s.store.draftByLedger.get (tenantId, ledgerId) = none := by
  cases hindex : s.store.draftByLedger.get (tenantId, ledgerId) with
  | none => rfl
  | some id =>
    obtain ⟨d, hd⟩ := Table.has_iff.mp (h _ _ hindex)
    simp [InMemoryTwinStore.getDraftByLedger, InMemoryTwinStore.getDraft, hindex, hd] at hnone

theorem draftsIndexed_answer {c : Choice} {op : DeliveryOp} {r : op.Res} {s s' : DeliveryState}
    (hs : answer c op s = some (r, s')) (hI : DraftsIndexed s) : DraftsIndexed s' := by
  intro k id hid
  rcases answer_store hs with heq | ⟨d, rfl, -⟩ | ⟨d, rfl, -⟩ | ⟨rec, -, heq⟩ | ⟨t, -, heq⟩
  · rw [heq] at hid ⊢
    exact hI k id hid
  · obtain ⟨-, rfl⟩ | ⟨-, -, hdrafts, hindex, -⟩ := answer_putDraft hs
    · exact hI k id hid
    · rw [hindex, KMap.get_put] at hid
      rw [hdrafts]
      split_ifs at hid with hk
      · obtain rfl := Option.some.inj hid
        have hkey : d.key = (k.1, d.draftId) := by rw [hk]; rfl
        rw [← hkey]
        exact Table.has_iff.mpr ⟨d, Table.get_put_self _ _⟩
      · exact has_put_draft (hI k id hid)
  · obtain ⟨-, rfl⟩ | ⟨-, -, hdrafts, hindex, -⟩ := answer_updateDraft hs
    · exact hI k id hid
    · rw [hindex] at hid
      rw [hdrafts]
      exact has_put_draft (hI k id hid)
  · rw [heq] at hid ⊢
    rw [InMemoryTwinStore.putPublishIfAbsent_draftByLedger] at hid
    rw [InMemoryTwinStore.putPublishIfAbsent_drafts]
    exact hI k id hid
  · rw [heq] at hid ⊢
    exact hI k id hid

theorem indexed_of_reachable {svc : DeliveryService} {s : DeliveryState} (h : Reachable svc s) :
    DraftsIndexed s := by
  induction h with
  | start s _ hnone =>
    intro k id hid
    rw [hnone, KMap.get_empty] at hid
    cases hid
  | other s s' _ hdrafts hindex _ ih =>
    intro k id hid
    rw [hdrafts]
    exact ih k id (hindex ▸ hid)
  | calls s calls sched _ ih =>
    refine Pool.run_shared (I := DraftsIndexed) ?_ ?_ sched
    · exact fun _ _ _ _ _ => draftsIndexed_answer
    · exact ih

/-- Calls one after the other are a way through the reachable states. -/
theorem Reachable.after {svc : DeliveryService} {s : DeliveryState} (hs : Reachable svc s)
    (run : CallRun) : Reachable svc (run.after svc s) := by
  unfold CallRun.after
  split
  · next r s' he =>
    obtain ⟨sched, hsched⟩ := Pool.run_of_exec he
      (rfl : (DeliveryPool.start svc (fun _ : Unit => run.call) s).threads () = _) rfl
    rw [← hsched]
    exact .calls s _ sched hs
  · exact hs

end AiManager.Twins
