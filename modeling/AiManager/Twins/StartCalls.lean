import AiManager.Twins.Delivery

/-! # The calls of a start

What `startAfterCompileOpts` asks of its services, whatever they answer: it reads no ledger and no draft by its
id, and the only twin it writes is the one it was given, with new bookkeeping. -/

namespace AiManager.Twins

open Lib

/-- The calls of a start for `twin`. -/
def DeliveryOp.OfStart (twin : Twin) : DeliveryOp → Prop
  | .getLedger _ _ | .getDraft _ _ => False
  | .upsertTwin t => ∃ state now, t = writeNotifyState twin state now
  | _ => True

section Programs
variable {svc : DeliveryService} {x : StartInput} {twin : Twin} {draft : DraftDelivery}

theorem finishDraft_calls (status : DraftStatus) :
    (finishDraft draft status).run.CallsOnly (DeliveryOp.OfStart twin) :=
  Prog.CallsOnly.exceptT_bind (callsOnly_ask trivial) fun _ =>
    Prog.CallsOnly.exceptT_bind (callsOnly_ask trivial) fun _ => trivial

theorem publishFailed_calls (channel body : String) (e : TwinError) :
    (publishFailed svc twin draft channel body e).run.CallsOnly (DeliveryOp.OfStart twin) := by
  unfold publishFailed
  dsimp only
  split_ifs
  · refine Prog.CallsOnly.exceptT_bind (callsOnly_attempt (resolveChatUserId_calls (fun _ _ => trivial) _ _)) fun _ => ?_
    refine Prog.CallsOnly.exceptT_bind (callsOnly_attempt (callsOnly_ask trivial)) fun dm => ?_
    cases dm with
    | ok dm =>
      refine Prog.CallsOnly.exceptT_bind (callsOnly_ask trivial) fun _ => ?_
      refine Prog.CallsOnly.exceptT_bind (callsOnly_ask trivial) fun _ => ?_
      refine Prog.CallsOnly.exceptT_bind (callsOnly_ask trivial) fun _ => ?_
      exact Prog.CallsOnly.exceptT_bind (finishDraft_calls _) fun _ => trivial
    | error e2 => exact Prog.CallsOnly.exceptT_bind (finishDraft_calls _) fun _ => trivial
  · exact Prog.CallsOnly.exceptT_bind (finishDraft_calls _) fun _ => trivial

theorem publishQueued_calls :
    (publishQueued svc twin draft).run.CallsOnly (DeliveryOp.OfStart twin) := by
  unfold publishQueued
  refine Prog.CallsOnly.exceptT_bind (callsOnly_ask trivial) fun existing => ?_
  cases existing with
  | some existing =>
    refine Prog.CallsOnly.exceptT_bind (callsOnly_ask trivial) fun _ => ?_
    exact Prog.CallsOnly.exceptT_bind (callsOnly_attempt (callsOnly_ask trivial)) fun _ => trivial
  | none =>
    refine Prog.CallsOnly.exceptT_bind (callsOnly_attempt (callsOnly_ask trivial)) fun post => ?_
    cases post with
    | error e => exact publishFailed_calls _ _ _
    | ok post =>
      refine Prog.CallsOnly.exceptT_bind (callsOnly_ask trivial) fun _ => ?_
      refine Prog.CallsOnly.exceptT_bind (callsOnly_ask trivial) fun _ => ?_
      refine Prog.CallsOnly.exceptT_bind (callsOnly_ask trivial) fun inserted => ?_
      cases inserted with
      | true => exact Prog.CallsOnly.exceptT_bind (finishDraft_calls _) fun _ => trivial
      | false =>
        refine Prog.CallsOnly.exceptT_bind (callsOnly_ask trivial) fun _ => ?_
        exact Prog.CallsOnly.exceptT_bind (finishDraft_calls _) fun _ => trivial

theorem tryPublishChannel_calls :
    (tryPublishChannel svc twin draft).run.CallsOnly (DeliveryOp.OfStart twin) := by
  unfold tryPublishChannel
  split_ifs
  · trivial
  · trivial
  · exact Prog.CallsOnly.exceptT_bind (callsOnly_ask trivial) fun _ => trivial
  · trivial
  · exact publishQueued_calls

theorem rememberNotify_calls (state : NotifyState) :
    (rememberNotify twin state).run.CallsOnly (DeliveryOp.OfStart twin) :=
  Prog.CallsOnly.exceptT_bind (callsOnly_ask trivial) fun now =>
    Prog.CallsOnly.exceptT_bind (callsOnly_attempt (callsOnly_ask ⟨state, now, rfl⟩)) fun _ => trivial

theorem rememberUnchanged_calls :
    (rememberUnchanged svc x).run.CallsOnly (DeliveryOp.OfStart x.twin) := by
  unfold rememberUnchanged
  split_ifs
  · exact rememberNotify_calls _
  · trivial

theorem sendDraft_calls : (sendDraft svc x draft).run.CallsOnly (DeliveryOp.OfStart x.twin) := by
  unfold sendDraft
  refine Prog.CallsOnly.exceptT_bind (resolveChatUserId_calls (fun _ _ => trivial) _ _) fun _ => ?_
  refine Prog.CallsOnly.exceptT_bind (callsOnly_attempt (callsOnly_ask trivial)) fun dm => ?_
  cases dm with
  | ok dm => exact Prog.CallsOnly.exceptT_bind (rememberNotify_calls _) fun _ => trivial
  | error e => trivial

theorem restartDraft_calls : (restartDraft svc x draft).run.CallsOnly (DeliveryOp.OfStart x.twin) := by
  unfold restartDraft
  split_ifs
  · unfold upgradeDraft
    refine Prog.CallsOnly.exceptT_bind ?_ fun _ => ?_
    · unfold upgradeNotify
      split_ifs
      · exact sendDraft_calls
      · exact Prog.CallsOnly.exceptT_bind rememberUnchanged_calls fun _ => trivial
    · exact Prog.CallsOnly.exceptT_bind (callsOnly_ask trivial) fun _ => trivial
  · exact Prog.CallsOnly.exceptT_bind (callsOnly_ask trivial) fun _ => trivial
  · trivial

theorem autoPublish_calls : (autoPublish svc x draft).run.CallsOnly (DeliveryOp.OfStart x.twin) := by
  unfold autoPublish
  refine Prog.CallsOnly.exceptT_bind (callsOnly_attempt ?_) fun dm => ?_
  · exact Prog.CallsOnly.exceptT_bind (resolveChatUserId_calls (fun _ _ => trivial) _ _) fun _ => callsOnly_ask trivial
  · refine Prog.CallsOnly.exceptT_bind (callsOnly_ask trivial) fun _ => ?_
    refine Prog.CallsOnly.exceptT_bind tryPublishChannel_calls fun _ => ?_
    exact Prog.CallsOnly.exceptT_bind (rememberNotify_calls _) fun _ => trivial

theorem createDraft_calls : (createDraft svc x).run.CallsOnly (DeliveryOp.OfStart x.twin) := by
  unfold createDraft
  refine Prog.CallsOnly.exceptT_bind (callsOnly_ask trivial) fun uuid => ?_
  dsimp only
  split_ifs
  · refine Prog.CallsOnly.exceptT_bind (callsOnly_ask trivial) fun _ => ?_
    exact Prog.CallsOnly.exceptT_bind rememberUnchanged_calls fun _ => trivial
  · exact autoPublish_calls
  · refine Prog.CallsOnly.exceptT_bind ?_ fun _ => ?_
    · unfold createNotify
      split_ifs
      · exact sendDraft_calls
      · trivial
    · exact Prog.CallsOnly.exceptT_bind (callsOnly_ask trivial) fun _ => trivial

theorem startAfterCompileOpts_calls :
    (startAfterCompileOpts svc x).run.CallsOnly (DeliveryOp.OfStart x.twin) :=
  Prog.CallsOnly.exceptT_bind (callsOnly_ask trivial) fun existing => match existing with
    | some _ => restartDraft_calls
    | none => createDraft_calls

end Programs

end AiManager.Twins
