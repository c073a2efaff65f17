import AiManager.Platform.ListUpdates
import AiManager.Platform.SlackEvents

/-! # What a free text leaves

What a message does to the lists of its tenant while the store does not fail: it closes commitments or makes
one (`CommitmentStep`), it is kept as a claim or not (`ClaimStep`), and nothing else is written. -/

namespace AiManager.Platform

open Lib Twins

-- a text that is not given has no length to compute
attribute [local irreducible] Text.trim

/-- The store does not fail. -/
def Sound (c : ListChoice) : Prop := c.fault = none

/-- Only lists are written. -/
def OnlyLists (s s' : DeliveryState) : Prop := s'.store = { s.store with tenantKv := s'.store.tenantKv }

theorem OnlyLists.refl (s : DeliveryState) : OnlyLists s s := rfl

theorem OnlyLists.of_store {s s' : DeliveryState} (h : s'.store = s.store) : OnlyLists s s' := by
  unfold OnlyLists
  rw [h]

theorem OnlyLists.trans {s₁ s₂ s₃ : DeliveryState} (h : OnlyLists s₁ s₂) (h' : OnlyLists s₂ s₃) :
    OnlyLists s₁ s₃ := by
  unfold OnlyLists at *
  rw [h', h]

/-! ## People -/

def mapsOf (st : InMemoryTwinStore) (tenantId : String) : List SlackUserMap :=
  st.slackMap.values.filter fun m => m.tenantId = tenantId

def directoryOf (st : InMemoryTwinStore) (tenantId : String) : List PersonDirEntry :=
  personDirectory (st.listTwins tenantId) (mapsOf st tenantId)

section Rules
variable {ok : ListChoice → Prop} {s : DeliveryState} {β : Type}
  {post : Except String β → DeliveryState → Prop}

theorem callList_bind {op : ListOp} {f : op.Res → ListM β}
    (h : ∀ c r s', ok c → listAnswer c op s = some (r, s') → (f r).run.Ensures listAnswer ok post s') :
    (callList op >>= f).run.Ensures listAnswer ok post s :=
  Prog.ensures_exceptT_bind.mpr fun c r s' hc hs => h c r s' hc hs

/-- A fresh value leaves the store. -/
theorem callNow_bind {f : DateTime → ListM β} (h : ∀ now, (f now).run.Ensures listAnswer ok post s) :
    (callList .utcNow >>= f).run.Ensures listAnswer ok post s := by
  refine callList_bind fun c r s' _ hs => ?_
  cases hs
  exact h c.now

theorem callUuid_bind {f : String → ListM β}
    (h : ∀ uuid s', s'.store = s.store → (f uuid).run.Ensures listAnswer ok post s') :
    (callList .newUuid >>= f).run.Ensures listAnswer ok post s := by
  refine callList_bind fun c r s' _ hs => h r s' ?_
  exact store_of_not_put (i := ()) hs rfl

theorem callGet_bind {tenantId key : String} {f : Option Json → ListM β}
    (h : (f (s.store.getTenantKv tenantId key)).run.Ensures listAnswer ok post s) :
    (callList (.getTenantKv tenantId key) >>= f).run.Ensures listAnswer ok post s := by
  refine callList_bind fun c r s' _ hs => ?_
  cases hs
  exact h

theorem loadCommitments_bind {api : ListApi} {tenantId : String} {f : List Commitment → ListM β}
    (h : (f (if api.embedded then commitmentsOf s tenantId else [])).run.Ensures listAnswer ok post s) :
    (loadCommitments api tenantId >>= f).run.Ensures listAnswer ok post s := by
  unfold loadCommitments
  cases hembedded : api.embedded with
  | false =>
    rw [hembedded] at h
    exact Prog.ensures_exceptT_bind.mpr h
  | true =>
    rw [hembedded] at h
    exact Prog.ensures_exceptT_bind.mpr (Prog.ensures_exceptT_bind.mpr fun c r s' hc hs => by cases hs; exact h)

theorem buildPersonDirectory_bind (hok : ∀ c, ok c → Sound c) {tenantId : String}
    {f : List PersonDirEntry → ListM β}
    (h : (f (directoryOf s.store tenantId)).run.Ensures listAnswer ok post s) :
    (buildPersonDirectory tenantId >>= f).run.Ensures listAnswer ok post s := by
  refine Prog.ensures_exceptT_bind.mpr ?_
  refine callList_bind fun c twins s₁ hc hs => ?_
  obtain ⟨rfl, htwins⟩ := reading_eq hs
  refine callList_bind fun c' maps s₂ hc' hs' => ?_
  obtain ⟨rfl, hmaps⟩ := reading_eq hs'
  rw [htwins (hok c hc), hmaps (hok c' hc')]
  exact h

end Rules

/-! ## Commitments -/

/-- The message closes a commitment of the list. -/
def ChatMessage.closes (m : ChatMessage) (label : Option String) (list : List Commitment) : Bool :=
  isResolutionPhrase (Text.toAsciiLowercase m.text) && list.any (m.resolves label)

/-- What a message makes of the commitments. -/
inductive CommitmentStep (api : ListApi) (dir : List PersonDirEntry) (tenantId : String) (m : ChatMessage)
    (list : List Commitment) : List Commitment → Prop
  | closed (now : String) (h : m.closes (senderLabel dir m.subject) list = true) :
    CommitmentStep api dir tenantId m list
      (keepLast commitmentsMax (list.map (m.resolved (senderLabel dir m.subject) now)))
  | made {make : String → String → Commitment} (uuid now : String)
    (h : m.closes (senderLabel dir m.subject) list = false)
    (hmake : m.commitment api.upper api.alphanumeric dir tenantId = some make) :
    CommitmentStep api dir tenantId m list (keepLast commitmentsMax (list ++ [make uuid now]))
  | none (h : m.closes (senderLabel dir m.subject) list = false)
    (hmake : m.commitment api.upper api.alphanumeric dir tenantId = none) :
    CommitmentStep api dir tenantId m list list

/-- The message leaves the commitments like this, and the claims as they were. -/
structure CommitmentEnd (api : ListApi) (tenantId : String) (m : ChatMessage) (s s' : DeliveryState) : Prop where
  only : OnlyLists s s'
  claims : ∀ list, claimsOf s' tenantId list = claimsOf s tenantId list
  commitments : api.embedded = true →
    CommitmentStep api (directoryOf s.store tenantId) tenantId m (commitmentsOf s tenantId)
      (commitmentsOf s' tenantId)
  off : api.embedded = false → s'.store = s.store

section Commitments
variable {api : ListApi} {tenantId : String} {m : ChatMessage} {s s' : DeliveryState} {ok : ListChoice → Prop}

theorem claimsOf_congr (h : s'.store = s.store) (list : ClaimList) :
    claimsOf s' tenantId list = claimsOf s tenantId list := by
  unfold claimsOf
  rw [h]

theorem commitmentsOf_congr (h : s'.store = s.store) : commitmentsOf s' tenantId = commitmentsOf s tenantId := by
  unfold commitmentsOf
  rw [h]

theorem CommitmentEnd.of_off (hembedded : api.embedded = false) (h : s'.store = s.store) :
    CommitmentEnd api tenantId m s s' where
  only := .of_store h
  claims := claimsOf_congr h
  commitments h := by rw [hembedded] at h; cases h
  off _ := h

/-- What is saved is what is stored. -/
theorem saveCommitments_ends {s₁ : DeliveryState} {list read : List Commitment} {u : CommitmentUpdate}
    (h₁ : s₁.store = s.store)
    (hstep : CommitmentStep api (directoryOf s.store tenantId) tenantId m (commitmentsOf s tenantId)
      (keepLast commitmentsMax list)) (hembedded : api.embedded = true) :
    (saveCommitments api tenantId list read u).run.Ensures listAnswer ok
      (fun _ s' => CommitmentEnd api tenantId m s s') s₁ := by
  unfold saveCommitments
  rw [hembedded]
  intro c r s' _ hs
  have hstore : s'.store = s.store.putTenantKv tenantId commitmentsKv
      (.arr (keepLast commitmentsMax (list.map Commitment.toStorageJson))) := by
    rw [← h₁]
    cases hs
    rfl
  refine ⟨?_, fun l => ?_, fun _ => ?_, fun h => ?_⟩
  · unfold OnlyLists
    rw [hstore]
    rfl
  · unfold claimsOf
    rw [hstore, getTenantKv_put, if_neg fun heq => l.key_ne_commitments heq.2]
  · have hread : commitmentsOf s' tenantId = keepLast commitmentsMax list := by
      unfold commitmentsOf
      rw [hstore, getTenantKv_put, if_pos ⟨rfl, rfl⟩, itemsOf_arr, ← map_keepLast, Commitment.filterMap_fromValue]
    rw [hread]
    exact hstep
  · rw [hembedded] at h
    cases h

theorem maybeHandleCommitmentFromSlack_ends (hok : ∀ c, ok c → Sound c) :
    (maybeHandleCommitmentFromSlack api tenantId m).run.Ensures listAnswer ok
      (fun _ s' => CommitmentEnd api tenantId m s s') s := by
  refine buildPersonDirectory_bind hok (loadCommitments_bind ?_)
  generalize hdir : directoryOf s.store tenantId = dir
  cases hembedded : api.embedded with
  | false =>
    -- nothing is loaded, and nothing saved
    rw [if_neg Bool.false_ne_true]
    have hoff : ∀ {list read : List Commitment} {u : CommitmentUpdate} {s₁ : DeliveryState}, s₁.store = s.store →
        (saveCommitments api tenantId list read u).run.Ensures listAnswer ok
          (fun _ s' => CommitmentEnd api tenantId m s s') s₁ := by
      intro list read u s₁ h₁
      unfold saveCommitments
      rw [hembedded]
      exact .of_off hembedded h₁
    dsimp only
    cases isResolutionPhrase (Text.toAsciiLowercase m.text) && [].any (m.resolves (senderLabel dir m.subject)) with
    | true => exact callNow_bind fun now => hoff rfl
    | false =>
      cases m.commitment api.upper api.alphanumeric dir tenantId with
      | none => exact .of_off hembedded rfl
      | some make => exact callUuid_bind fun uuid s₁ h₁ => callNow_bind fun now => hoff h₁
  | true =>
    rw [if_pos rfl]
    dsimp only
    cases hcloses : isResolutionPhrase (Text.toAsciiLowercase m.text) &&
      (commitmentsOf s tenantId).any (m.resolves (senderLabel dir m.subject)) with
    | true =>
      refine callNow_bind fun now => saveCommitments_ends rfl ?_ hembedded
      rw [hdir]
      exact .closed now.toRfc3339 hcloses
    | false =>
      have hopen : m.closes (senderLabel dir m.subject) (commitmentsOf s tenantId) = false := hcloses
      cases hmake : m.commitment api.upper api.alphanumeric dir tenantId with
      | none =>
        refine ⟨.refl s, fun _ => rfl, fun _ => ?_, fun h => nomatch hembedded.symm.trans h⟩
        rw [hdir]
        exact .none hopen hmake
      | some make =>
        refine callUuid_bind fun uuid s₁ h₁ => callNow_bind fun now => saveCommitments_ends h₁ ?_ hembedded
        rw [hdir]
        exact .made uuid now.toRfc3339 hopen hmake

end Commitments

/-! ## Claims -/

/-- What a message leaves of the claims; everything else is as it was. -/
structure ClaimEnd (api : ListApi) (tenantId : String) (claim : Json) (s s' : DeliveryState) : Prop where
  only : OnlyLists s s'
  commitments : commitmentsOf s' tenantId = commitmentsOf s tenantId
  explicit : claimsOf s' tenantId .explicit = claimsOf s tenantId .explicit
  slack : claimsOf s' tenantId .slack =
    if api.embedded then keepLast ClaimList.slack.cap (claimsOf s tenantId .slack ++ [claim])
    else claimsOf s tenantId .slack

theorem pushSlackIntentClaim_ends {api : ListApi} {tenantId : String} {claim : Json} {s : DeliveryState}
    {ok : ListChoice → Prop} : (pushSlackIntentClaim api tenantId claim).run.Ensures listAnswer ok
      (fun _ s' => ClaimEnd api tenantId claim s s') s := by
  unfold pushSlackIntentClaim pushClaim
  cases hembedded : api.embedded with
  | false => exact ⟨.refl s, rfl, rfl, by rw [hembedded]; rfl⟩
  | true =>
    refine callGet_bind fun c r s' _ hs => ?_
    have hstore : s'.store = s.store.putTenantKv tenantId ClaimList.slack.key
        (.arr (keepLast ClaimList.slack.cap (claimsOf s tenantId .slack ++ [claim]))) := by
      cases hs
      rfl
    refine ⟨?_, ?_, ?_, ?_⟩
    · unfold OnlyLists
      rw [hstore]
      rfl
    · unfold commitmentsOf
      rw [hstore, getTenantKv_put, if_neg fun heq => ClaimList.slack.key_ne_commitments heq.2.symm]
    · have hkey : ClaimList.explicit.key ≠ ClaimList.slack.key := by decide
      unfold claimsOf
      rw [hstore, getTenantKv_put, if_neg fun heq => hkey heq.2]
    · have hread : claimsOf s' tenantId .slack =
          keepLast ClaimList.slack.cap (claimsOf s tenantId .slack ++ [claim]) := by
        conv_lhs => unfold claimsOf
        rw [hstore, getTenantKv_put, if_pos ⟨rfl, rfl⟩, itemsOf_arr]
      rw [hembedded, hread]
      rfl

end AiManager.Platform
