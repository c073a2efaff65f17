import AiManager.Platform.TenantLists

/-! # Updates of a tenant's lists

A handler that puts a list back undoes what others have put since it read the list: of two claims that are
pushed at the same time one is lost, and the export of a commitment, which waits for Linear in between, undoes
whatever happens meanwhile. Where every put finds stored what its handler read, the lists are what their
updates make of them one after the other (`run_claims`, `run_commitments`), and every update stays visible
(`updates_visible`). -/

namespace AiManager.Platform

open Lib Twins

/-! ## Lists and updates of a run -/

def claimsOf (s : DeliveryState) (tenantId : String) (list : ClaimList) : List Json :=
  itemsOf (s.store.getTenantKv tenantId list.key)

def commitmentsOf (s : DeliveryState) (tenantId : String) : List Commitment :=
  (itemsOf (s.store.getTenantKv tenantId commitmentsKv)).filterMap Commitment.fromValue

section Updates
variable {ι : Type}

/-- The tenant whose list a call put, and what the put means. -/
def putOf (e : Event ι ListOp ListOp.Res) : Option (String × Meant) :=
  match e.op with
  | .putTenantKv tenantId _ _ meant => some (tenantId, meant)
  | _ => none

def claimUpdate (tenantId : String) (list : ClaimList) (e : Event ι ListOp ListOp.Res) : Option ClaimUpdate :=
  match putOf e with
  | some (t, .claims l _ u) => if t = tenantId ∧ l = list then some u else none
  | _ => none

def commitmentUpdate (tenantId : String) (e : Event ι ListOp ListOp.Res) : Option CommitmentUpdate :=
  match putOf e with
  | some (t, .commitments _ u) => if t = tenantId then some u else none
  | _ => none

end Updates

/-! ## What is visible -/

/-- Two versions of one claim. -/
structure SameClaim (c d : Json) : Prop where
  fields : ∀ f, f ≠ "lifecycle" → f ≠ "superseded_at" → d.get f = c.get f
  object : d.isObject = c.isObject

def Superseded (c : Json) : Prop := c.getStr "lifecycle" = some "superseded"

/-- Two versions of one commitment. -/
def SamePromise (c d : Commitment) : Prop :=
  d = { c with
    status := d.status, resolvedAt := d.resolvedAt, resolveEvidence := d.resolveEvidence, evidence := d.evidence,
    linearIssueId := d.linearIssueId, linearUrl := d.linearUrl }

namespace ClaimUpdate

def pushed : ClaimUpdate → Nat
  | push _ => 1
  | supersede _ _ => 0

/-- How many claims the updates push. -/
def pushedBy (us : List ClaimUpdate) : Nat := (us.map pushed).sum

/-- The update is to be seen in the list that later updates have made, unless the cap has evicted it. -/
def VisibleIn (list : ClaimList) (read final : List Json) (later : List ClaimUpdate) : ClaimUpdate → Prop
  | push claim => pushedBy later < list.cap → ∃ d, fromEnd final (pushedBy later) = some d ∧ SameClaim claim d
  | supersede claimId _ => ∀ i c, fromEnd read i = some c → list.hasId claimId c = true → c.isObject = true →
      i + pushedBy later < list.cap →
        ∃ d, fromEnd final (i + pushedBy later) = some d ∧ SameClaim c d ∧ Superseded d

end ClaimUpdate

namespace CommitmentUpdate

def addedBy (us : List CommitmentUpdate) : Nat := (us.map fun u => u.added.length).sum

/-- The update sets the status of the commitment. -/
def SetsStatus (c : Commitment) : CommitmentUpdate → Prop
  | resolve m label _ => m.resolves label c = true
  | setStatus id _ _ => c.id = id
  | _ => False

def Links (c : Commitment) : CommitmentUpdate → Prop
  | link id _ _ _ => c.id = id
  | _ => False

/-- The commitment is in the list that later updates have made, unless the cap has evicted it. Its status and
its link are the same unless they were set again. -/
def StaysIn (c : Commitment) (i : Nat) (final : List Commitment) (later : List CommitmentUpdate) : Prop :=
  i + addedBy later < commitmentsMax →
    ∃ d, fromEnd final (i + addedBy later) = some d ∧ SamePromise c d ∧
      ((∀ u ∈ later, ¬ u.SetsStatus c) → d.status = c.status) ∧
      ((∀ u ∈ later, ¬ u.Links c) → d.linearIssueId = c.linearIssueId ∧ d.linearUrl = c.linearUrl)

/-- The update is to be seen in the list that later updates have made. -/
def VisibleIn (read final : List Commitment) (later : List CommitmentUpdate) : CommitmentUpdate → Prop
  | add c => StaysIn c 0 final later
  | u => ∀ i c, fromEnd read i = some c → StaysIn (u.change c) i final later

end CommitmentUpdate

/-! ## The condition -/

/-- What the handler read is what is stored. -/
def Meant.ReadIn (s : DeliveryState) (tenantId : String) : Meant → Prop
  | claims list read _ => read = claimsOf s tenantId list
  | commitments read _ => read = commitmentsOf s tenantId

section Runs
variable {ι : Type}

/-- Where the step puts a list, it finds stored what its handler read. -/
def ReadsStored (pool : ListPool ι) (x : ι × ListChoice) : Prop :=
  match (pool.event listAnswer x).bind putOf with
  | some (tenantId, meant) => meant.ReadIn pool.shared tenantId
  | none => True

/-- The update of a put is visible at the end. -/
def Meant.VisibleIn (final : DeliveryState) (tenantId : String) (later : List (Event ι ListOp ListOp.Res)) :
    Meant → Prop
  | claims list read u =>
    u.VisibleIn list read (claimsOf final tenantId list) (later.filterMap (claimUpdate tenantId list))
  | commitments read u =>
    u.VisibleIn read (commitmentsOf final tenantId) (later.filterMap (commitmentUpdate tenantId))

end Runs

/-- The handler has put the update. -/
def Puts (made : (op : ListOp) → op.Res → Prop) (tenantId : String) (meant : Meant) : Prop :=
  ∃ key value, made (.putTenantKv tenantId key value meant) ()

/-- What a handler that answers ok has done, among the calls it has made. -/
def ListCall.Done (api : ListApi) (made : (op : ListOp) → op.Res → Prop) : ListCall → Prop
  | .pushSlackIntentClaim tenantId claim =>
    api.embedded = true → ∃ read, Puts made tenantId (.claims .slack read (.push claim))
  | .pushExplicitClaim tenantId claim =>
    api.embedded = true → ∃ read, Puts made tenantId (.claims .explicit read (.push claim))
  | .intentClaimSupersede tenantId claimId => ∃ explicit slack now,
      Puts made tenantId (.claims .explicit explicit (.supersede claimId now)) ∧
      Puts made tenantId (.claims .slack slack (.supersede claimId now)) ∧
      ((∃ c ∈ explicit, ClaimList.explicit.hasId claimId c = true) ∨
        ∃ c ∈ slack, ClaimList.slack.hasId claimId c = true)
  | .commitmentFromSlack _ _ => True
  | .createCommitment tenantId _ =>
    api.embedded = true → ∃ read c, Puts made tenantId (.commitments read (.add c))
  | .setCommitmentStatus tenantId commitmentId status => ∃ read now,
      Puts made tenantId (.commitments read (.setStatus commitmentId status now)) ∧
      ∃ c ∈ read, c.id = commitmentId
  | .exportCommitmentLinear tenantId commitmentId =>
    -- either it was linked when the list was read, or it was linked by the put
    (∃ stored, made (.getTenantKv tenantId commitmentsKv) stored ∧
      ∃ c ∈ (itemsOf stored).filterMap Commitment.fromValue, c.id = commitmentId ∧ c.linearUrl.isSome) ∨
    ∃ read issueId url evidence,
      Puts made tenantId (.commitments read (.link commitmentId issueId url evidence)) ∧
      ∃ c ∈ read, c.id = commitmentId

section Runs
variable {ι : Type} [DecidableEq ι]

/-- Every update that was put is visible at the end, and so is every commitment that was ever in the list; a
handler that answers ok has put its update. -/
structure UpdatesVisible (api : ListApi) (calls : ι → ListCall) (pool : ListPool ι)
    (sched : List (ι × ListChoice)) : Prop where
  puts : ∀ xs x ys, sched = xs ++ x :: ys → ∀ tenantId meant,
    ((pool.run listAnswer xs).event listAnswer x).bind putOf = some (tenantId, meant) →
      meant.VisibleIn (pool.run listAnswer sched).shared tenantId
        ((pool.run listAnswer (xs ++ [x])).happened listAnswer ys)
  stored : ∀ xs ys, sched = xs ++ ys → ∀ tenantId i c,
    fromEnd (commitmentsOf (pool.run listAnswer xs).shared tenantId) i = some c →
      CommitmentUpdate.StaysIn c i (commitmentsOf (pool.run listAnswer sched).shared tenantId)
        (((pool.run listAnswer xs).happened listAnswer ys).filterMap (commitmentUpdate tenantId))
  done : ∀ i, (pool.run listAnswer sched).threads i = .pure (.ok ()) →
    (calls i).Done api fun op r => ∃ xs x ys, sched = xs ++ x :: ys ∧
      (pool.run listAnswer xs).event listAnswer x = some ⟨i, op, r⟩

end Runs

/-! ## Updates one after the other -/

namespace SameClaim
variable {c d e : Json}

theorem refl (c : Json) : SameClaim c c := ⟨fun _ _ _ => rfl, rfl⟩

theorem trans (h : SameClaim c d) (h' : SameClaim d e) : SameClaim c e :=
  ⟨fun f hl hs => (h'.fields f hl hs).trans (h.fields f hl hs), h'.object.trans h.object⟩

/-- A superseded claim is the same claim. -/
theorem supersede (list : ClaimList) (now : String) (c : Json) : SameClaim c (list.supersede now c) := by
  cases list with
  | slack => exact ⟨fun f hl _ => Json.get_insert_ne _ hl _, Json.isObject_insert _ _ _⟩
  | explicit =>
    exact ⟨fun f hl hs => (Json.get_insert_ne _ hs _).trans (Json.get_insert_ne _ hl _),
      (Json.isObject_insert _ _ _).trans (Json.isObject_insert _ _ _)⟩

end SameClaim

theorem superseded_supersede (list : ClaimList) (now : String) {c : Json} (h : c.isObject = true) :
    Superseded (list.supersede now c) := by
  unfold Superseded Json.getStr
  cases list with
  | slack =>
    unfold ClaimList.supersede
    rw [Json.get_insert_self h]
    rfl
  | explicit =>
    unfold ClaimList.supersede
    rw [Json.get_insert_ne _ (by decide), Json.get_insert_self h]
    rfl

namespace ClaimUpdate
variable {list : ClaimList}

/-- What an update does to a claim that is there. -/
def change (list : ClaimList) (c : Json) : ClaimUpdate → Json
  | push _ => c
  | supersede claimId now => if list.hasId claimId c then list.supersede now c else c

theorem same_change (list : ClaimList) (c : Json) (u : ClaimUpdate) : SameClaim c (u.change list c) := by
  cases u with
  | push _ => exact .refl c
  | supersede claimId now =>
    dsimp only [change]
    split_ifs
    · exact .supersede list now c
    · exact .refl c

theorem superseded_change {c : Json} (h : Superseded c) (list : ClaimList) (u : ClaimUpdate) :
    Superseded (u.change list c) := by
  cases u with
  | push _ => exact h
  | supersede claimId now =>
    dsimp only [change]
    split_ifs
    · refine superseded_supersede list now ?_
      -- what has a field is an object
      cases c with
      | obj _ => rfl
      | _ => cases h
    · exact h

/-- An update moves a claim on by what it pushes. -/
theorem fromEnd_apply (xs : List Json) (u : ClaimUpdate) {i : ℕ} (hi : i + u.pushed < list.cap) :
    fromEnd (u.apply list xs) (i + u.pushed) = (fromEnd xs i).map fun c => u.change list c := by
  cases u with
  | push claim =>
    have hcap : i + 1 < list.cap := hi
    show fromEnd (keepLast list.cap (xs ++ [claim])) (i + 1) = _
    rw [fromEnd_keepLast hcap, fromEnd_concat_succ]
    exact Option.map_id'.symm
  | supersede claimId now => exact fromEnd_map _ xs i

/-- A claim stays in the list, superseded if it was, until the cap evicts it. -/
theorem stays (us : List ClaimUpdate) {xs : List Json} {i : ℕ} {c : Json} (hc : fromEnd xs i = some c)
    (hi : i + pushedBy us < list.cap) :
    ∃ d, fromEnd (us.foldl (fun xs u => u.apply list xs) xs) (i + pushedBy us) = some d ∧ SameClaim c d ∧
      (Superseded c → Superseded d) := by
  induction us generalizing xs i c with
  | nil => exact ⟨c, hc, .refl c, id⟩
  | cons u us ih =>
    have hsum : pushedBy (u :: us) = u.pushed + pushedBy us := by simp [pushedBy]
    rw [hsum, ← Nat.add_assoc] at hi ⊢
    have hnext : fromEnd (u.apply list xs) (i + u.pushed) = some (u.change list c) := by
      rw [fromEnd_apply xs u (by omega), hc]
      rfl
    obtain ⟨d, hd, hsame, hsuperseded⟩ := ih hnext hi
    exact ⟨d, hd, (same_change list c u).trans hsame, fun h => hsuperseded (superseded_change h list u)⟩

/-- An update of what is stored is visible after any others. -/
theorem visible (u : ClaimUpdate) (read : List Json) (later : List ClaimUpdate) :
    u.VisibleIn list read (later.foldl (fun xs u => u.apply list xs) (u.apply list read)) later := by
  cases u with
  | push claim =>
    intro hlater
    have hput : fromEnd ((push claim).apply list read) 0 = some claim := by
      show fromEnd (keepLast list.cap (read ++ [claim])) 0 = _
      rw [fromEnd_keepLast (by cases list <;> decide), fromEnd_concat_zero]
    obtain ⟨d, hd, hsame, -⟩ := stays later hput (by rwa [Nat.zero_add])
    rw [Nat.zero_add] at hd
    exact ⟨d, hd, hsame⟩
  | supersede claimId now =>
    intro i c hc hid hobject hlater
    have hput : fromEnd ((supersede claimId now).apply list read) i = some (list.supersede now c) := by
      dsimp only [apply]
      rw [fromEnd_map, hc, Option.map_some, if_pos hid]
    obtain ⟨d, hd, hsame, hsuperseded⟩ := stays later hput hlater
    exact ⟨d, hd, (SameClaim.supersede list now c).trans hsame,
      hsuperseded (superseded_supersede list now hobject)⟩

end ClaimUpdate

theorem SamePromise.refl (c : Commitment) : SamePromise c c := rfl

theorem SamePromise.trans {c d e : Commitment} (h : SamePromise c d) (h' : SamePromise d e) :
    SamePromise c e := by
  unfold SamePromise at *
  rw [h', h]

namespace CommitmentUpdate
variable {c d : Commitment} {u : CommitmentUpdate}

theorem same_change (c : Commitment) (u : CommitmentUpdate) : SamePromise c (u.change c) := by
  cases u with
  | add _ => rfl
  | resolve m label now =>
    dsimp only [change, ChatMessage.resolved]
    split_ifs <;> rfl
  | setStatus id status now =>
    dsimp only [change]
    split_ifs <;> rfl
  | link id issueId url evidence =>
    dsimp only [change]
    split_ifs <;> rfl

theorem status_change (h : ¬ u.SetsStatus c) : (u.change c).status = c.status := by
  cases u with
  | add _ => rfl
  | resolve m label now =>
    have hother : ¬ m.resolves label c = true := h
    dsimp only [change, ChatMessage.resolved]
    rw [if_neg hother]
  | setStatus id status now =>
    have hother : ¬ c.id = id := h
    dsimp only [change]
    rw [if_neg hother]
  | link id issueId url evidence =>
    dsimp only [change]
    split_ifs <;> rfl

theorem link_change (h : ¬ u.Links c) :
    (u.change c).linearIssueId = c.linearIssueId ∧ (u.change c).linearUrl = c.linearUrl := by
  cases u with
  | add _ => exact ⟨rfl, rfl⟩
  | resolve m label now =>
    dsimp only [change, ChatMessage.resolved]
    split_ifs <;> exact ⟨rfl, rfl⟩
  | setStatus id status now =>
    dsimp only [change]
    split_ifs <;> exact ⟨rfl, rfl⟩
  | link id issueId url evidence =>
    have hother : ¬ c.id = id := h
    dsimp only [change]
    rw [if_neg hother]
    exact ⟨rfl, rfl⟩

/-- Whether an update sets the status is a matter of the promise and the status. -/
theorem setsStatus_congr (h : SamePromise c d) (hstatus : d.status = c.status) :
    u.SetsStatus d ↔ u.SetsStatus c := by
  cases u with
  | add _ | link _ _ _ _ => exact Iff.rfl
  | resolve m label now =>
    dsimp only [SetsStatus, ChatMessage.resolves]
    rw [h, hstatus]
  | setStatus id status now =>
    dsimp only [SetsStatus]
    rw [h]

theorem links_congr (h : SamePromise c d) : u.Links d ↔ u.Links c := by
  cases u with
  | link id issueId url evidence =>
    dsimp only [Links]
    rw [h]
  | _ => exact Iff.rfl

/-- An update moves a commitment on by what it adds. -/
theorem fromEnd_apply (xs : List Commitment) (u : CommitmentUpdate) {i : ℕ}
    (hi : i + u.added.length < commitmentsMax) :
    fromEnd (u.apply xs) (i + u.added.length) = (fromEnd xs i).map fun c => u.change c := by
  unfold apply
  rw [fromEnd_keepLast hi]
  cases u with
  | add c => exact (fromEnd_concat_succ _ _ _).trans (fromEnd_map _ _ _)
  | _ =>
    show fromEnd (_ ++ []) i = _
    rw [List.append_nil, fromEnd_map]

/-- A commitment stays in the list until the cap evicts it. -/
theorem stays (us : List CommitmentUpdate) {xs : List Commitment} {i : ℕ} {c : Commitment}
    (hc : fromEnd xs i = some c) : StaysIn c i (us.foldl (fun xs u => u.apply xs) xs) us := by
  induction us generalizing xs i c with
  | nil => exact fun _ => ⟨c, hc, .refl c, fun _ => rfl, fun _ => ⟨rfl, rfl⟩⟩
  | cons u us ih =>
    intro hi
    have hsum : addedBy (u :: us) = u.added.length + addedBy us := by simp [addedBy]
    rw [hsum, ← Nat.add_assoc] at hi ⊢
    have hnext : fromEnd (u.apply xs) (i + u.added.length) = some (u.change c) := by
      rw [fromEnd_apply xs u (by omega), hc]
      rfl
    have hsame := same_change c u
    obtain ⟨d, hd, hrest, hstatus, hlink⟩ := ih hnext hi
    refine ⟨d, ?_, hsame.trans hrest, fun hnone => ?_, fun hnone => ?_⟩
    · rw [List.foldl_cons]
      exact hd
    · have hnow := status_change (hnone u List.mem_cons_self)
      rw [hstatus fun u' hu' h => hnone u' (List.mem_cons_of_mem _ hu') ((setsStatus_congr hsame hnow).mp h), hnow]
    · obtain ⟨hissue, hurl⟩ := link_change (hnone u List.mem_cons_self)
      obtain ⟨hissue', hurl'⟩ :=
        hlink fun u' hu' h => hnone u' (List.mem_cons_of_mem _ hu') ((links_congr hsame).mp h)
      exact ⟨hissue'.trans hissue, hurl'.trans hurl⟩

theorem visible (u : CommitmentUpdate) (read : List Commitment) (later : List CommitmentUpdate) :
    u.VisibleIn read (later.foldl (fun xs u => u.apply xs) (u.apply read)) later := by
  have hold : u.added = [] → ∀ i c, fromEnd read i = some c →
      StaysIn (u.change c) i (later.foldl (fun xs u => u.apply xs) (u.apply read)) later := by
    intro hnone i c hc hi
    have hin : i + u.added.length < commitmentsMax := by
      rw [hnone, List.length_nil]
      omega
    have hput := fromEnd_apply read u hin
    rw [hnone, List.length_nil, Nat.add_zero, hc] at hput
    exact stays later hput hi
  cases u with
  | add c =>
    refine stays later ?_
    have hcap : 0 < commitmentsMax := Nat.succ_pos _
    unfold apply
    rw [fromEnd_keepLast hcap]
    exact fromEnd_concat_zero _ _
  | resolve m label now => exact hold rfl
  | setStatus id status now => exact hold rfl
  | link id issueId url evidence => exact hold rfl

end CommitmentUpdate

/-! ## What the handlers put -/

/-- A put means what it puts. -/
def ListOp.Means : ListOp → Prop
  | .putTenantKv _ key value meant => key = meant.key ∧ value = meant.value
  | _ => True

-- a text that is not given has no length to compute
attribute [local irreducible] Text.trim

section Programs
variable {api : ListApi}

theorem callsOnly_callList {K : ListOp → Prop} {op : ListOp} (h : K op) : (callList op).run.CallsOnly K :=
  Prog.CallsOnly.bind (p := Prog.perform op) ⟨h, fun _ => trivial⟩ fun _ => trivial

theorem pushClaim_means (list : ClaimList) (tenantId : String) (claim : Json) :
    (pushClaim api list tenantId claim).run.CallsOnly ListOp.Means := by
  unfold pushClaim
  split_ifs
  · trivial
  · exact Prog.CallsOnly.exceptT_bind (callsOnly_callList trivial) fun _ => callsOnly_callList ⟨rfl, rfl⟩

theorem intentClaimSupersede_means (tenantId claimId : String) :
    (intentClaimSupersede api tenantId claimId).run.CallsOnly ListOp.Means := by
  unfold intentClaimSupersede
  split_ifs
  · trivial
  · refine Prog.CallsOnly.exceptT_bind (callsOnly_callList trivial) fun arr => ?_
    refine Prog.CallsOnly.exceptT_bind (callsOnly_callList trivial) fun now => ?_
    refine Prog.CallsOnly.exceptT_bind (callsOnly_callList trivial) fun slack => ?_
    dsimp only
    split_ifs
    · trivial
    · refine Prog.CallsOnly.exceptT_bind (callsOnly_callList ⟨rfl, rfl⟩) fun _ => ?_
      exact callsOnly_callList ⟨rfl, rfl⟩

theorem loadCommitments_means (tenantId : String) :
    (loadCommitments api tenantId).run.CallsOnly ListOp.Means := by
  unfold loadCommitments
  split_ifs
  · trivial
  · exact Prog.CallsOnly.exceptT_bind (callsOnly_callList trivial) fun _ => trivial

/-- What is saved is the list with the update. -/
theorem saveCommitments_means (tenantId : String) {list read : List Commitment} {u : CommitmentUpdate}
    (h : list = read.map (fun c => u.change c) ++ u.added) :
    (saveCommitments api tenantId list read u).run.CallsOnly ListOp.Means := by
  unfold saveCommitments
  split_ifs
  · trivial
  · refine callsOnly_callList ⟨rfl, ?_⟩
    show Json.arr _ = Json.arr _
    rw [h, CommitmentUpdate.apply, map_keepLast]

theorem saveAdded_means (tenantId : String) (list : List Commitment) (c : Commitment) :
    (saveCommitments api tenantId (list ++ [c]) list (.add c)).run.CallsOnly ListOp.Means := by
  refine saveCommitments_means tenantId ?_
  show _ = list.map (fun c => c) ++ [c]
  rw [List.map_id']

theorem saveChanged_means (tenantId : String) (list : List Commitment) {u : CommitmentUpdate}
    (h : u.added = []) :
    (saveCommitments api tenantId (list.map fun c => u.change c) list u).run.CallsOnly ListOp.Means := by
  refine saveCommitments_means tenantId ?_
  rw [h, List.append_nil]

theorem buildPersonDirectory_means (tenantId : String) :
    (buildPersonDirectory tenantId).run.CallsOnly ListOp.Means := by
  refine Prog.CallsOnly.exceptT_bind (callsOnly_callList trivial) fun _ => ?_
  exact Prog.CallsOnly.exceptT_bind (callsOnly_callList trivial) fun _ => trivial

theorem maybeHandleCommitmentFromSlack_means (tenantId : String) (m : ChatMessage) :
    (maybeHandleCommitmentFromSlack api tenantId m).run.CallsOnly ListOp.Means := by
  refine Prog.CallsOnly.exceptT_bind (buildPersonDirectory_means tenantId) fun dir => ?_
  refine Prog.CallsOnly.exceptT_bind (loadCommitments_means tenantId) fun list => ?_
  dsimp only
  -- the phrases are not to be looked up
  generalize (isResolutionPhrase (Text.toAsciiLowercase m.text) && _) = resolved
  cases resolved with
  | true =>
    refine Prog.CallsOnly.exceptT_bind (callsOnly_callList trivial) fun now => ?_
    exact saveChanged_means tenantId list (u := .resolve m _ now.toRfc3339) rfl
  | false =>
    cases m.commitment api.upper api.alphanumeric dir tenantId with
    | none => trivial
    | some make =>
      refine Prog.CallsOnly.exceptT_bind (callsOnly_callList trivial) fun uuid => ?_
      refine Prog.CallsOnly.exceptT_bind (callsOnly_callList trivial) fun now => ?_
      exact saveAdded_means tenantId list _

theorem createCommitment_means (tenantId : String) (body : CommitmentCreateBody) :
    (createCommitment api tenantId body).run.CallsOnly ListOp.Means := by
  unfold createCommitment
  split_ifs
  · trivial
  · refine Prog.CallsOnly.exceptT_bind (buildPersonDirectory_means tenantId) fun dir => ?_
    refine Prog.CallsOnly.exceptT_bind (callsOnly_callList trivial) fun uuid => ?_
    refine Prog.CallsOnly.exceptT_bind (callsOnly_callList trivial) fun now => ?_
    refine Prog.CallsOnly.exceptT_bind (loadCommitments_means tenantId) fun list => ?_
    exact saveAdded_means tenantId list _

theorem setCommitmentStatus_means (tenantId commitmentId status : String) :
    (setCommitmentStatus api tenantId commitmentId status).run.CallsOnly ListOp.Means := by
  refine Prog.CallsOnly.exceptT_bind (loadCommitments_means tenantId) fun list => ?_
  split_ifs
  · trivial
  · refine Prog.CallsOnly.exceptT_bind (callsOnly_callList trivial) fun now => ?_
    exact saveChanged_means tenantId list rfl

theorem exportCommitmentLinear_means (tenantId commitmentId : String) :
    (exportCommitmentLinear api tenantId commitmentId).run.CallsOnly ListOp.Means := by
  unfold exportCommitmentLinear
  split_ifs
  · trivial
  · refine Prog.CallsOnly.exceptT_bind (loadCommitments_means tenantId) fun list => ?_
    cases list.find? fun c => c.id = commitmentId with
    | none => trivial
    | some cmt =>
      dsimp only
      split_ifs
      · trivial
      · refine Prog.CallsOnly.exceptT_bind (callsOnly_callList trivial) fun sent => ?_
        cases sent with
        | error e => trivial
        | ok _ =>
          refine Prog.CallsOnly.exceptT_bind (callsOnly_callList trivial) fun answer => ?_
          cases answer with
          | error e => trivial
          | ok body =>
            dsimp only
            cases linearIssue api.jsonText body with
            | error e => trivial
            | ok issue => exact saveChanged_means tenantId list rfl

/-- Every put of a handler means what it puts. -/
theorem listProgram_means (call : ListCall) : (call.program api).run.CallsOnly ListOp.Means := by
  cases call with
  | pushSlackIntentClaim tenantId claim => exact pushClaim_means .slack tenantId claim
  | pushExplicitClaim tenantId claim => exact pushClaim_means .explicit tenantId claim
  | intentClaimSupersede tenantId claimId => exact intentClaimSupersede_means tenantId claimId
  | commitmentFromSlack tenantId m => exact maybeHandleCommitmentFromSlack_means tenantId m
  | createCommitment tenantId body => exact createCommitment_means tenantId body
  | setCommitmentStatus tenantId commitmentId status =>
    exact setCommitmentStatus_means tenantId commitmentId status
  | exportCommitmentLinear tenantId commitmentId => exact exportCommitmentLinear_means tenantId commitmentId

end Programs

/-! ## The lists in a run -/

theorem ClaimList.key_injective : Function.Injective ClaimList.key := by
  intro a b h
  cases a <;> cases b
  · rfl
  · exact absurd h (by decide)
  · exact absurd h (by decide)
  · rfl

theorem ClaimList.key_ne_commitments (list : ClaimList) : list.key ≠ commitmentsKv := by
  cases list <;> decide

theorem getTenantKv_put (st : InMemoryTwinStore) (tenantId key tenantId' key' : String) (value : Json) :
    (st.putTenantKv tenantId key value).getTenantKv tenantId' key' =
      if tenantId' = tenantId ∧ key' = key then some value else st.getTenantKv tenantId' key' := by
  unfold InMemoryTwinStore.putTenantKv InMemoryTwinStore.getTenantKv
  rw [KMap.get_put]
  exact if_congr Prod.mk_inj rfl rfl

theorem itemsOf_arr (xs : List Json) : itemsOf (some (.arr xs)) = xs := rfl

/-- What is put is read again. -/
theorem fromValue_value (read : List Commitment) (u : CommitmentUpdate) :
    (itemsOf (some (Meant.commitments read u).value)).filterMap Commitment.fromValue = u.apply read := by
  dsimp only [Meant.value]
  rw [itemsOf_arr, Commitment.filterMap_fromValue]

section Steps
variable {ι : Type} {c : ListChoice} {op : ListOp} {r : op.Res} {s s' : DeliveryState} {i : ι}

/-- A call that puts nothing leaves the store. -/
theorem store_of_not_put (h : listAnswer c op s = some (r, s'))
    (hput : putOf (⟨i, op, r⟩ : Event ι ListOp ListOp.Res) = none) : s'.store = s.store := by
  cases op with
  | utcNow | getTenantKv _ _ | linearSend _ | linearJson => cases h; rfl
  | newUuid =>
    unfold listAnswer at h
    dsimp only at h
    split_ifs at h
    cases h
    rfl
  | listTwins _ | listSlackMaps _ => obtain ⟨rfl, -⟩ := reading_eq h; rfl
  | putTenantKv tenantId key value meant => cases hput

/-- A put puts what it means. -/
theorem store_of_put (h : listAnswer c op s = some (r, s')) (hmeans : op.Means) {tenantId : String}
    {meant : Meant} (hput : putOf (⟨i, op, r⟩ : Event ι ListOp ListOp.Res) = some (tenantId, meant)) :
    s'.store = s.store.putTenantKv tenantId meant.key meant.value := by
  cases op with
  | putTenantKv t key value m =>
    cases hput
    obtain ⟨rfl, rfl⟩ := hmeans
    cases h
    rfl
  | _ => cases hput

/-- **One call** makes of a list of claims what its update says. -/
theorem claimsOf_step (h : listAnswer c op s = some (r, s')) (hmeans : op.Means)
    (hread : ∀ tenantId meant, putOf (⟨i, op, r⟩ : Event ι ListOp ListOp.Res) = some (tenantId, meant) →
      meant.ReadIn s tenantId) (tenantId : String) (list : ClaimList) :
    claimsOf s' tenantId list =
      match claimUpdate tenantId list (⟨i, op, r⟩ : Event ι ListOp ListOp.Res) with
      | some u => u.apply list (claimsOf s tenantId list)
      | none => claimsOf s tenantId list := by
  unfold claimUpdate
  cases hput : putOf (⟨i, op, r⟩ : Event ι ListOp ListOp.Res) with
  | none =>
    unfold claimsOf
    rw [store_of_not_put h hput]
  | some put =>
    obtain ⟨t, meant⟩ := put
    have hin := hread t meant hput
    unfold claimsOf
    rw [store_of_put h hmeans hput, getTenantKv_put]
    cases meant with
    | commitments read u =>
      rw [if_neg fun heq => list.key_ne_commitments heq.2]
    | claims l read u =>
      dsimp only
      by_cases heq : t = tenantId ∧ l = list
      · obtain ⟨rfl, rfl⟩ := heq
        have hstored : read = itemsOf (s.store.getTenantKv t l.key) := hin
        rw [if_pos ⟨rfl, rfl⟩, if_pos ⟨rfl, rfl⟩]
        dsimp only [Meant.value]
        rw [itemsOf_arr, ← hstored]
      · rw [if_neg heq, if_neg fun h => heq ⟨h.1.symm, (ClaimList.key_injective h.2).symm⟩]

/-- **One call** makes of the commitments what its update says. -/
theorem commitmentsOf_step (h : listAnswer c op s = some (r, s')) (hmeans : op.Means)
    (hread : ∀ tenantId meant, putOf (⟨i, op, r⟩ : Event ι ListOp ListOp.Res) = some (tenantId, meant) →
      meant.ReadIn s tenantId) (tenantId : String) :
    commitmentsOf s' tenantId =
      match commitmentUpdate tenantId (⟨i, op, r⟩ : Event ι ListOp ListOp.Res) with
      | some u => u.apply (commitmentsOf s tenantId)
      | none => commitmentsOf s tenantId := by
  unfold commitmentUpdate
  cases hput : putOf (⟨i, op, r⟩ : Event ι ListOp ListOp.Res) with
  | none =>
    unfold commitmentsOf
    rw [store_of_not_put h hput]
  | some put =>
    obtain ⟨t, meant⟩ := put
    have hin := hread t meant hput
    unfold commitmentsOf
    rw [store_of_put h hmeans hput, getTenantKv_put]
    cases meant with
    | claims l read u =>
      rw [if_neg fun heq => l.key_ne_commitments heq.2.symm]
    | commitments read u =>
      dsimp only
      by_cases heq : t = tenantId
      · subst heq
        have hstored : read = (itemsOf (s.store.getTenantKv t commitmentsKv)).filterMap Commitment.fromValue := hin
        rw [if_pos ⟨rfl, rfl⟩, if_pos rfl, fromValue_value]
        dsimp only
        rw [← hstored]
      · rw [if_neg heq, if_neg fun h => heq h.1.symm]

end Steps

section Runs
variable {ι : Type} {pool : ListPool ι} {sched : List (ι × ListChoice)}

theorem readIn_of_readsStored {x : ι × ListChoice} (h : ReadsStored pool x)
    {e : Event ι ListOp ListOp.Res} (hevent : pool.event listAnswer x = some e) (tenantId : String)
    (meant : Meant) (hput : putOf e = some (tenantId, meant)) : meant.ReadIn pool.shared tenantId := by
  unfold ReadsStored at h
  rw [hevent, Option.bind_some, hput] at h
  exact h

variable [DecidableEq ι]

/-- A list of claims is what the updates have made of it, one after the other. -/
theorem run_claims (hmeans : ∀ i, (pool.threads i).CallsOnly ListOp.Means)
    (hreads : EachStep (Pool.step listAnswer) ReadsStored pool sched) (tenantId : String) (list : ClaimList) :
    claimsOf (pool.run listAnswer sched).shared tenantId list =
      ((pool.happened listAnswer sched).filterMap (claimUpdate tenantId list)).foldl
        (fun xs u => u.apply list xs) (claimsOf pool.shared tenantId list) := by
  rw [List.foldl_filterMap]
  refine Pool.run_view (fun s => claimsOf s tenantId list) (fun pool i c op r s hop hC hevent hs => ?_) hmeans
    hreads
  refine (claimsOf_step hs hop (readIn_of_readsStored hC hevent) tenantId list).trans ?_
  cases claimUpdate tenantId list (⟨i, op, r⟩ : Event ι ListOp ListOp.Res) <;> rfl

/-- The commitments are what the updates have made of them, one after the other. -/
theorem run_commitments (hmeans : ∀ i, (pool.threads i).CallsOnly ListOp.Means)
    (hreads : EachStep (Pool.step listAnswer) ReadsStored pool sched) (tenantId : String) :
    commitmentsOf (pool.run listAnswer sched).shared tenantId =
      ((pool.happened listAnswer sched).filterMap (commitmentUpdate tenantId)).foldl
        (fun xs u => u.apply xs) (commitmentsOf pool.shared tenantId) := by
  rw [List.foldl_filterMap]
  refine Pool.run_view (fun s => commitmentsOf s tenantId) (fun pool i c op r s hop hC hevent hs => ?_) hmeans
    hreads
  refine (commitmentsOf_step hs hop (readIn_of_readsStored hC hevent) tenantId).trans ?_
  cases commitmentUpdate tenantId (⟨i, op, r⟩ : Event ι ListOp ListOp.Res) <;> rfl

end Runs

/-! ## What an ok means -/

section Done
variable {api : ListApi} {tenantId : String} {q : List (Σ op, ListOp.Res op)} {α : Type}
  {post : Except String α → List (Σ op, ListOp.Res op) → Prop}

/-- The calls that a history holds. -/
def Made (q : List (Σ op, ListOp.Res op)) : (op : ListOp) → op.Res → Prop := fun op r => ⟨op, r⟩ ∈ q

theorem meets_callList_bind {op : ListOp} {f : op.Res → ListM α}
    (h : ∀ r, (f r).run.Meets (.history _ _) post (⟨op, r⟩ :: q)) :
    (callList op >>= f).run.Meets (.history _ _) post q :=
  Prog.meets_exceptT_bind.mpr ⟨trivial, fun r _ => h r⟩

/-- The list that is loaded is the stored one; without an embedded store it is empty. -/
theorem meets_loadCommitments_bind {f : List Commitment → ListM α}
    (h : ∀ stored, api.embedded = true → (f ((itemsOf stored).filterMap Commitment.fromValue)).run.Meets
      (.history _ _) post (⟨.getTenantKv tenantId commitmentsKv, stored⟩ :: q))
    (hnone : api.embedded = false → (f []).run.Meets (.history _ _) post q) :
    (loadCommitments api tenantId >>= f).run.Meets (.history _ _) post q := by
  cases hembedded : api.embedded with
  | false =>
    unfold loadCommitments
    rw [hembedded]
    exact Prog.meets_exceptT_bind.mpr (hnone hembedded)
  | true =>
    unfold loadCommitments
    rw [hembedded]
    exact Prog.meets_exceptT_bind.mpr (Prog.meets_exceptT_bind.mpr ⟨trivial, fun stored _ => h stored hembedded⟩)

theorem meets_saveCommitments {post : Except String Unit → List (Σ op, ListOp.Res op) → Prop}
    {list read : List Commitment} {u : CommitmentUpdate}
    (h : ∀ value, api.embedded = true →
      post (.ok ()) (⟨.putTenantKv tenantId commitmentsKv value (.commitments read u), ()⟩ :: q))
    (hnone : api.embedded = false → post (.ok ()) q) :
    (saveCommitments api tenantId list read u).run.Meets (.history _ _) post q := by
  cases hembedded : api.embedded with
  | false =>
    unfold saveCommitments
    rw [hembedded]
    exact hnone hembedded
  | true =>
    unfold saveCommitments
    rw [hembedded]
    exact ⟨trivial, fun _ _ => h _ hembedded⟩

theorem meets_buildPersonDirectory_bind {f : List PersonDirEntry → ListM α}
    (h : ∀ dir q, (f dir).run.Meets (.history _ _) post q) :
    (buildPersonDirectory tenantId >>= f).run.Meets (.history _ _) post q := by
  refine Prog.meets_exceptT_bind.mpr ?_
  refine meets_callList_bind fun _ => meets_callList_bind fun _ => ?_
  exact h _ _

/-- The handler ends with what an ok means. -/
def EndsDone (api : ListApi) (call : ListCall) (r : Except String Unit) (q : List (Σ op, ListOp.Res op)) : Prop :=
  r = .ok () → call.Done api (Made q)

theorem endsDone_throw {call : ListCall} {e : String} :
    (throw e : ListM Unit).run.Meets (.history _ _) (EndsDone api call) q := fun h => nomatch h

theorem Puts.mono {made made' : (op : ListOp) → op.Res → Prop} (himp : ∀ op r, made op r → made' op r)
    {meant : Meant} : Puts made tenantId meant → Puts made' tenantId meant := by
  rintro ⟨key, value, h⟩
  exact ⟨key, value, himp _ _ h⟩

theorem ListCall.Done.mono {made made' : (op : ListOp) → op.Res → Prop} {call : ListCall}
    (h : call.Done api made) (himp : ∀ op r, made op r → made' op r) : call.Done api made' := by
  cases call with
  | pushSlackIntentClaim _ _ | pushExplicitClaim _ _ =>
    intro hembedded
    obtain ⟨read, hput⟩ := h hembedded
    exact ⟨read, hput.mono himp⟩
  | intentClaimSupersede _ _ =>
    obtain ⟨explicit, slack, now, hexplicit, hslack, hfound⟩ := h
    exact ⟨explicit, slack, now, hexplicit.mono himp, hslack.mono himp, hfound⟩
  | commitmentFromSlack _ _ => trivial
  | createCommitment _ _ =>
    intro hembedded
    obtain ⟨read, c, hput⟩ := h hembedded
    exact ⟨read, c, hput.mono himp⟩
  | setCommitmentStatus _ _ _ =>
    obtain ⟨read, now, hput, hfound⟩ := h
    exact ⟨read, now, hput.mono himp, hfound⟩
  | exportCommitmentLinear _ _ =>
    obtain ⟨stored, hget, hlinked⟩ | ⟨read, issueId, url, evidence, hput, hfound⟩ := h
    · exact .inl ⟨stored, himp _ _ hget, hlinked⟩
    · exact .inr ⟨read, issueId, url, evidence, hput.mono himp, hfound⟩

theorem puts_head {key : String} {value : Json} {meant : Meant} :
    Puts (Made (⟨.putTenantKv tenantId key value meant, ()⟩ :: q)) tenantId meant :=
  ⟨key, value, List.mem_cons_self⟩

theorem pushSlackIntentClaim_done (claim : Json) : (pushSlackIntentClaim api tenantId claim).run.Meets
    (.history _ _) (EndsDone api (.pushSlackIntentClaim tenantId claim)) q := by
  unfold pushSlackIntentClaim pushClaim
  split_ifs with hembedded
  · intro _ h
    rw [h] at hembedded
    cases hembedded
  · exact meets_callList_bind fun _ => ⟨trivial, fun _ _ _ _ => ⟨_, puts_head⟩⟩

theorem pushExplicitClaim_done (claim : Json) : (pushExplicitClaim api tenantId claim).run.Meets
    (.history _ _) (EndsDone api (.pushExplicitClaim tenantId claim)) q := by
  unfold pushExplicitClaim pushClaim
  split_ifs with hembedded
  · intro _ h
    rw [h] at hembedded
    cases hembedded
  · exact meets_callList_bind fun _ => ⟨trivial, fun _ _ _ _ => ⟨_, puts_head⟩⟩

theorem intentClaimSupersede_done (claimId : String) : (intentClaimSupersede api tenantId claimId).run.Meets
    (.history _ _) (EndsDone api (.intentClaimSupersede tenantId claimId)) q := by
  unfold intentClaimSupersede
  split_ifs
  · exact endsDone_throw
  · refine meets_callList_bind fun explicit => ?_
    refine meets_callList_bind fun now => ?_
    refine meets_callList_bind fun slack => ?_
    dsimp only
    split_ifs with hfound
    · exact endsDone_throw
    · refine meets_callList_bind fun _ => ⟨trivial, fun _ _ _ => ?_⟩
      refine ⟨_, _, _, ⟨_, _, List.mem_cons_of_mem _ List.mem_cons_self⟩, puts_head, ?_⟩
      simpa only [Bool.not_eq_true', Bool.not_eq_false, Bool.or_eq_true, List.any_eq_true] using hfound

theorem createCommitment_done (body : CommitmentCreateBody) : (createCommitment api tenantId body).run.Meets
    (.history _ _) (EndsDone api (.createCommitment tenantId body)) q := by
  unfold createCommitment
  split_ifs
  · exact endsDone_throw
  · refine meets_buildPersonDirectory_bind fun dir q => ?_
    refine meets_callList_bind fun uuid => ?_
    refine meets_callList_bind fun now => ?_
    have hnone : api.embedded = false → ∀ {q}, EndsDone api (.createCommitment tenantId body) (.ok ()) q := by
      intro hembedded q _ h
      rw [h] at hembedded
      cases hembedded
    refine meets_loadCommitments_bind (fun stored _ => ?_) fun hembedded => ?_
    · exact meets_saveCommitments (fun _ _ _ _ => ⟨_, _, puts_head⟩) fun hembedded => hnone hembedded
    · exact meets_saveCommitments (fun _ _ _ _ => ⟨_, _, puts_head⟩) fun hembedded => hnone hembedded

theorem setCommitmentStatus_done (commitmentId status : String) :
    (setCommitmentStatus api tenantId commitmentId status).run.Meets (.history _ _)
      (EndsDone api (.setCommitmentStatus tenantId commitmentId status)) q := by
  refine meets_loadCommitments_bind (fun stored hembedded => ?_) fun _ => endsDone_throw
  split_ifs with hfound
  · exact endsDone_throw
  · refine meets_callList_bind fun now => meets_saveCommitments (fun value _ _ => ?_) fun h => ?_
    · refine ⟨_, _, puts_head, ?_⟩
      simpa only [Bool.not_eq_true', Bool.not_eq_false, List.any_eq_true, decide_eq_true_eq] using hfound
    · rw [hembedded] at h
      cases h

theorem exportCommitmentLinear_done (commitmentId : String) :
    (exportCommitmentLinear api tenantId commitmentId).run.Meets (.history _ _)
      (EndsDone api (.exportCommitmentLinear tenantId commitmentId)) q := by
  unfold exportCommitmentLinear
  split_ifs
  · exact endsDone_throw
  · refine meets_loadCommitments_bind (fun stored hembedded => ?_) fun _ => endsDone_throw
    cases hfind : ((itemsOf stored).filterMap Commitment.fromValue).find? fun c => c.id = commitmentId with
    | none => exact endsDone_throw
    | some cmt =>
      have hmem := List.mem_of_find?_eq_some hfind
      have hid : cmt.id = commitmentId := by simpa using List.find?_some hfind
      dsimp only
      split_ifs with hlinked
      · exact fun _ => .inl ⟨_, List.mem_cons_self, cmt, hmem, hid, hlinked⟩
      · refine meets_callList_bind fun sent => ?_
        cases sent with
        | error e => exact endsDone_throw
        | ok _ =>
          refine meets_callList_bind fun answer => ?_
          cases answer with
          | error e => exact endsDone_throw
          | ok body =>
            dsimp only
            cases linearIssue api.jsonText body with
            | error e => exact endsDone_throw
            | ok issue =>
              refine meets_saveCommitments (fun value _ _ => .inr ⟨_, _, _, _, puts_head, cmt, hmem, hid⟩) fun h => ?_
              rw [hembedded] at h
              cases h

/-- A handler that answers ok has put its update. -/
theorem listProgram_done (call : ListCall) :
    (call.program api).run.Meets (.history _ _) (EndsDone api call) q := by
  cases call with
  | pushSlackIntentClaim tenantId claim => exact pushSlackIntentClaim_done claim
  | pushExplicitClaim tenantId claim => exact pushExplicitClaim_done claim
  | intentClaimSupersede tenantId claimId => exact intentClaimSupersede_done claimId
  | commitmentFromSlack tenantId m =>
    have hmeans : (maybeHandleCommitmentFromSlack api tenantId m).run.CallsOnly ListOp.Means :=
      maybeHandleCommitmentFromSlack_means tenantId m
    exact (hmeans.meets_of_allows (fun _ _ _ => trivial) q).mono fun _ _ _ _ => trivial
  | createCommitment tenantId body => exact createCommitment_done body
  | setCommitmentStatus tenantId commitmentId status => exact setCommitmentStatus_done commitmentId status
  | exportCommitmentLinear tenantId commitmentId => exact exportCommitmentLinear_done commitmentId

end Done

/-! ## No update is lost -/

section NoLostUpdate
variable {ι : Type} [DecidableEq ι] {pool : ListPool ι}

/-- The update of a put that finds stored what its handler read is visible after any further run. -/
theorem visible_of_put (hmeans : ∀ i, (pool.threads i).CallsOnly ListOp.Means) {x : ι × ListChoice}
    {ys : List (ι × ListChoice)} (hreads : EachStep (Pool.step listAnswer) ReadsStored pool (x :: ys))
    {tenantId : String} {meant : Meant} (hput : (pool.event listAnswer x).bind putOf = some (tenantId, meant)) :
    meant.VisibleIn ((pool.step listAnswer x).run listAnswer ys).shared tenantId
      ((pool.step listAnswer x).happened listAnswer ys) := by
  obtain ⟨e, hevent, hputOf⟩ := Option.bind_eq_some_iff.mp hput
  have hin := readIn_of_readsStored hreads.1 hevent tenantId meant hputOf
  have hnext : ∀ i, ((pool.step listAnswer x).threads i).CallsOnly ListOp.Means :=
    Pool.step_callsOnly hmeans x
  have hone : EachStep (Pool.step listAnswer) ReadsStored pool [x] := ⟨hreads.1, trivial⟩
  have hhappened : pool.happened listAnswer [x] = [e] := by
    unfold Pool.happened
    rw [hevent]
    rfl
  cases meant with
  | claims list read u =>
    have hupdate : claimUpdate tenantId list e = some u := by
      unfold claimUpdate
      rw [hputOf]
      exact if_pos ⟨rfl, rfl⟩
    have hstep : claimsOf (pool.step listAnswer x).shared tenantId list = u.apply list read := by
      have hrun := run_claims hmeans hone tenantId list
      rw [hhappened, List.filterMap_cons_some hupdate, List.filterMap_nil, List.foldl_cons, List.foldl_nil, ← hin] at hrun
      exact hrun
    have hvisible : u.VisibleIn list read _ _ := ClaimUpdate.visible u read
      (((pool.step listAnswer x).happened listAnswer ys).filterMap (claimUpdate tenantId list))
    rw [← hstep, ← run_claims hnext hreads.2 tenantId list] at hvisible
    exact hvisible
  | commitments read u =>
    have hupdate : commitmentUpdate tenantId e = some u := by
      unfold commitmentUpdate
      rw [hputOf]
      exact if_pos rfl
    have hstep : commitmentsOf (pool.step listAnswer x).shared tenantId = u.apply read := by
      have hrun := run_commitments hmeans hone tenantId
      rw [hhappened, List.filterMap_cons_some hupdate, List.filterMap_nil, List.foldl_cons, List.foldl_nil, ← hin] at hrun
      exact hrun
    have hvisible := CommitmentUpdate.visible u read
      (((pool.step listAnswer x).happened listAnswer ys).filterMap (commitmentUpdate tenantId))
    rw [← hstep, ← run_commitments hnext hreads.2 tenantId] at hvisible
    exact hvisible

/-- **No update is lost** in a run whose puts find stored what their handlers read. -/
theorem updates_visible (api : ListApi) (calls : ι → ListCall) (s : DeliveryState)
    (sched : List (ι × ListChoice))
    (hreads : EachStep (Pool.step listAnswer) ReadsStored (ListPool.start api calls s) sched) :
    UpdatesVisible api calls (ListPool.start api calls s) sched := by
  have hmeans : ∀ xs i, (((ListPool.start api calls s).run listAnswer xs).threads i).CallsOnly ListOp.Means :=
    fun xs => Pool.run_callsOnly (fun i => listProgram_means (calls i)) xs
  refine ⟨?_, ?_, fun i hok => ?_⟩
  · rintro xs x ys rfl tenantId meant hput
    rw [Pool.run_append, Pool.run_append]
    exact visible_of_put (hmeans xs) (eachStep_append.mp hreads).2 hput
  · rintro xs ys rfl tenantId i c hc
    have hstays := CommitmentUpdate.stays
      ((((ListPool.start api calls s).run listAnswer xs).happened listAnswer ys).filterMap
        (commitmentUpdate tenantId)) hc
    rw [← run_commitments (hmeans xs) (eachStep_append.mp hreads).2 tenantId, ← Pool.run_append] at hstays
    exact hstays
  · have hdone : ∀ i, ((ListPool.start api calls s).threads i).Meets (.history _ _)
        (EndsDone api (calls i)) [] := fun i => listProgram_done (calls i)
    obtain ⟨q, hends, hsteps⟩ := Pool.returned_history hdone rfl hok
    exact (hends rfl).mono fun op r hmade => hsteps ⟨op, r⟩ hmade

end NoLostUpdate

/-! ### A commitment is completed while its export waits for Linear -/

def linearApi : ListApi := ⟨true, fun c => c.toUpper.toString, Char.isAlphanum, fun _ => "", "lin_key", "team_1"⟩

def owedDeck : Commitment :=
  { (default : Commitment) with id := "cmt:1", tenantId := "ten_demo", text := "send the deck", status := "open" }

def deckStored : DeliveryState :=
  ⟨InMemoryTwinStore.new.putTenantKv "ten_demo" commitmentsKv (.arr [owedDeck.toStorageJson]), [], []⟩

def deckCalls : Bool → ListCall
  | false => .exportCommitmentLinear "ten_demo" "cmt:1"
  | true => .setCommitmentStatus "ten_demo" "cmt:1" "done"

def issueCreated : Json :=
  .obj [("data", .obj [("issueCreate", .obj [("issue", .obj
    [("id", .str "i1"), ("identifier", .str "LIN-1"), ("url", .str "https://linear.app/i1")])])])]

def deckSchedule (who : List Bool) : List (Bool × ListChoice) :=
  who.map fun b => (b, { toChoice := smooth "a", linearSend := .ok (), linearJson := .ok issueCreated })

/-- A step that puts no claims, and commitments only where it finds the ones its handler read. -/
def putsWhatItRead {ι : Type} (pool : ListPool ι) (x : ι × ListChoice) : Bool :=
  match (pool.event listAnswer x).bind putOf with
  | some (tenantId, .commitments read _) => decide (read = commitmentsOf pool.shared tenantId)
  | some (_, .claims _ _ _) => false
  | none => true

theorem readsStored_of_puts {ι : Type} {pool : ListPool ι} {x : ι × ListChoice}
    (h : putsWhatItRead pool x = true) : ReadsStored pool x := by
  unfold putsWhatItRead at h
  unfold ReadsStored
  split at h
  · next hput =>
    rw [hput]
    have hread := of_decide_eq_true h
    exact hread
  · cases h
  · next hput =>
    rw [hput]
    trivial

/-- One after the other, both updates are visible. -/
theorem deck_updates_visible :
    UpdatesVisible linearApi deckCalls (ListPool.start linearApi deckCalls deckStored)
      (deckSchedule [false, false, false, false, true, true, true]) := by
  refine updates_visible _ _ _ _ (EachStep.mono (fun pool x => readsStored_of_puts) ?_)
  decide +kernel

def CommitmentUpdate.isLink : CommitmentUpdate → Bool
  | link _ _ _ _ => true
  | _ => false

/-- The export answers after the commitment is done, and opens it again. -/
theorem completed_open_again :
    let pool := ListPool.start linearApi deckCalls deckStored
    let sched := deckSchedule [false, false, true, true, true, false, false]
    let statuses (n : Nat) := (commitmentsOf (pool.run listAnswer (sched.take n)).shared "ten_demo").map (·.status)
    statuses 6 = ["done"] ∧ statuses 7 = ["open"] ∧ (∀ b, (pool.run listAnswer sched).Returned b) ∧
      ¬ UpdatesVisible linearApi deckCalls pool sched := by
  intro pool sched statuses
  refine ⟨by decide +kernel, by decide +kernel, by decide +kernel, fun h => ?_⟩
  have hdone : (fromEnd (commitmentsOf (pool.run listAnswer (sched.take 5)).shared "ten_demo") 0).map (·.status) =
      some "done" := by decide +kernel
  have hopen : (fromEnd (commitmentsOf (pool.run listAnswer sched).shared "ten_demo") 0).map (·.status) =
      some "open" := by decide +kernel
  let later := ((pool.run listAnswer (sched.take 5)).happened listAnswer (sched.drop 5)).filterMap
    (commitmentUpdate "ten_demo")
  have hadded : CommitmentUpdate.addedBy later = 0 := by decide +kernel
  have hlinks : later.all CommitmentUpdate.isLink = true := by decide +kernel
  obtain ⟨c, hc, hstatus⟩ := Option.map_eq_some_iff.mp hdone
  obtain ⟨d, hd, -, hsame, -⟩ := h.stored (sched.take 5) (sched.drop 5) (List.take_append_drop 5 sched).symm
    "ten_demo" 0 c hc (by rw [hadded]; decide)
  rw [hadded] at hd
  rw [hd, Option.map_some, hsame ?_, hstatus] at hopen
  · exact absurd (Option.some.inj hopen) (by decide)
  · intro u hu hsets
    have hlink := List.all_eq_true.mp hlinks u hu
    cases u with
    | link _ _ _ _ => exact hsets
    | _ => cases hlink

end AiManager.Platform
