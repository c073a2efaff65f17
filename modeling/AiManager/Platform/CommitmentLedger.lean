import AiManager.Lib.StaleCopies
import AiManager.Platform.ListUpdates

/-! # The commitment ledger

Handlers put back whole lists of commitments, which others may have changed since they were read: a done
commitment can be open again, and a new one lost. Whatever the order of the calls, the ledger of a tenant stays
a ledger: no commitment is in it twice, a closed one says when and by what, and what was promised, by whom and
when, is never rewritten. -/

namespace AiManager.Platform

open Lib Twins

/-! ## Ledgers -/

namespace Commitment

/-- What of a commitment no update changes. -/
def promise (c : Commitment) : Commitment :=
  { c with
    status := "", evidence := [], resolvedAt := none, resolveEvidence := none, linearIssueId := none, linearUrl := none }

/-- An open commitment has no resolution, a closed one has; a link to Linear has both parts. -/
structure Settled (c : Commitment) : Prop where
  closed : (c.status = "open" ∧ c.resolvedAt = none ∧ c.resolveEvidence = none) ∨
    ((c.status = "done" ∨ c.status = "dismissed") ∧ c.resolvedAt.isSome ∧ c.resolveEvidence.isSome)
  link : c.linearIssueId.isSome = c.linearUrl.isSome

theorem promise_eq_of_same {c d : Commitment} (h : SamePromise c d) : d.promise = c.promise := by
  rw [h]
  rfl

theorem same_of_promise_eq {c d : Commitment} (h : c.promise = d.promise) : SamePromise c d := by
  obtain ⟨⟩ := c
  obtain ⟨⟩ := d
  unfold promise at h
  unfold SamePromise
  simp only [Commitment.mk.injEq] at h ⊢
  tauto

end Commitment

/-- The commitments of a tenant are kept under their ids. -/
def ledgerRules : ItemRules String String Commitment Commitment where
  fixed := Commitment.promise
  name := Commitment.id
  ok tenantId c := c.tenantId = tenantId ∧ c.Settled
  cap := commitmentsMax

/-- Every tenant's commitments are its own, in shape, within the cap and under ids of their own. An id that a
new commitment could get is not stored before it is handed out. -/
structure LedgersKept (s : DeliveryState) : Prop where
  nodup : ∀ tenantId, ((commitmentsOf s tenantId).map (·.id)).Nodup
  length : ∀ tenantId, (commitmentsOf s tenantId).length ≤ commitmentsMax
  tenant : ∀ tenantId, ∀ c ∈ commitmentsOf s tenantId, c.tenantId = tenantId
  settled : ∀ tenantId, ∀ c ∈ commitmentsOf s tenantId, c.Settled
  issued : ∀ tenantId, ∀ c ∈ commitmentsOf s tenantId, ∀ uuid, c.id = "cmt:" ++ uuid → uuid ∈ s.issued

/-- The two routes that set a status close a commitment. -/
def ListCall.Routed : ListCall → Prop
  | .setCommitmentStatus _ _ status => status = "done" ∨ status = "dismissed"
  | _ => True

/-! ## What a handler saves -/

/-- What a call saves as the commitments of a tenant. -/
def ListOp.saved : ListOp → Option (String × List Commitment × CommitmentUpdate)
  | .putTenantKv tenantId _ _ (.commitments read u) => some (tenantId, read, u)
  | _ => none

/-- An update that sets a status closes the commitment. -/
def CommitmentUpdate.Closes : CommitmentUpdate → Prop
  | setStatus _ status _ => status = "done" ∨ status = "dismissed"
  | _ => True

abbrev ListHistory : Type := List (Σ op, ListOp.Res op)

/-- A commitment as it is made: open, under its own id, for its tenant. -/
structure Commitment.IsNew (c : Commitment) (tenantId uuid : String) : Prop where
  id : c.id = "cmt:" ++ uuid
  tenant : c.tenantId = tenantId
  settled : c.Settled

def SavedNone (q : ListHistory) : Prop := ∀ x ∈ q, x.1.saved = none

/-- The list is what the handler once got as the commitments of the tenant. -/
def HasRead (q : ListHistory) (tenantId : String) (list : List Commitment) : Prop :=
  ∃ stored, ⟨.getTenantKv tenantId commitmentsKv, stored⟩ ∈ q ∧ list = (itemsOf stored).filterMap Commitment.fromValue

/-- A handler saves a list that it has read, with an update that keeps the ledger; a new commitment goes by an
id that the handler was given, and is the first that it saves. -/
structure SavesCopy (q : ListHistory) (tenantId : String) (read : List Commitment) (u : CommitmentUpdate) :
    Prop where
  read : HasRead q tenantId read
  closes : u.Closes
  made : ∀ c ∈ u.added, (∃ uuid, ⟨.newUuid, uuid⟩ ∈ q ∧ c.IsNew tenantId uuid) ∧ SavedNone q

/-- The history of a handler, and that what it saves is a copy of its own. -/
def ledgerMonitor : Monitor ListOp ListOp.Res ListHistory where
  next := (Monitor.history ListOp ListOp.Res).next
  allows q op := ∀ tenantId read u, op.saved = some (tenantId, read, u) → SavesCopy q tenantId read u
  replies _ _ := True

/-! ### New commitments -/

theorem isNew_buildCommitment (upper : Char → String) (uuid createdAt tenantId promiser : String)
    (promiserLabel promisee promiseeLabel : Option String) (text source : String) (channel : Option String)
    (evidence : List String) (confidence : ℕ) :
    (buildCommitment upper uuid createdAt tenantId promiser promiserLabel promisee promiseeLabel text source channel
      evidence confidence).IsNew tenantId uuid :=
  ⟨rfl, rfl, .inl ⟨rfl, rfl, rfl⟩, rfl⟩

theorem CommitmentCreateBody.isNew_commitment (api : ListApi) (dir : List PersonDirEntry)
    (tenantId uuid createdAt : String) (body : CommitmentCreateBody) :
    (body.commitment api dir tenantId uuid createdAt).IsNew tenantId uuid :=
  isNew_buildCommitment _ _ _ _ _ _ _ _ _ _ _ _ _

theorem ChatMessage.isNew_commitment {upper : Char → String} {alphanumeric : Char → Bool} {dir : List PersonDirEntry}
    {tenantId : String} {m : ChatMessage} {make : String → String → Commitment}
    (h : m.commitment upper alphanumeric dir tenantId = some make) (uuid createdAt : String) :
    (make uuid createdAt).IsNew tenantId uuid := by
  obtain ⟨⟨summary, conf, tag⟩, -, hmake⟩ := Option.bind_eq_some_iff.mp h
  dsimp only at hmake
  have hclear : ¬ conf < 72 := by
    intro hconf
    rw [if_pos hconf] at hmake
    cases hmake
  rw [if_neg hclear] at hmake
  obtain rfl := Option.some.inj hmake
  exact isNew_buildCommitment _ _ _ _ _ _ _ _ _ _ _ _ _

/-! ### Handlers -/

/-- More calls, of which none saves. -/
structure Quietly (q q' : ListHistory) : Prop where
  mem : ∀ x ∈ q, x ∈ q'
  savedNone : SavedNone q → SavedNone q'

theorem Quietly.refl (q : ListHistory) : Quietly q q := ⟨fun _ hx => hx, id⟩

theorem Quietly.cons {q q' : ListHistory} (h : Quietly q q') {x : Σ op, ListOp.Res op} (hx : x.1.saved = none) :
    Quietly q (x :: q') :=
  ⟨fun y hy => List.mem_cons_of_mem x (h.mem y hy), fun hq => List.forall_mem_cons.mpr ⟨hx, h.savedNone hq⟩⟩

theorem HasRead.mono {q q' : ListHistory} {tenantId : String} {list : List Commitment} (h : HasRead q tenantId list)
    (hmore : Quietly q q') : HasRead q' tenantId list := by
  obtain ⟨stored, hmem, hlist⟩ := h
  exact ⟨stored, hmore.mem _ hmem, hlist⟩

/-- A handler that follows the monitor from a history on. -/
def SavesCopies (p : ListM Unit) (q : ListHistory) : Prop := p.run.Meets ledgerMonitor (fun _ _ => True) q

section Programs
variable {api : ListApi} {tenantId : String} {q : ListHistory}

/-- A call that saves no commitments may be made. -/
theorem allows_quiet {op : ListOp} (hop : op.saved = none) : ledgerMonitor.allows q op := by
  intro tenantId read u hsaved
  rw [hop] at hsaved
  cases hsaved

theorem savesCopies_bind {op : ListOp} {f : op.Res → ListM Unit} (hop : op.saved = none)
    (h : ∀ r, SavesCopies (f r) (⟨op, r⟩ :: q)) : SavesCopies (callList op >>= f) q :=
  Prog.meets_exceptT_bind.mpr ⟨allows_quiet hop, fun r _ => h r⟩

theorem savesCopies_directory {f : List PersonDirEntry → ListM Unit}
    (h : ∀ dir q', Quietly q q' → SavesCopies (f dir) q') : SavesCopies (buildPersonDirectory tenantId >>= f) q := by
  refine Prog.meets_exceptT_bind.mpr ?_
  refine Prog.meets_exceptT_bind.mpr ⟨allows_quiet rfl, fun twins _ => ?_⟩
  refine Prog.meets_exceptT_bind.mpr ⟨allows_quiet rfl, fun maps _ => ?_⟩
  exact h _ _ (((Quietly.refl q).cons rfl).cons rfl)

/-- What is loaded from an embedded store is a copy. -/
theorem savesCopies_load {f : List Commitment → ListM Unit}
    (h : ∀ list q', Quietly q q' → (api.embedded = true → HasRead q' tenantId list) → SavesCopies (f list) q') :
    SavesCopies (loadCommitments api tenantId >>= f) q := by
  unfold SavesCopies loadCommitments
  split_ifs with hembedded
  · refine Prog.meets_exceptT_bind.mpr (h [] q (.refl q) fun htrue => ?_)
    rw [htrue] at hembedded
    cases hembedded
  · refine Prog.meets_exceptT_bind.mpr (Prog.meets_exceptT_bind.mpr ⟨allows_quiet rfl, fun stored _ => ?_⟩)
    exact h _ _ ((Quietly.refl q).cons rfl) fun _ => ⟨stored, List.mem_cons_self, rfl⟩

theorem savesCopies_save {list read : List Commitment} {u : CommitmentUpdate}
    (h : api.embedded = true → SavesCopy q tenantId read u) :
    SavesCopies (saveCommitments api tenantId list read u) q := by
  unfold SavesCopies saveCommitments
  split_ifs with hembedded
  · trivial
  · refine ⟨?_, fun _ _ => trivial⟩
    rintro _ _ _ ⟨⟩
    exact h (by simpa using hembedded)

/-- A new commitment, under an id that the handler was given. -/
theorem savesCopies_add {list : List Commitment} {c : Commitment} {uuid : String} (hq : SavedNone q)
    (huuid : ⟨.newUuid, uuid⟩ ∈ q) (hnew : c.IsNew tenantId uuid)
    (hread : api.embedded = true → HasRead q tenantId list) :
    SavesCopies (saveCommitments api tenantId (list ++ [c]) list (.add c)) q := by
  refine savesCopies_save fun hembedded => ⟨hread hembedded, trivial, ?_⟩
  intro d hd
  obtain rfl := List.mem_singleton.mp hd
  exact ⟨⟨uuid, huuid, hnew⟩, hq⟩

/-- An update that adds nothing. -/
theorem savesCopies_change {list saved : List Commitment} {u : CommitmentUpdate} (hcloses : u.Closes)
    (hadded : u.added = []) (hread : api.embedded = true → HasRead q tenantId list) :
    SavesCopies (saveCommitments api tenantId saved list u) q := by
  refine savesCopies_save fun hembedded => ⟨hread hembedded, hcloses, ?_⟩
  rw [hadded]
  intro c hc
  cases hc

-- a text that is not given has no length to compute
attribute [local irreducible] Text.trim

theorem maybeHandleCommitmentFromSlack_saves (m : ChatMessage) (hq : SavedNone q) :
    SavesCopies (maybeHandleCommitmentFromSlack api tenantId m) q := by
  refine savesCopies_directory fun dir q₁ h₁ => ?_
  refine savesCopies_load fun list q₂ h₂ hread => ?_
  dsimp only
  generalize (isResolutionPhrase (Text.toAsciiLowercase m.text) && _) = resolved
  cases resolved with
  | true =>
    refine savesCopies_bind rfl fun now => ?_
    exact savesCopies_change trivial rfl fun hembedded => (hread hembedded).mono ((Quietly.refl q₂).cons rfl)
  | false =>
    cases hmake : m.commitment api.upper api.alphanumeric dir tenantId with
    | none => trivial
    | some make =>
      refine savesCopies_bind rfl fun uuid => savesCopies_bind rfl fun now => ?_
      have hmore : Quietly q₂ (⟨.utcNow, now⟩ :: ⟨.newUuid, uuid⟩ :: q₂) := ((Quietly.refl q₂).cons rfl).cons rfl
      refine savesCopies_add (hmore.savedNone (h₂.savedNone (h₁.savedNone hq)))
        (List.mem_cons_of_mem _ List.mem_cons_self) (m.isNew_commitment hmake uuid _) fun hembedded => ?_
      exact (hread hembedded).mono hmore

theorem createCommitment_saves (body : CommitmentCreateBody) (hq : SavedNone q) :
    SavesCopies (createCommitment api tenantId body) q := by
  unfold createCommitment
  split_ifs
  · trivial
  · refine savesCopies_directory fun dir q₁ h₁ => ?_
    refine savesCopies_bind rfl fun uuid => savesCopies_bind rfl fun now => ?_
    refine savesCopies_load fun list q₂ h₂ hread => ?_
    have hnone : SavedNone q₂ := h₂.savedNone (((Quietly.refl q₁).cons rfl |>.cons rfl).savedNone (h₁.savedNone hq))
    exact savesCopies_add hnone (h₂.mem _ (List.mem_cons_of_mem _ List.mem_cons_self))
      (body.isNew_commitment api dir tenantId uuid _) hread

theorem setCommitmentStatus_saves (commitmentId : String) {status : String}
    (hstatus : status = "done" ∨ status = "dismissed") :
    SavesCopies (setCommitmentStatus api tenantId commitmentId status) q := by
  refine savesCopies_load fun list q₁ h₁ hread => ?_
  split_ifs
  · trivial
  · refine savesCopies_bind rfl fun now => ?_
    exact savesCopies_change hstatus rfl fun hembedded => (hread hembedded).mono ((Quietly.refl q₁).cons rfl)

theorem exportCommitmentLinear_saves (commitmentId : String) :
    SavesCopies (exportCommitmentLinear api tenantId commitmentId) q := by
  unfold exportCommitmentLinear
  split_ifs
  · trivial
  · refine savesCopies_load fun list q₁ h₁ hread => ?_
    cases list.find? fun c => c.id = commitmentId with
    | none => trivial
    | some cmt =>
      dsimp only
      split_ifs
      · trivial
      · refine savesCopies_bind rfl fun sent => ?_
        cases sent with
        | error e => trivial
        | ok _ =>
          refine savesCopies_bind rfl fun answer => ?_
          cases answer with
          | error e => trivial
          | ok body =>
            dsimp only
            cases linearIssue api.jsonText body with
            | error e => trivial
            | ok issue =>
              exact savesCopies_change trivial rfl fun hembedded =>
                (hread hembedded).mono (((Quietly.refl q₁).cons rfl).cons rfl)

theorem pushClaim_saves (list : ClaimList) (claim : Json) : SavesCopies (pushClaim api list tenantId claim) q := by
  unfold pushClaim
  split_ifs
  · trivial
  · exact savesCopies_bind rfl fun _ => ⟨allows_quiet rfl, fun _ _ => trivial⟩

theorem intentClaimSupersede_saves (claimId : String) : SavesCopies (intentClaimSupersede api tenantId claimId) q := by
  unfold intentClaimSupersede
  split_ifs
  · trivial
  · refine savesCopies_bind rfl fun _ => savesCopies_bind rfl fun _ => savesCopies_bind rfl fun _ => ?_
    dsimp only
    split_ifs
    · trivial
    · exact savesCopies_bind rfl fun _ => ⟨allows_quiet rfl, fun _ _ => trivial⟩

/-- **Every handler** saves copies of its own. -/
theorem listProgram_saves {call : ListCall} (hcall : call.Routed) (hq : SavedNone q) :
    SavesCopies (call.program api) q := by
  cases call with
  | pushSlackIntentClaim tenantId claim => exact pushClaim_saves .slack claim
  | pushExplicitClaim tenantId claim => exact pushClaim_saves .explicit claim
  | intentClaimSupersede tenantId claimId => exact intentClaimSupersede_saves claimId
  | commitmentFromSlack tenantId m => exact maybeHandleCommitmentFromSlack_saves m hq
  | createCommitment tenantId body => exact createCommitment_saves body hq
  | setCommitmentStatus tenantId commitmentId status => exact setCommitmentStatus_saves commitmentId hcall
  | exportCommitmentLinear tenantId commitmentId => exact exportCommitmentLinear_saves commitmentId

end Programs

/-! ## What an update keeps -/

namespace CommitmentUpdate

theorem promise_change (u : CommitmentUpdate) (c : Commitment) : (u.change c).promise = c.promise :=
  Commitment.promise_eq_of_same (same_change c u)

theorem id_change (u : CommitmentUpdate) (c : Commitment) : (u.change c).id = c.id := by
  show (u.change c).promise.id = c.promise.id
  rw [u.promise_change]

theorem tenantId_change (u : CommitmentUpdate) (c : Commitment) : (u.change c).tenantId = c.tenantId := by
  show (u.change c).promise.tenantId = c.promise.tenantId
  rw [u.promise_change]

/-- A settled commitment stays settled: what closes it says when and by what. -/
theorem settled_change {u : CommitmentUpdate} (hu : u.Closes) {c : Commitment} (h : c.Settled) :
    (u.change c).Settled := by
  cases u with
  | add _ => exact h
  | resolve m label now =>
    dsimp only [change, ChatMessage.resolved]
    split_ifs
    · exact ⟨.inr ⟨.inl rfl, rfl, rfl⟩, h.link⟩
    · exact h
  | setStatus id status now =>
    have hstatus : status = "done" ∨ status = "dismissed" := hu
    dsimp only [change]
    rw [if_pos hstatus]
    split_ifs
    · exact ⟨.inr ⟨hstatus, rfl, rfl⟩, h.link⟩
    · exact h
  | link id issueId url evidence =>
    dsimp only [change]
    split_ifs
    · exact ⟨h.closed, rfl⟩
    · exact h

theorem added_length (u : CommitmentUpdate) : u.added = u.added.head?.toList := by cases u <;> rfl

end CommitmentUpdate

/-! ## The handlers work on copies -/

section Refinement
variable {ι : Type} [DecidableEq ι]

/-- What handler `i` has called, newest first. -/
def ListPool.history (pool : ListPool ι) (i : ι) : ListHistory :=
  watch (Monitor.history ListOp ListOp.Res).next [] i pool.trace

/-- The ledgers of the pool are the lists of `c`, and the histories of its handlers are accounted for. -/
structure Refines (pool : ListPool ι) (c : Copies ι String String Commitment) : Prop where
  stored : ∀ tenantId, c.stored tenantId = commitmentsOf pool.shared tenantId
  taken : ∀ uuid, "cmt:" ++ uuid ∈ c.taken → uuid ∈ pool.shared.issued
  owns : ∀ i uuid, ⟨.newUuid, uuid⟩ ∈ pool.history i → SavedNone (pool.history i) → c.owns i ("cmt:" ++ uuid)
  read : ∀ i tenantId list, HasRead (pool.history i) tenantId list → c.read tenantId list

theorem cmt_injective : Function.Injective fun uuid : String => "cmt:" ++ uuid := by
  intro a b h
  have hlists := congrArg String.toList h
  exact String.ext (by simpa using hlists)

omit [DecidableEq ι] in
/-- The update that a handler saves, as an update of its copy. -/
theorem SavesCopy.update {q : ListHistory} {tenantId : String} {read : List Commitment} {u : CommitmentUpdate}
    (h : SavesCopy q tenantId read u) {c : Copies ι String String Commitment} {i : ι}
    (howns : ∀ uuid, ⟨.newUuid, uuid⟩ ∈ q → SavedNone q → c.owns i ("cmt:" ++ uuid)) :
    c.Update ledgerRules i tenantId read (u.apply read) u.added.head? := by
  have hall : u.apply read <:+ read.map (fun c => u.change c) ++ u.added := List.drop_suffix _ _
  refine ⟨fun d hd => ?_, ?_, fun d hd => ?_, ?_⟩
  · rcases List.mem_append.mp (hall.subset hd) with hold | hnew
    · obtain ⟨c, hc, rfl⟩ := List.mem_map.mp hold
      refine .inr ⟨c, hc, u.promise_change c, fun ⟨htenant, hsettled⟩ => ?_⟩
      exact ⟨(u.tenantId_change c).trans htenant, CommitmentUpdate.settled_change h.closes hsettled⟩
    · rw [u.added_length] at hnew
      exact .inl (Option.mem_toList.mp hnew)
  · have hnames : (read.map (fun c => u.change c) ++ u.added).map ledgerRules.nameOf =
        (read ++ u.added.head?.toList).map ledgerRules.nameOf := by
      rw [← u.added_length, List.map_append, List.map_append, List.map_map]
      exact congrArg (· ++ _) (List.map_congr_left fun c _ => u.id_change c)
    rw [← hnames]
    exact hall.sublist.map _
  · have hadded : d ∈ u.added := by
      rw [u.added_length]
      exact Option.mem_toList.mpr hd
    obtain ⟨⟨uuid, huuid, hnew⟩, hnone⟩ := h.made d hadded
    refine ⟨?_, hnew.tenant, hnew.settled⟩
    have hname : ledgerRules.nameOf d = "cmt:" ++ uuid := hnew.id
    rw [hname]
    exact howns uuid huuid hnone
  · show (keepLast commitmentsMax _).length ≤ commitmentsMax
    rw [length_keepLast]
    exact min_le_left _ _

theorem history_after (pool : ListPool ι) (i : ι) (op : ListOp) (r : op.Res)
    (k : op.Res → Prog ListOp ListOp.Res (Except String Unit)) (s : DeliveryState) (j : ι) :
    ListPool.history (pool.after i op r k s) j = if j = i then ⟨op, r⟩ :: pool.history i else pool.history j := by
  unfold ListPool.history
  rw [Pool.after_trace]
  split_ifs with hj
  · rw [hj, watch_cons_self]
    rfl
  · exact watch_cons_ne _ _ (Ne.symm hj) _ _ _

/-- The lists after a call, which adds to the history of its handler. -/
theorem Refines.after {pool : ListPool ι} {c : Copies ι String String Commitment} (h : Refines pool c) (i : ι)
    (op : ListOp) (r : op.Res) (k : op.Res → Prog ListOp ListOp.Res (Except String Unit)) (s : DeliveryState)
    {c' : Copies ι String String Commitment} (hstored : ∀ tenantId, c'.stored tenantId = commitmentsOf s tenantId)
    (htaken : ∀ uuid, "cmt:" ++ uuid ∈ c'.taken → uuid ∈ s.issued)
    (howns : ∀ j n, c.owns j n → (j = i → op.saved = none) → c'.owns j n)
    (hmade : ∀ uuid, (⟨.newUuid, uuid⟩ : Σ op, ListOp.Res op) = ⟨op, r⟩ → c'.owns i ("cmt:" ++ uuid))
    (hread : ∀ tenantId list, c.read tenantId list → c'.read tenantId list)
    (hgot : ∀ tenantId stored, (⟨.getTenantKv tenantId commitmentsKv, stored⟩ : Σ op, ListOp.Res op) = ⟨op, r⟩ →
      c'.read tenantId ((itemsOf stored).filterMap Commitment.fromValue)) :
    Refines (pool.after i op r k s) c' where
  stored := hstored
  taken := htaken
  owns j uuid huuid hnone := by
    rw [history_after] at huuid hnone
    split_ifs at huuid hnone with hj
    · obtain ⟨hop, hold⟩ := List.forall_mem_cons.mp hnone
      rcases List.mem_cons.mp huuid with hnew | htail
      · rw [hj]
        exact hmade uuid hnew
      · rw [hj]
        exact howns i _ (h.owns i uuid htail hold) fun _ => hop
    · exact howns j _ (h.owns j uuid huuid hnone) fun hji => absurd hji hj
  read j tenantId list := by
    rw [history_after]
    rintro ⟨stored, hmem, rfl⟩
    split_ifs at hmem with hj
    · rcases List.mem_cons.mp hmem with hnew | htail
      · exact hgot tenantId stored hnew
      · exact hread _ _ (h.read i tenantId _ ⟨stored, htail, rfl⟩)
    · exact hread _ _ (h.read j tenantId _ ⟨stored, hmem, rfl⟩)

/-- A call that leaves the ledgers, hands out no id and reads no commitments. -/
theorem Refines.quiet {pool : ListPool ι} {c : Copies ι String String Commitment} (h : Refines pool c) (i : ι)
    (op : ListOp) (r : op.Res) (k : op.Res → Prog ListOp ListOp.Res (Except String Unit)) {s : DeliveryState}
    (hsame : ∀ tenantId, commitmentsOf s tenantId = commitmentsOf pool.shared tenantId)
    (hissued : s.issued = pool.shared.issued)
    (hnew : ∀ uuid, (⟨.newUuid, uuid⟩ : Σ op, ListOp.Res op) ≠ ⟨op, r⟩)
    (hget : ∀ tenantId stored, (⟨.getTenantKv tenantId commitmentsKv, stored⟩ : Σ op, ListOp.Res op) ≠ ⟨op, r⟩) :
    Refines (pool.after i op r k s) c := by
  refine h.after i op r k s (fun t => (h.stored t).trans (hsame t).symm) (fun uuid huuid => ?_)
    (fun _ _ hold _ => hold) (fun uuid heq => absurd heq (hnew uuid)) (fun _ _ hold => hold)
    fun t stored heq => absurd heq (hget t stored)
  rw [hissued]
  exact h.taken uuid huuid

/-- The commitments after a put. -/
theorem commitmentsOf_put (s : DeliveryState) (tenantId : String) (meant : Meant) (t : String) :
    commitmentsOf { s with store := s.store.putTenantKv tenantId meant.key meant.value } t =
      match meant with
      | .commitments read u => if t = tenantId then u.apply read else commitmentsOf s t
      | .claims _ _ _ => commitmentsOf s t := by
  unfold commitmentsOf
  dsimp only
  rw [getTenantKv_put]
  cases meant with
  | claims list read u =>
    rw [if_neg fun heq => list.key_ne_commitments heq.2.symm]
  | commitments read u =>
    dsimp only
    by_cases ht : t = tenantId
    · rw [if_pos ⟨ht, rfl⟩, if_pos ht, fromValue_value]
    · rw [if_neg fun heq => ht heq.1, if_neg ht]

/-- **One call** is a step of a worker, or none. -/
theorem Refines.step {pool : ListPool ι} {c : Copies ι String String Commitment} (h : Refines pool c) {i : ι}
    {choice : ListChoice} {op : ListOp} {r : op.Res} (k : op.Res → Prog ListOp ListOp.Res (Except String Unit))
    {s : DeliveryState} (hs : listAnswer choice op pool.shared = some (r, s)) (hmeans : op.Means)
    (hallows : ledgerMonitor.allows (pool.history i) op) :
    ∃ c', Relation.ReflTransGen (Copies.Step ledgerRules) c c' ∧ Refines (pool.after i op r k s) c' := by
  cases op with
  | utcNow | linearSend _ | linearJson =>
    cases hs
    refine ⟨c, .refl, h.quiet i _ _ k (fun _ => rfl) rfl ?_ ?_⟩ <;> intros <;> rintro ⟨⟩
  | listTwins _ | listSlackMaps _ =>
    obtain ⟨rfl, -⟩ := reading_eq hs
    refine ⟨c, .refl, h.quiet i _ _ k (fun _ => rfl) rfl ?_ ?_⟩ <;> intros <;> rintro ⟨⟩
  | newUuid =>
    unfold listAnswer at hs
    dsimp only at hs
    split_ifs at hs with hused
    obtain ⟨rfl, rfl⟩ := Prod.mk.inj (Option.some.inj hs)
    have hstep := Copies.Step.name (R := ledgerRules) (c := c) i fun htaken => hused (h.taken _ htaken)
    refine ⟨_, .single hstep, h.after i _ _ k _ h.stored (fun uuid huuid => ?_) (fun _ _ hold _ => .inl hold)
      (fun uuid heq => ?_) (fun _ _ hold => hold) fun t stored heq => ?_⟩
    · rcases Set.mem_insert_iff.mp huuid with heq | hold
      · rw [cmt_injective heq]
        exact List.mem_cons_self
      · exact List.mem_cons_of_mem _ (h.taken uuid hold)
    · cases heq
      exact .inr ⟨rfl, rfl⟩
    · cases heq
  | getTenantKv tenantId key =>
    cases hs
    by_cases hkey : key = commitmentsKv
    · subst hkey
      refine ⟨_, .single (Copies.Step.read tenantId), h.after i _ _ k _ h.stored h.taken (fun _ _ hold _ => hold)
        (fun uuid heq => ?_) (fun _ _ hold => .inl hold) fun t stored heq => ?_⟩
      · cases heq
      · cases heq
        exact .inr ⟨rfl, (h.stored tenantId).symm⟩
    · refine ⟨c, .refl, h.quiet i _ _ k (fun _ => rfl) rfl ?_ ?_⟩
      · rintro uuid ⟨⟩
      · rintro t stored ⟨⟩
        exact hkey rfl
  | putTenantKv tenantId key value meant =>
    obtain ⟨rfl, rfl⟩ := hmeans
    cases hs
    cases meant with
    | claims list read u =>
      refine ⟨c, .refl, h.quiet i _ _ k (fun t => commitmentsOf_put _ _ _ t) rfl ?_ ?_⟩ <;> intros <;> rintro ⟨⟩
    | commitments read u =>
      have hsaves : SavesCopy (pool.history i) tenantId read u := hallows tenantId read u rfl
      have hstep := Copies.Step.put i (h.read i tenantId read hsaves.read) (hsaves.update (h.owns i))
      refine ⟨_, .single hstep, h.after i _ _ k _ (fun t => ?_) h.taken (fun j n hold hj => ⟨hold, fun heq => ?_⟩)
        (fun uuid heq => ?_) (fun _ _ hold => hold) fun t stored heq => ?_⟩
      · rw [commitmentsOf_put]
        dsimp only
        by_cases ht : t = tenantId
        · rw [if_pos ht, ht, Function.update_self]
        · rw [if_neg ht, Function.update_of_ne ht]
          exact h.stored t
      · cases hj heq
      · cases heq
      · cases heq

/-- **A run** of handlers is a run of workers on copies. -/
theorem Refines.run {pool : ListPool ι} {c : Copies ι String String Commitment} (h : Refines pool c)
    (hmeans : ∀ i, (pool.threads i).CallsOnly ListOp.Means)
    (htracks : pool.Tracks ledgerMonitor (fun _ _ _ => True) fun _ => []) (sched : List (ι × ListChoice)) :
    (pool.run listAnswer sched).Tracks ledgerMonitor (fun _ _ _ => True) (fun _ => []) ∧
      ∃ c', Relation.ReflTransGen (Copies.Step ledgerRules) c c' ∧ Refines (pool.run listAnswer sched) c' := by
  have hrun : (pool.run listAnswer sched).Tracks ledgerMonitor (fun _ _ _ => True) (fun _ => []) ∧
      (∀ i, ((pool.run listAnswer sched).threads i).CallsOnly ListOp.Means) ∧
      ∃ c', Relation.ReflTransGen (Copies.Step ledgerRules) c c' ∧ Refines (pool.run listAnswer sched) c' := by
    refine Pool.run_induction (I := fun pool => (∀ i, (pool.threads i).CallsOnly ListOp.Means) ∧
        ∃ c', Relation.ReflTransGen (Copies.Step ledgerRules) c c' ∧ Refines pool c')
      (C := fun _ _ => True) (P := fun _ => True) (fun _ _ _ _ _ _ _ _ => trivial) ?_ htracks ⟨hmeans, c, .refl, h⟩
      sched (fun _ _ => trivial) (.of_forall (fun _ _ => trivial) _ _)
    rintro pool i choice op k r s - ⟨hcalls, c₁, hreach, hrefines⟩ - - hk hs - hallows -
    have hcall := hcalls i
    rw [hk] at hcall
    obtain ⟨c₂, hstep, hnext⟩ := hrefines.step k hs hcall.1 hallows
    refine ⟨?_, c₂, hreach.trans hstep, hnext⟩
    rw [← Pool.step_eq_after hk hs]
    exact Pool.step_callsOnly hcalls (i, choice)
  exact ⟨hrun.1, hrun.2.2⟩

/-- The lists of a sound state are kept ledgers. -/
theorem Refines.ledgersKept {pool : ListPool ι} {c : Copies ι String String Commitment} (h : Refines pool c)
    (hsound : c.Sound ledgerRules) : LedgersKept pool.shared where
  nodup t := h.stored t ▸ hsound.stored_nodup t
  length t := h.stored t ▸ hsound.stored_length t
  tenant t d hd := (hsound.seen_ok t d (hsound.stored_seen t d (h.stored t ▸ hd))).1
  settled t d hd := (hsound.seen_ok t d (hsound.stored_seen t d (h.stored t ▸ hd))).2
  issued t d hd uuid hid := by
    have htaken : d.id ∈ c.taken := hsound.seen_taken t d (hsound.stored_seen t d (h.stored t ▸ hd))
    rw [hid] at htaken
    exact h.taken uuid htaken

/-- **Whatever the order of the calls**, the ledgers are kept, and of a commitment that is stored at two times
neither who promised what to whom nor when is rewritten. -/
theorem ledgers_kept (api : ListApi) (calls : ι → ListCall) (hroutes : ∀ i, (calls i).Routed) (s : DeliveryState)
    (hs : LedgersKept s) (xs ys : List (ι × ListChoice)) :
    let pool := ListPool.start api calls s
    LedgersKept (pool.run listAnswer (xs ++ ys)).shared ∧
      ∀ tenantId c d, c ∈ commitmentsOf (pool.run listAnswer xs).shared tenantId →
        d ∈ commitmentsOf (pool.run listAnswer (xs ++ ys)).shared tenantId → c.id = d.id → SamePromise c d := by
  intro pool
  let c₀ : Copies ι String String Commitment :=
    .start (commitmentsOf s) {id | ∀ uuid, id = "cmt:" ++ uuid → uuid ∈ s.issued}
  have hsound : c₀.Sound ledgerRules := Copies.sound_start hs.nodup hs.length
    (fun t d hd => ⟨hs.tenant t d hd, hs.settled t d hd⟩) fun t d hd => hs.issued t d hd
  have hstart : Refines pool c₀ := by
    refine ⟨fun _ => rfl, fun uuid htaken => htaken uuid rfl, fun i uuid hmem => ?_, fun i t list => ?_⟩
    · cases hmem
    · rintro ⟨stored, hmem, -⟩
      cases hmem
  have htracks : pool.Tracks ledgerMonitor (fun _ _ _ => True) fun _ => [] := fun i =>
    listProgram_saves (hroutes i) fun x hx => by cases hx
  have hmeans : ∀ i, (pool.threads i).CallsOnly ListOp.Means := fun i => listProgram_means (calls i)
  obtain ⟨htracks₁, c₁, hreach₁, hrefines₁⟩ := hstart.run hmeans htracks xs
  obtain ⟨-, c₂, hreach₂, hrefines₂⟩ := hrefines₁.run (Pool.run_callsOnly hmeans xs) htracks₁ ys
  have hsound₁ := Copies.sound_of_reach hreach₁ hsound
  rw [Pool.run_append]
  refine ⟨hrefines₂.ledgersKept (Copies.sound_of_reach hreach₂ hsound₁), fun t c d hc hd hid => ?_⟩
  rw [← hrefines₁.stored t] at hc
  rw [← hrefines₂.stored t] at hd
  exact Commitment.same_of_promise_eq (Copies.fixed_of_reach hreach₂ hsound₁ hc hd hid)

end Refinement

/-! ### The export that opens a done commitment again -/

def deckIssued : DeliveryState := { deckStored with issued := ["1"] }

theorem commitmentsOf_deckIssued (tenantId : String) :
    commitmentsOf deckIssued tenantId = if tenantId = "ten_demo" then [owedDeck] else [] := by
  unfold commitmentsOf deckIssued deckStored
  dsimp only
  rw [getTenantKv_put]
  by_cases ht : tenantId = "ten_demo"
  · rw [if_pos ⟨ht, rfl⟩, if_pos ht]
    exact Commitment.filterMap_fromValue [owedDeck]
  · rw [if_neg fun h => ht h.1, if_neg ht]
    rfl

theorem deckIssued_ledgersKept : LedgersKept deckIssued := by
  have hmem : ∀ tenantId, ∀ c ∈ commitmentsOf deckIssued tenantId, tenantId = "ten_demo" ∧ c = owedDeck := by
    intro tenantId c hc
    rw [commitmentsOf_deckIssued] at hc
    split_ifs at hc with ht
    · exact ⟨ht, List.mem_singleton.mp hc⟩
    · cases hc
  refine ⟨fun t => ?_, fun t => ?_, fun t c hc => ?_, fun t c hc => ?_, fun t c hc uuid hid => ?_⟩
  · rw [commitmentsOf_deckIssued]
    split_ifs
    · exact List.nodup_singleton _
    · exact List.nodup_nil
  · rw [commitmentsOf_deckIssued]
    split_ifs <;> decide
  · obtain ⟨rfl, rfl⟩ := hmem t c hc
    rfl
  · obtain ⟨rfl, rfl⟩ := hmem t c hc
    exact ⟨.inl ⟨rfl, rfl, rfl⟩, rfl⟩
  · obtain ⟨rfl, rfl⟩ := hmem t c hc
    have huuid : "1" = uuid := cmt_injective hid
    exact huuid ▸ List.mem_cons_self

/-- The commitment is done, then open again; its ledger is kept. -/
theorem reopened_ledgers_kept :
    let pool := ListPool.start linearApi deckCalls deckIssued
    let sched := deckSchedule [false, false, true, true, true, false, false]
    let statuses (n : Nat) := (commitmentsOf (pool.run listAnswer (sched.take n)).shared "ten_demo").map (·.status)
    statuses 6 = ["done"] ∧ statuses 7 = ["open"] ∧ LedgersKept (pool.run listAnswer sched).shared := by
  intro pool sched statuses
  have hroutes : ∀ b, (deckCalls b).Routed := by
    intro b
    cases b with
    | false => trivial
    | true => exact .inl rfl
  have hsched : sched.take 6 ++ sched.drop 6 = sched := List.take_append_drop 6 sched
  have hkept := ledgers_kept linearApi deckCalls hroutes deckIssued deckIssued_ledgersKept (sched.take 6) (sched.drop 6)
  rw [hsched] at hkept
  exact ⟨by decide +kernel, by decide +kernel, hkept.1⟩

end AiManager.Platform
