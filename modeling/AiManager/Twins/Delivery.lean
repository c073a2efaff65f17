import AiManager.Lib.Fallible
import AiManager.Twins.NotifyPolicy
import AiManager.Twins.StateMachine
import AiManager.Twins.Store

/-! # Delivery of drafts

The delivery service as programs over atomic calls: one call of the twin store, one call of the chat
client, one reading of the clock or one fresh identifier is one step. What the calls do to the shared
state is `answer`; a fault of the store, the outcome of a chat call, the time and the identifier are
the choices of the environment. -/

namespace AiManager.Twins

open Lib

/-! ## Calls -/

/-- Result of an outbound post. -/
structure DeliveryPostResult where
  channel : String
  ts : String

inductive DeliveryAdapterKind where
  | slack
  | teams
  | mock
  deriving DecidableEq

inductive DeliveryOp where
  | utcNow
  | newUuid
  | getDraft (tenantId draftId : String)
  | getDraftByLedger (tenantId ledgerId : String)
  | getLedger (tenantId ledgerId : String)
  | getPublishByLedger (tenantId ledgerId : String)
  | getSlackMap (tenantId globalUserId : String)
  | putDraft (draft : DraftDelivery)
  | updateDraft (draft : DraftDelivery)
  | putPublishIfAbsent (rec : PublishRecord)
  | upsertTwin (twin : Twin)
  | postDm (userId text : String)
  | postChannel (channelId text : String)
  | postDraftDm (userId draftId draftText deadlineS : String)

namespace DeliveryOp

/-- What a successful call answers. -/
@[reducible] def Val : DeliveryOp → Type
  | utcNow => DateTime
  | newUuid => String
  | getDraft _ _ => Option DraftDelivery
  | getDraftByLedger _ _ => Option DraftDelivery
  | getLedger _ _ => Option LedgerSnapshot
  | getPublishByLedger _ _ => Option PublishRecord
  | getSlackMap _ _ => Option SlackUserMap
  | putDraft _ => Unit
  | updateDraft _ => Unit
  | putPublishIfAbsent _ => Bool
  | upsertTwin _ => Unit
  | postDm _ _ => DeliveryPostResult
  | postChannel _ _ => DeliveryPostResult
  | postDraftDm _ _ _ _ => DeliveryPostResult

abbrev Res : DeliveryOp → Type := Fallible TwinError Val

def writesDraft : DeliveryOp → Bool
  | putDraft _ | updateDraft _ => true
  | _ => false

/-- The call writes the draft of this key. -/
def Writes (k : String × String) : DeliveryOp → Prop
  | putDraft draft | updateDraft draft => draft.key = k
  | _ => False

end DeliveryOp

/-- A post the chat service accepted. -/
inductive ChatPost where
  | dm (userId text : String)
  | channel (channelId text : String)
  | draftDm (userId draftId draftText : String)
  deriving DecidableEq

/-- What the calls share: the store, the identifiers handed out, and the posts, newest first. -/
structure DeliveryState where
  store : InMemoryTwinStore
  issued : List String
  posts : List ChatPost

/-- What the environment decides at a call. -/
structure Choice where
  now : DateTime
  uuid : String
  dm : TwinResult DeliveryPostResult
  channel : TwinResult DeliveryPostResult
  fault : Option TwinError

namespace DeliveryState

def reading {α : Type} (s : DeliveryState) (c : Choice) (v : α) :
    Option (TwinResult α × DeliveryState) :=
  match c.fault with
  | some e => some (.error e, s)
  | none => some (.ok v, s)

def writing {α : Type} (s : DeliveryState) (c : Choice)
    (f : InMemoryTwinStore → TwinResult α × InMemoryTwinStore) :
    Option (TwinResult α × DeliveryState) :=
  match c.fault with
  | some e => some (.error e, s)
  | none => some ((f s.store).1, { s with store := (f s.store).2 })

def posting (s : DeliveryState) (outcome : TwinResult DeliveryPostResult) (post : ChatPost) :
    Option (TwinResult DeliveryPostResult × DeliveryState) :=
  match outcome with
  | .error e => some (.error e, s)
  | .ok p => some (.ok p, { s with posts := post :: s.posts })

end DeliveryState

/-- What a call does. An identifier that was handed out before is not handed out again. -/
def answer : Answer DeliveryOp DeliveryOp.Res DeliveryState Choice := fun c op s =>
  match op with
  | .utcNow => some (.ok c.now, s)
  | .newUuid =>
    if c.uuid ∈ s.issued then none else some (.ok c.uuid, { s with issued := c.uuid :: s.issued })
  | .getDraft tenantId draftId => s.reading c (s.store.getDraft tenantId draftId)
  | .getDraftByLedger tenantId ledgerId => s.reading c (s.store.getDraftByLedger tenantId ledgerId)
  | .getLedger tenantId ledgerId => s.reading c (s.store.getLedger tenantId ledgerId)
  | .getPublishByLedger tenantId ledgerId =>
    s.reading c (s.store.getPublishByLedger tenantId ledgerId)
  | .getSlackMap tenantId userId => s.reading c (s.store.getSlackMap tenantId userId)
  | .putDraft draft => s.writing c fun st => st.putDraft draft
  | .updateDraft draft => s.writing c fun st => st.updateDraft draft
  | .putPublishIfAbsent rec => s.writing c fun st => st.putPublishIfAbsent rec
  | .upsertTwin twin => s.writing c fun st => st.upsertTwin twin
  | .postDm userId text => s.posting c.dm (.dm userId text)
  | .postChannel channelId text => s.posting c.channel (.channel channelId text)
  | .postDraftDm userId draftId draftText _ => s.posting c.dm (.draftDm userId draftId draftText)

/-! ### What a call can change -/

section Answer
variable {c : Choice} {op : DeliveryOp} {s s' : DeliveryState} {r : op.Res}

theorem reading_eq {α : Type} {v : α} {r : TwinResult α} (h : s.reading c v = some (r, s')) :
    s' = s ∧ (c.fault = none → r = .ok v) := by
  unfold DeliveryState.reading at h
  split at h <;> cases h
  · next hf => exact ⟨rfl, fun hn => by rw [hn] at hf; cases hf⟩
  · exact ⟨rfl, fun _ => rfl⟩

theorem reading_ok {α : Type} {v w : α} (h : s.reading c v = some (.ok w, s')) : v = w := by
  unfold DeliveryState.reading at h
  split at h <;> cases h
  rfl

/-- A faulty write has no effect. -/
theorem writing_eq {α : Type} {f : InMemoryTwinStore → TwinResult α × InMemoryTwinStore}
    {r : TwinResult α} (h : s.writing c f = some (r, s')) :
    ((∃ e, r = .error e) ∧ c.fault ≠ none ∧ s' = s) ∨
    (r = (f s.store).1 ∧ s' = { s with store := (f s.store).2 }) := by
  unfold DeliveryState.writing at h
  split at h <;> cases h
  · next e hf => exact .inl ⟨⟨e, rfl⟩, by rw [hf]; nofun, rfl⟩
  · exact .inr ⟨rfl, rfl⟩

theorem posting_eq {post : ChatPost} {outcome r : TwinResult DeliveryPostResult}
    (h : s.posting outcome post = some (r, s')) :
    r = outcome ∧ s'.store = s.store ∧ s'.issued = s.issued ∧
      ((∃ p, r = .ok p) ∧ s'.posts = post :: s.posts ∨ (∃ e, r = .error e) ∧ s'.posts = s.posts) := by
  cases outcome with
  | error e => cases h; exact ⟨rfl, rfl, rfl, .inr ⟨⟨e, rfl⟩, rfl⟩⟩
  | ok p => cases h; exact ⟨rfl, rfl, rfl, .inl ⟨⟨p, rfl⟩, rfl⟩⟩

theorem newUuid_eq {r : TwinResult String} (h : answer c .newUuid s = some (r, s')) :
    c.uuid ∉ s.issued ∧ r = .ok c.uuid ∧ s' = { s with issued := c.uuid :: s.issued } := by
  simp only [answer] at h
  split_ifs at h with hissued
  cases h
  exact ⟨hissued, rfl, rfl⟩

/-- A put of a draft fails without effect, or files the draft. -/
theorem answer_putDraft {draft : DraftDelivery} {r : TwinResult Unit}
    (h : answer c (.putDraft draft) s = some (r, s')) :
    ((∃ e, r = .error e) ∧ s' = s) ∨
    (r = .ok () ∧ (s.store.draftByLedger.get draft.ledgerKey = none ∨
        s.store.draftByLedger.get draft.ledgerKey = some draft.draftId) ∧
      s'.store.drafts = s.store.drafts.put draft ∧
      s'.store.draftByLedger = s.store.draftByLedger.put draft.ledgerKey draft.draftId ∧
      s'.issued = s.issued) := by
  obtain ⟨herror, -, rfl⟩ | ⟨rfl, rfl⟩ := writing_eq (f := fun st => st.putDraft draft) h
  · exact .inl ⟨herror, rfl⟩
  · cases hput : (s.store.putDraft draft).1 with
    | error e => exact .inl ⟨⟨e, rfl⟩, by rw [InMemoryTwinStore.putDraft_error hput]⟩
    | ok u =>
      obtain ⟨hfree, hdrafts, hindex⟩ := InMemoryTwinStore.putDraft_ok hput
      exact .inr ⟨rfl, hfree, hdrafts, hindex, rfl⟩

/-- An update of a draft fails without effect, or replaces the stored one. -/
theorem answer_updateDraft {draft : DraftDelivery} {r : TwinResult Unit}
    (h : answer c (.updateDraft draft) s = some (r, s')) :
    ((∃ e, r = .error e) ∧ s' = s) ∨
    (r = .ok () ∧ s.store.drafts.has draft.key = true ∧
      s'.store.drafts = s.store.drafts.put draft ∧
      s'.store.draftByLedger = s.store.draftByLedger ∧ s'.issued = s.issued) := by
  obtain ⟨herror, -, rfl⟩ | ⟨rfl, rfl⟩ := writing_eq (f := fun st => st.updateDraft draft) h
  · exact .inl ⟨herror, rfl⟩
  · cases hupdate : (s.store.updateDraft draft).1 with
    | error e => exact .inl ⟨⟨e, rfl⟩, by rw [InMemoryTwinStore.updateDraft_error hupdate]⟩
    | ok u =>
      obtain ⟨hhas, hdrafts⟩ := InMemoryTwinStore.updateDraft_ok hupdate
      exact .inr ⟨rfl, hhas, hdrafts, InMemoryTwinStore.updateDraft_draftByLedger draft, rfl⟩

/-- Without a fault, an update of a stored draft succeeds. -/
theorem answer_updateDraft_of_has {draft : DraftDelivery} {r : TwinResult Unit}
    (h : answer c (.updateDraft draft) s = some (r, s')) (hfault : c.fault = none)
    (hhas : s.store.drafts.has draft.key = true) :
    r = .ok () ∧ s'.store.drafts = s.store.drafts.put draft ∧
      s'.store.draftByLedger = s.store.draftByLedger := by
  obtain ⟨-, hne, -⟩ | ⟨rfl, rfl⟩ := writing_eq (f := fun st => st.updateDraft draft) h
  · exact absurd hfault hne
  · simp [InMemoryTwinStore.updateDraft, hhas]

/-- Without a fault, a put of a draft for a free ledger succeeds. -/
theorem answer_putDraft_of_free {draft : DraftDelivery} {r : TwinResult Unit}
    (h : answer c (.putDraft draft) s = some (r, s')) (hfault : c.fault = none)
    (hfree : s.store.draftByLedger.get draft.ledgerKey = none) :
    r = .ok () ∧ s'.store.drafts = s.store.drafts.put draft ∧
      s'.store.draftByLedger = s.store.draftByLedger.put draft.ledgerKey draft.draftId := by
  obtain ⟨-, hne, -⟩ | ⟨rfl, rfl⟩ := writing_eq (f := fun st => st.putDraft draft) h
  · exact absurd hfault hne
  · simp [InMemoryTwinStore.putDraft, hfree]

theorem answer_updateDraft_posts {draft : DraftDelivery} {r : TwinResult Unit}
    (h : answer c (.updateDraft draft) s = some (r, s')) : s'.posts = s.posts := by
  obtain ⟨-, -, rfl⟩ | ⟨-, rfl⟩ := writing_eq (f := fun st => st.updateDraft draft) h <;> rfl

theorem answer_putDraft_posts {draft : DraftDelivery} {r : TwinResult Unit}
    (h : answer c (.putDraft draft) s = some (r, s')) : s'.posts = s.posts := by
  obtain ⟨-, -, rfl⟩ | ⟨-, rfl⟩ := writing_eq (f := fun st => st.putDraft draft) h <;> rfl

/-- Everything a call can do to the store. A faulty write leaves it as it was. -/
theorem answer_store (h : answer c op s = some (r, s')) :
    s'.store = s.store ∨
    (∃ draft, op = .putDraft draft ∧ s'.store = (s.store.putDraft draft).2) ∨
    (∃ draft, op = .updateDraft draft ∧ s'.store = (s.store.updateDraft draft).2) ∨
    (∃ rec, op = .putPublishIfAbsent rec ∧ s'.store = (s.store.putPublishIfAbsent rec).2) ∨
    ∃ twin, op = .upsertTwin twin ∧ s'.store = (s.store.upsertTwin twin).2 := by
  cases op with
  | utcNow => cases h; exact .inl rfl
  | newUuid => obtain ⟨-, -, rfl⟩ := newUuid_eq h; exact .inl rfl
  | getDraft _ _ | getDraftByLedger _ _ | getLedger _ _ | getPublishByLedger _ _
  | getSlackMap _ _ => obtain ⟨rfl, -⟩ := reading_eq h; exact .inl rfl
  | putDraft draft =>
    obtain ⟨-, -, rfl⟩ | ⟨-, rfl⟩ := writing_eq (f := fun st => st.putDraft draft) h
    · exact .inl rfl
    · exact .inr (.inl ⟨draft, rfl, rfl⟩)
  | updateDraft draft =>
    obtain ⟨-, -, rfl⟩ | ⟨-, rfl⟩ := writing_eq (f := fun st => st.updateDraft draft) h
    · exact .inl rfl
    · exact .inr (.inr (.inl ⟨draft, rfl, rfl⟩))
  | putPublishIfAbsent rec =>
    obtain ⟨-, -, rfl⟩ | ⟨-, rfl⟩ := writing_eq (f := fun st => st.putPublishIfAbsent rec) h
    · exact .inl rfl
    · exact .inr (.inr (.inr (.inl ⟨rec, rfl, rfl⟩)))
  | upsertTwin twin =>
    obtain ⟨-, -, rfl⟩ | ⟨-, rfl⟩ := writing_eq (f := fun st => st.upsertTwin twin) h
    · exact .inl rfl
    · exact .inr (.inr (.inr (.inr ⟨twin, rfl, rfl⟩)))
  | postDm _ _ | postChannel _ _ | postDraftDm _ _ _ _ => exact .inl (posting_eq h).2.1

/-- Only a publish touches the publish records. -/
theorem answer_publishes (h : answer c op s = some (r, s'))
    (hop : ∀ rec, op ≠ .putPublishIfAbsent rec) :
    s'.store.publishByLedger = s.store.publishByLedger ∧
      s'.store.publishes = s.store.publishes := by
  rcases answer_store h with heq | ⟨d, -, heq⟩ | ⟨d, -, heq⟩ | ⟨rec, hrec, -⟩ | ⟨t, -, heq⟩
  · rw [heq]; exact ⟨rfl, rfl⟩
  · rw [heq]; simp
  · rw [heq]; simp
  · exact absurd hrec (hop rec)
  · rw [heq]; exact ⟨rfl, rfl⟩

/-- A stored draft was stored before, or the call wrote it. -/
theorem answer_drafts (h : answer c op s = some (r, s')) {k : String × String} {d : DraftDelivery}
    (hd : s'.store.drafts.get k = some d) :
    op = .putDraft d ∨ op = .updateDraft d ∨ s.store.drafts.get k = some d := by
  rcases answer_store h with heq | ⟨draft, rfl, heq⟩ | ⟨draft, rfl, heq⟩ | ⟨rec, -, heq⟩ |
    ⟨t, -, heq⟩ <;> rw [heq] at hd
  · exact .inr (.inr hd)
  · obtain rfl | hold := InMemoryTwinStore.drafts_putDraft hd
    · exact .inl rfl
    · exact .inr (.inr hold)
  · obtain rfl | hold := InMemoryTwinStore.drafts_updateDraft hd
    · exact .inr (.inl rfl)
    · exact .inr (.inr hold)
  · exact .inr (.inr (by simpa using hd))
  · exact .inr (.inr hd)

/-- A draft stays as it is unless the call writes it. -/
theorem answer_draft_of_not_writes (h : answer c op s = some (r, s')) {k : String × String}
    (hop : ¬ op.Writes k) : s'.store.drafts.get k = s.store.drafts.get k := by
  rcases answer_store h with heq | ⟨draft, rfl, heq⟩ | ⟨draft, rfl, heq⟩ | ⟨rec, -, heq⟩ |
    ⟨t, -, heq⟩ <;> rw [heq]
  · exact InMemoryTwinStore.getDraft_putDraft_ne hop
  · exact InMemoryTwinStore.getDraft_updateDraft_ne hop
  · rw [InMemoryTwinStore.putPublishIfAbsent_drafts]
  · rfl

/-- No call moves a ledger to another draft. -/
theorem answer_draftByLedger (h : answer c op s = some (r, s')) {k : String × String}
    {id : String} (hk : s.store.draftByLedger.get k = some id) :
    s'.store.draftByLedger.get k = some id := by
  rcases answer_store h with heq | ⟨draft, -, heq⟩ | ⟨draft, -, heq⟩ | ⟨rec, -, heq⟩ |
    ⟨t, -, heq⟩ <;> rw [heq]
  · exact hk
  · exact InMemoryTwinStore.draftByLedger_putDraft hk draft
  · rw [InMemoryTwinStore.updateDraft_draftByLedger, hk]
  · rw [InMemoryTwinStore.putPublishIfAbsent_draftByLedger, hk]
  · exact hk

theorem answer_issued (h : answer c op s = some (r, s')) {u : String} (hu : u ∈ s.issued) :
    u ∈ s'.issued := by
  cases op with
  | utcNow => cases h; exact hu
  | newUuid => obtain ⟨-, -, rfl⟩ := newUuid_eq h; exact List.mem_cons_of_mem _ hu
  | getDraft _ _ | getDraftByLedger _ _ | getLedger _ _ | getPublishByLedger _ _
  | getSlackMap _ _ => obtain ⟨rfl, -⟩ := reading_eq h; exact hu
  | putDraft draft =>
    obtain ⟨-, -, rfl⟩ | ⟨-, rfl⟩ := writing_eq (f := fun st => st.putDraft draft) h <;> exact hu
  | updateDraft draft =>
    obtain ⟨-, -, rfl⟩ | ⟨-, rfl⟩ := writing_eq (f := fun st => st.updateDraft draft) h <;> exact hu
  | putPublishIfAbsent rec =>
    obtain ⟨-, -, rfl⟩ | ⟨-, rfl⟩ := writing_eq (f := fun st => st.putPublishIfAbsent rec) h <;>
      exact hu
  | upsertTwin twin =>
    obtain ⟨-, -, rfl⟩ | ⟨-, rfl⟩ := writing_eq (f := fun st => st.upsertTwin twin) h <;> exact hu
  | postDm _ _ | postChannel _ _ | postDraftDm _ _ _ _ => rw [(posting_eq h).2.2.1]; exact hu

end Answer

/-! ## Programs -/

/-- A delivery program: calls that can fail. -/
abbrev DeliveryM (α : Type) := ExceptT TwinError (Prog DeliveryOp DeliveryOp.Res) α

/-- A call of the service whose error ends the program. -/
abbrev ask (op : DeliveryOp) : DeliveryM op.Val := Lib.ask op

namespace TwinError

/-- The text of an error. -/
def text : TwinError → String
  | .validation t => "validation: " ++ t
  | .notFound t => "not found: " ++ t
  | .conflict t => "conflict: " ++ t
  | .aclDenied t => "acl denied: " ++ t
  | .egress t => "egress: " ++ t
  | .storage t => "storage: " ++ t
  | .upstream t => "upstream: " ++ t
  | .internal t => "internal: " ++ t

end TwinError

/-- The name of a status, as debug output prints it. -/
def DraftStatus.debugName : DraftStatus → String
  | .shadow => "Shadow"
  | .pending => "Pending"
  | .edited => "Edited"
  | .vetoed => "Vetoed"
  | .publishQueued => "PublishQueued"
  | .published => "Published"
  | .expired => "Expired"
  | .forceHuman => "ForceHuman"
  | .publishFailed => "PublishFailed"

structure DeliveryPolicy where
  mediumVetoWindowSecs : Int := defaultMediumVetoWindowSecs
  blockerVetoWindowSecs : Int := defaultBlockerVetoWindowSecs
  /-- status messages per person and UTC day, 0 for no limit -/
  maxDmsPerDay : Nat := 1

structure DeliveryService where
  adapterKind : DeliveryAdapterKind
  policy : DeliveryPolicy

/-- Chat user of a twin for the active adapter. -/
def resolveChatUserId (twin : Twin) (adapter : DeliveryAdapterKind) : DeliveryM String :=
  match adapter with
  | .teams =>
    match (twin.configJson.getStr "teams_user_id").filter fun s => s ≠ "" with
    | some tid => return tid
    | none => do
      -- the Slack map only if it is explicitly a Teams id
      match ← ask (.getSlackMap twin.tenantId twin.subjectId) with
      | some m =>
        if Text.startsWith m.slackUserId "29:" || Text.startsWith m.slackUserId "a:"
            || Text.contains m.slackUserId "@" then
          return m.slackUserId
        else
          return "teams_" ++ twin.subjectId
      | none => return "teams_" ++ twin.subjectId
  | .slack | .mock => do
    match ← ask (.getSlackMap twin.tenantId twin.subjectId) with
    | some m => return m.slackUserId
    | none => return "U_" ++ twin.subjectId

/-- Load a draft and the ledger it is about. -/
def loadDraft (tenantId draftId : String) : DeliveryM (DraftDelivery × LedgerSnapshot) := do
  let some draft ← ask (.getDraft tenantId draftId) | throw (.notFound ("draft " ++ draftId))
  let some snap ← ask (.getLedger tenantId draft.ledgerId) | throw (.notFound "ledger")
  return (draft, snap)

/-! ### Veto and edit -/

def vetoDraft (tenantId draftId : String) : DeliveryM DraftDelivery := do
  let (draft, snap) ← loadDraft tenantId draftId
  match applyDeliveryEvent draft.status .veto snap.confidenceRollup false with
  | none => throw (.conflict ("cannot veto from " ++ draft.status.debugName))
  | some next => do
    let now ← ask .utcNow
    let draft := { draft with status := next, updatedAt := now }
    ask (.updateDraft draft)
    return draft

def editDraft (tenantId draftId editedText : String) : DeliveryM DraftDelivery := do
  let (draft, snap) ← loadDraft tenantId draftId
  match applyDeliveryEvent draft.status .edit snap.confidenceRollup false with
  | none => throw (.conflict ("cannot edit from " ++ draft.status.debugName))
  | some next => do
    let now ← ask .utcNow
    let draft := { draft with status := next, editedText := some editedText, updatedAt := now }
    ask (.updateDraft draft)
    return draft

/-! ### Publishing -/

/-- The last write of a publish attempt. -/
def finishDraft (draft : DraftDelivery) (status : DraftStatus) : DeliveryM DraftDelivery := do
  let now ← ask .utcNow
  let draft := { draft with status := status, updatedAt := now }
  ask (.updateDraft draft)
  return draft

/-- The record of a publish of `draft`. -/
def publishRecord (draft : DraftDelivery) (uuid channelId slackTs bodyHash : String)
    (now : DateTime) : PublishRecord where
  tenantId := draft.tenantId
  publishId := "pub_" ++ uuid
  ledgerId := draft.ledgerId
  draftId := draft.draftId
  channelId := channelId
  slackTs := slackTs
  bodyHash := bodyHash
  publishedAt := now

/-- The channel post failed: fall back to a direct message where the channel is the trouble. -/
def publishFailed (svc : DeliveryService) (twin : Twin) (draft : DraftDelivery)
    (channel body : String) (e : TwinError) : DeliveryM (DraftDelivery × Option PublishRecord) := do
  let msg := e.text
  let notInChannel := Text.contains msg "not_in_channel" || Text.contains msg "channel_not_found"
    || Text.contains msg "is_archived" || decide (channel = "C_TEAM") || decide (channel = "")
  if notInChannel then
    let chatUser ← attempt (resolveChatUserId twin svc.adapterKind)
    let chatUser := match chatUser with
      | .ok u => u
      | .error _ => "U_" ++ twin.subjectId
    let dmBody := "✅ *Approved* (channel share skipped — invite the bot to `" ++ channel
      ++ "` for team posts).\n\n" ++ body
    match ← attempt (ask (.postDm chatUser dmBody)) with
    | .ok dm =>
      let uuid ← ask .newUuid
      let now ← ask .utcNow
      let rec' := publishRecord draft uuid ("dm_fallback:" ++ dm.channel) dm.ts (Sha256.hex body) now
      let _ ← ask (.putPublishIfAbsent rec')
      let draft ← finishDraft draft .published
      return (draft, some rec')
    | .error e2 =>
      let _ ← finishDraft draft .publishFailed
      throw (.egress ("channel post failed (" ++ msg ++ "); DM fallback also failed (" ++ e2.text
        ++ "). Invite bot to channel " ++ channel ++ " or check vault token."))
  else
    let _ ← finishDraft draft .publishFailed
    throw e

/-- A queued draft goes to the channel unless its ledger is published already. -/
def publishQueued (svc : DeliveryService) (twin : Twin) (draft : DraftDelivery) :
    DeliveryM (DraftDelivery × Option PublishRecord) := do
  -- Already published?
  match ← ask (.getPublishByLedger draft.tenantId draft.ledgerId) with
  | some existing =>
    let now ← ask .utcNow
    let draft := { draft with status := .published, updatedAt := now }
    let _ ← attempt (ask (.updateDraft draft))
    return (draft, some existing)
  | none =>
    let body := draft.publishBody
    let channel := if twin.channelId = "" then "C_TEAM" else twin.channelId
    match ← attempt (ask (.postChannel channel body)) with
    | .error e => publishFailed svc twin draft channel body e
    | .ok post =>
      let uuid ← ask .newUuid
      let now ← ask .utcNow
      let rec' := publishRecord draft uuid channel post.ts (Sha256.hex body) now
      if ← ask (.putPublishIfAbsent rec') then
        let draft ← finishDraft draft .published
        return (draft, some rec')
      else
        -- Race: another worker won — return existing; do not double-count as new
        let existing ← ask (.getPublishByLedger draft.tenantId draft.ledgerId)
        let draft ← finishDraft draft .published
        return (draft, existing)

/-- Exactly-once channel publish intent. -/
def tryPublishChannel (svc : DeliveryService) (twin : Twin) (draft : DraftDelivery) :
    DeliveryM (DraftDelivery × Option PublishRecord) :=
  if draft.status = .vetoed then throw (.conflict "vetoed — never channel post")
  else if draft.status = .shadow then throw (.conflict "shadow — no publish")
  else if draft.status = .published then do
    let existing ← ask (.getPublishByLedger draft.tenantId draft.ledgerId)
    return (draft, existing)
  else if draft.status ≠ .publishQueued then return (draft, none)
  else publishQueued svc twin draft

theorem tryPublishChannel_queued (svc : DeliveryService) (twin : Twin) {draft : DraftDelivery}
    (h : draft.status = .publishQueued) :
    tryPublishChannel svc twin draft = publishQueued svc twin draft := by
  simp [tryPublishChannel, h]

def silenceTimeout (svc : DeliveryService) (twin : Twin) (tenantId draftId : String) :
    DeliveryM (DraftDelivery × Option PublishRecord) := do
  let (draft, snap) ← loadDraft tenantId draftId
  if !silenceMayPublish snap.confidenceRollup then
    throw (.conflict "silence timeout does not auto-publish for this confidence tier")
  else
    match applyDeliveryEvent draft.status .mediumSilenceTimeout snap.confidenceRollup
        twin.highAutoPublish with
    | none => throw (.conflict ("silence not allowed from status " ++ draft.status.debugName))
    | some next => do
      let now ← ask .utcNow
      let draft := { draft with status := next, updatedAt := now }
      ask (.updateDraft draft)
      if draft.status = .publishQueued then tryPublishChannel svc twin draft
      else return (draft, none)

def explicitPublish (svc : DeliveryService) (twin : Twin) (tenantId draftId : String) :
    DeliveryM (DraftDelivery × Option PublishRecord) := do
  let (draft, snap) ← loadDraft tenantId draftId
  -- Idempotent: already published → return existing record
  if draft.status = .published then do
    let existing ← ask (.getPublishByLedger tenantId draft.ledgerId)
    return (draft, existing)
  else if draft.status = .vetoed then
    throw (.conflict "vetoed — never channel post")
  else if draft.status ≠ .publishQueued then
    match applyDeliveryEvent draft.status .explicitPublish snap.confidenceRollup
        twin.highAutoPublish with
    | none => throw (.conflict ("cannot publish from status " ++ draft.status.debugName))
    | some next => do
      let now ← ask .utcNow
      let draft := { draft with status := next, updatedAt := now }
      ask (.updateDraft draft)
      tryPublishChannel svc twin draft
  else
    tryPublishChannel svc twin draft

/-! ### Start after a compile -/

structure DeliveryStartResult where
  draft : DraftDelivery
  dmSent : Bool
  /-- why chat was skipped -/
  suppressed : Option String

/-- The text says that there is nothing to report. -/
def emptyish (draftText : String) : Bool :=
  Text.contains draftText "No code or ticket signals" || Text.contains draftText "nothing invented"
    || decide (Text.trim draftText = "")

/-- The statuses in which a recompile still refreshes the text. -/
def DraftStatus.openish : DraftStatus → Bool
  | .pending | .forceHuman | .edited | .shadow => true
  | _ => false

/-- The status after a compile; a quiet recompile never queues a publish. -/
def startStatus (twin : Twin) (snap : LedgerSnapshot) (now : DateTime)
    (allowNotify forceNotify : Bool) : DraftStatus :=
  let inShadow := twin.isInShadow now
  let status := initialDraftStatus inShadow snap.confidenceRollup twin.highAutoPublish
  if (!allowNotify && !forceNotify) && !inShadow && decide (status = .publishQueued) then .pending
  else status

/-- Whether the policy lets a draft of this status be sent. -/
def willDm (decision : NotifyDecision) (status : DraftStatus) : Bool :=
  decision.allowDm && (status = .pending || status = .forceHuman || status = .publishQueued)
    && !(decision.suppress = some .unchanged || decision.suppress = some .dailyCap
      || decision.suppress = some .empty || decision.suppress = some .quiet)

def vetoDeadline (policy : DeliveryPolicy) (now : DateTime) (status : DraftStatus)
    (confidence : ConfidenceTier) (otherwise : Option DateTime) : Option DateTime :=
  match status, confidence with
  | .pending, .medium | .forceHuman, .medium | .pending, .high =>
    some (now + policy.mediumVetoWindowSecs * DateTime.nanosPerSecond)
  | .pending, .blocker | .forceHuman, .blocker =>
    some (now + policy.blockerVetoWindowSecs * DateTime.nanosPerSecond)
  | _, _ => otherwise

def deadlineText : Option DateTime → String
  | none => "none"
  | some d => d.formatIstList

/-- Write the bookkeeping of the policy into the twin; an error is dropped. -/
def rememberNotify (twin : Twin) (state : NotifyState) : DeliveryM Unit := do
  let now ← ask .utcNow
  let _ ← attempt (ask (.upsertTwin (writeNotifyState twin state now)))
  return ()

/-- What a compile hands to the delivery. -/
structure StartInput where
  twin : Twin
  snap : LedgerSnapshot
  draftText : String
  now : DateTime
  allowNotify : Bool
  forceNotify : Bool

namespace StartInput

def inShadow (x : StartInput) : Bool := x.twin.isInShadow x.now

def decision (svc : DeliveryService) (x : StartInput) : NotifyDecision :=
  decideNotify x.snap.ledger (loadNotifyState x.twin) x.now svc.policy.maxDmsPerDay x.allowNotify
    x.forceNotify x.inShadow

def nowHasItems (x : StartInput) : Bool :=
  !x.snap.ledger.items.isEmpty || !x.snap.ledger.openBlockers.isEmpty

end StartInput

/-- Send a draft to its person for approval; a failed message leaves it unsent. -/
def sendDraft (svc : DeliveryService) (x : StartInput) (draft : DraftDelivery) :
    DeliveryM (DraftDelivery × Bool) := do
  let chatUser ← resolveChatUserId x.twin svc.adapterKind
  match ← attempt (ask (.postDraftDm chatUser draft.draftId x.draftText
      (deadlineText draft.vetoDeadline))) with
  | .ok dm =>
    rememberNotify x.twin
      (recordDmSent (loadNotifyState x.twin) (x.decision svc).fingerprint x.now)
    return ({ draft with slackDmChannel := dm.channel, slackDmTs := dm.ts }, true)
  | .error _ => return (draft, false)

/-- Remember the fingerprint of an unchanged story, so that it stays quiet. -/
def rememberUnchanged (svc : DeliveryService) (x : StartInput) : DeliveryM Unit :=
  if (x.decision svc).suppress = some .unchanged then
    rememberNotify x.twin
      { loadNotifyState x.twin with lastFingerprint := (x.decision svc).fingerprint }
  else return ()

/-- A draft that can be upgraded in place: it had nothing to report, was never sent, is still open,
and now has items. -/
def upgradable (x : StartInput) (existing : DraftDelivery) : Bool :=
  emptyish existing.draftText && x.nowHasItems && decide (existing.slackDmTs = "")
    && existing.status.openish

/-- The text of an open draft is the new one. -/
def refreshed (x : StartInput) (existing : DraftDelivery) : DraftDelivery :=
  if existing.status.openish then { existing with draftText := x.draftText, updatedAt := x.now }
  else existing

/-- The status of an upgraded draft. -/
def upgradeStatus (x : StartInput) : DraftStatus :=
  if x.inShadow then .shadow else startStatus x.twin x.snap x.now x.allowNotify x.forceNotify

/-- Whether an upgraded draft is sent. -/
def upgradeSends (svc : DeliveryService) (x : StartInput) : Bool :=
  let decision := x.decision svc
  willDm decision (startStatus x.twin x.snap x.now x.allowNotify x.forceNotify)
    && !decide (decision.suppress = some .shadow) && !x.inShadow

/-- An open draft in its new status, with the deadline that goes with it. -/
def upgraded (svc : DeliveryService) (x : StartInput) (existing : DraftDelivery) : DraftDelivery :=
  { existing with
    status := upgradeStatus x
    vetoDeadline := vetoDeadline svc.policy x.now (upgradeStatus x) x.snap.confidenceRollup
      existing.vetoDeadline }

def upgradeNotify (svc : DeliveryService) (x : StartInput) (draft : DraftDelivery) :
    DeliveryM (DraftDelivery × Bool) :=
  if upgradeSends svc x && (upgradeStatus x = .pending || upgradeStatus x = .forceHuman) then
    sendDraft svc x draft
  else do
    rememberUnchanged svc x
    return (draft, false)

/-- Upgrade path: same draft and ledger, notify if policy allows. -/
def upgradeDraft (svc : DeliveryService) (x : StartInput) (existing : DraftDelivery) :
    DeliveryM DeliveryStartResult := do
  let (existing, dmSent) ← upgradeNotify svc x (upgraded svc x existing)
  let existing := { existing with updatedAt := x.now }
  ask (.updateDraft existing)
  return { draft := existing, dmSent := dmSent,
           suppressed := if dmSent then none
             else some (((x.decision svc).suppress.map SuppressReason.asStr).getD "no_dm") }

def restartResult (draft : DraftDelivery) : DeliveryStartResult :=
  let alreadyDm := decide (draft.slackDmTs ≠ "")
  { draft := draft, dmSent := alreadyDm,
    suppressed := if alreadyDm then none else some "existing_draft" }

/-- The draft of the ledger exists: refresh its text, or upgrade it. -/
def restartDraft (svc : DeliveryService) (x : StartInput) (existing : DraftDelivery) :
    DeliveryM DeliveryStartResult :=
  if upgradable x existing then upgradeDraft svc x (refreshed x existing)
  else if existing.status.openish then do
    ask (.updateDraft (refreshed x existing))
    return restartResult (refreshed x existing)
  else return restartResult (refreshed x existing)

/-- The draft that a first compile of a ledger creates. -/
def newDraft (svc : DeliveryService) (x : StartInput) (uuid : String) (status : DraftStatus) :
    DraftDelivery where
  tenantId := x.twin.tenantId
  draftId := "dft_" ++ uuid
  ledgerId := x.snap.ledgerId
  twinId := x.twin.twinId
  status := status
  slackDmChannel := ""
  slackDmTs := ""
  draftText := x.draftText
  editedText := none
  vetoDeadline := vetoDeadline svc.policy x.now status x.snap.confidenceRollup none
  createdAt := x.now
  updatedAt := x.now

/-- High auto-publish: optional short message, then publish. -/
def autoPublish (svc : DeliveryService) (x : StartInput) (draft : DraftDelivery) :
    DeliveryM DeliveryStartResult := do
  let dm ← attempt do
    let chatUser ← resolveChatUserId x.twin svc.adapterKind
    ask (.postDm chatUser ("Auto-publishing high confidence status:\n" ++ x.draftText))
  let draft := match dm with
    | .ok dm => { draft with slackDmChannel := dm.channel, slackDmTs := dm.ts }
    | .error _ => draft
  ask (.putDraft draft)
  let (draft, _) ← tryPublishChannel svc x.twin draft
  rememberNotify x.twin
    (recordDmSent (loadNotifyState x.twin) (x.decision svc).fingerprint x.now)
  return { draft := draft, dmSent := decide (draft.slackDmTs ≠ ""), suppressed := none }

/-- The end of it: the draft is stored, and then published. -/
def publishStored (svc : DeliveryService) (x : StartInput) (draft : DraftDelivery) : DeliveryM DeliveryStartResult := do
  ask (.putDraft draft)
  let (draft, _) ← tryPublishChannel svc x.twin draft
  rememberNotify x.twin
    (recordDmSent (loadNotifyState x.twin) (x.decision svc).fingerprint x.now)
  return { draft := draft, dmSent := decide (draft.slackDmTs ≠ ""), suppressed := none }

def createShadowed (svc : DeliveryService) (x : StartInput) : Bool :=
  x.inShadow || decide ((x.decision svc).suppress = some .shadow)

/-- The status of a new draft. -/
def createStatus (svc : DeliveryService) (x : StartInput) : DraftStatus :=
  if createShadowed svc x then .shadow
  else startStatus x.twin x.snap x.now x.allowNotify x.forceNotify

/-- Whether a new draft is sent. -/
def createSends (svc : DeliveryService) (x : StartInput) : Bool :=
  willDm (x.decision svc) (startStatus x.twin x.snap x.now x.allowNotify x.forceNotify)
    && !createShadowed svc x

/-- A new draft goes to the channel at once. -/
def autoPublishes (svc : DeliveryService) (x : StartInput) : Bool :=
  createSends svc x && decide (createStatus svc x = .publishQueued)
    && decide (x.snap.confidenceRollup = .high) && x.twin.highAutoPublish

def createNotify (svc : DeliveryService) (x : StartInput) (draft : DraftDelivery) :
    DeliveryM (DraftDelivery × Bool) :=
  if createStatus svc x = .pending || createStatus svc x = .forceHuman then sendDraft svc x draft
  else return (draft, false)

/-- There is no draft of the ledger yet. -/
def createDraft (svc : DeliveryService) (x : StartInput) : DeliveryM DeliveryStartResult := do
  let uuid ← ask .newUuid
  let draft := newDraft svc x uuid (createStatus svc x)
  -- Shadow or quiet / suppressed: no chat delivery calls
  if createStatus svc x = .shadow || !createSends svc x then
    ask (.putDraft draft)
    rememberUnchanged svc x
    return { draft := draft, dmSent := false,
             suppressed :=
               some (((x.decision svc).suppress.map SuppressReason.asStr).getD "no_dm") }
  else if autoPublishes svc x then
    autoPublish svc x draft
  else
    let (draft, dmSent) ← createNotify svc x draft
    ask (.putDraft draft)
    return { draft := draft, dmSent := dmSent,
             suppressed := if dmSent then none
               else (x.decision svc).suppress.map SuppressReason.asStr }

/-- Create the draft after a compile and send or publish it, or bring the open one up to date. -/
def startAfterCompileOpts (svc : DeliveryService) (x : StartInput) :
    DeliveryM DeliveryStartResult := do
  match ← ask (.getDraftByLedger x.twin.tenantId x.snap.ledgerId) with
  | some existing => restartDraft svc x existing
  | none => createDraft svc x

/-! ## Calls of the service -/

/-- A call of the delivery service from outside. -/
inductive DeliveryCall where
  | explicitPublish (twin : Twin) (tenantId draftId : String)
  | silenceTimeout (twin : Twin) (tenantId draftId : String)
  | vetoDraft (tenantId draftId : String)
  | editDraft (tenantId draftId editedText : String)
  | startAfterCompileOpts (x : StartInput)

/-- The program of a call; what matters of its result is whether it is an error. -/
def DeliveryCall.program (svc : DeliveryService) : DeliveryCall → DeliveryM Unit
  | .explicitPublish twin tenantId draftId => do
    let _ ← Twins.explicitPublish svc twin tenantId draftId
  | .silenceTimeout twin tenantId draftId => do
    let _ ← Twins.silenceTimeout svc twin tenantId draftId
  | .vetoDraft tenantId draftId => do
    let _ ← Twins.vetoDraft tenantId draftId
  | .editDraft tenantId draftId editedText => do
    let _ ← Twins.editDraft tenantId draftId editedText
  | .startAfterCompileOpts x => do
    let _ ← Twins.startAfterCompileOpts svc x

/-- A call on the draft, or on the ledger it is about. -/
def DeliveryCall.OnDraft (tenantId draftId ledgerId : String) : DeliveryCall → Prop
  | .explicitPublish _ t d | .silenceTimeout _ t d | .vetoDraft t d | .editDraft t d _ =>
    t = tenantId ∧ d = draftId
  | .startAfterCompileOpts x => x.twin.tenantId = tenantId ∧ x.snap.ledgerId = ledgerId

/-- Concurrent calls over one store. -/
abbrev DeliveryPool (ι : Type) :=
  Pool ι DeliveryOp DeliveryOp.Res DeliveryState (TwinResult Unit)

def DeliveryPool.start {ι : Type} (svc : DeliveryService) (calls : ι → DeliveryCall)
    (s : DeliveryState) : DeliveryPool ι :=
  ⟨s, fun i => ((calls i).program svc).run, []⟩

/-- Posts in the channel, failed ones included. -/
def channelPosts {ι : Type} (tr : List (Event ι DeliveryOp DeliveryOp.Res)) : ℕ :=
  tr.countP fun e => match e.op with
    | .postChannel _ _ => true
    | _ => false

/-! ### A draft that waits for its person -/

def mockService : DeliveryService := ⟨.mock, {}⟩

def teamTwin : Twin :=
  { (default : Twin) with tenantId := "t", twinId := "w", subjectId := "s", channelId := "C" }

def mediumLedger : LedgerSnapshot :=
  { (default : LedgerSnapshot) with
    tenantId := "t", ledgerId := "L", twinId := "w", confidenceRollup := .medium }

def pendingDraft : DraftDelivery :=
  { (default : DraftDelivery) with
    tenantId := "t", draftId := "d", ledgerId := "L", twinId := "w", status := .pending,
    draftText := "fixed the login" }

def draftState : DeliveryState where
  store := ((InMemoryTwinStore.new.putLedger mediumLedger).2.putDraft pendingDraft).2
  issued := []
  posts := []

/-- A choice without failures. -/
def smooth (uuid : String) : Choice := ⟨0, uuid, .ok ⟨"D", "1"⟩, .ok ⟨"C", "1"⟩, none⟩

/-! ## Rules -/

/-- Calls that touch neither drafts nor publishes nor the channel. -/
def DeliveryOp.Aside : DeliveryOp → Prop
  | .utcNow | .getSlackMap _ _ | .upsertTwin _ => True
  | _ => False

/-- To find the chat user of a twin is to look at its Slack map. -/
theorem resolveChatUserId_calls {K : DeliveryOp → Prop} (hK : ∀ t u, K (.getSlackMap t u)) (twin : Twin)
    (adapter : DeliveryAdapterKind) : (resolveChatUserId twin adapter).run.CallsOnly K := by
  have hmap : ∀ {f : Option SlackUserMap → DeliveryM String}, (∀ m, (f m).run.CallsOnly K) →
      (ask (.getSlackMap twin.tenantId twin.subjectId) >>= f).run.CallsOnly K :=
    fun hf => Prog.CallsOnly.exceptT_bind (callsOnly_ask (hK _ _)) hf
  cases adapter with
  | teams =>
    unfold resolveChatUserId
    dsimp only
    split
    · trivial
    · apply hmap
      rintro (_ | m)
      · trivial
      · dsimp only
        split_ifs <;> trivial
  | slack => exact hmap fun m => by cases m <;> trivial
  | mock => exact hmap fun m => by cases m <;> trivial

theorem resolveChatUserId_aside (twin : Twin) (adapter : DeliveryAdapterKind) :
    (resolveChatUserId twin adapter).run.CallsOnly DeliveryOp.Aside :=
  resolveChatUserId_calls (fun _ _ => trivial) twin adapter

theorem rememberNotify_aside (twin : Twin) (state : NotifyState) :
    (rememberNotify twin state).run.CallsOnly DeliveryOp.Aside :=
  Prog.CallsOnly.exceptT_bind (callsOnly_ask trivial) fun _ =>
    Prog.CallsOnly.exceptT_bind (callsOnly_attempt (callsOnly_ask trivial)) fun _ => trivial

theorem rememberUnchanged_aside (svc : DeliveryService) (x : StartInput) :
    (rememberUnchanged svc x).run.CallsOnly DeliveryOp.Aside := by
  unfold rememberUnchanged
  split_ifs
  · exact rememberNotify_aside _ _
  · trivial

/-! ### Calls that leave drafts, publishes and posts alone -/

/-- Nothing that a publish looks at has changed. -/
structure Frame (s s' : DeliveryState) : Prop where
  drafts : s'.store.drafts = s.store.drafts
  draftByLedger : s'.store.draftByLedger = s.store.draftByLedger
  publishByLedger : s'.store.publishByLedger = s.store.publishByLedger
  publishes : s'.store.publishes = s.store.publishes
  posts : s'.posts = s.posts

theorem Frame.refl (s : DeliveryState) : Frame s s := ⟨rfl, rfl, rfl, rfl, rfl⟩

theorem Frame.trans {s₁ s₂ s₃ : DeliveryState} (h : Frame s₁ s₂) (h' : Frame s₂ s₃) :
    Frame s₁ s₃ :=
  ⟨h'.drafts.trans h.drafts, h'.draftByLedger.trans h.draftByLedger,
    h'.publishByLedger.trans h.publishByLedger, h'.publishes.trans h.publishes,
    h'.posts.trans h.posts⟩

/-- Calls that read, and writes of twins. -/
def DeliveryOp.Quiet : DeliveryOp → Prop
  | .putDraft _ | .updateDraft _ | .putPublishIfAbsent _ | .postDm _ _ | .postChannel _ _
  | .postDraftDm _ _ _ _ => False
  | _ => True

theorem answer_quiet {c : Choice} {op : DeliveryOp} {s s' : DeliveryState} {r : op.Res}
    (hs : answer c op s = some (r, s')) (hop : op.Quiet) : Frame s s' := by
  cases op with
  | utcNow => cases hs; exact Frame.refl s
  | newUuid => obtain ⟨-, -, rfl⟩ := newUuid_eq hs; exact ⟨rfl, rfl, rfl, rfl, rfl⟩
  | getDraft _ _ | getDraftByLedger _ _ | getLedger _ _ | getPublishByLedger _ _
  | getSlackMap _ _ => obtain ⟨rfl, -⟩ := reading_eq hs; exact Frame.refl _
  | upsertTwin twin =>
    obtain ⟨-, -, rfl⟩ | ⟨-, rfl⟩ := writing_eq (f := fun st => st.upsertTwin twin) hs <;>
      exact ⟨rfl, rfl, rfl, rfl, rfl⟩
  | _ => cases hop

section Quiet
variable {ok : Choice → Prop} {α β : Type} {s : DeliveryState}

theorem quiet_bind_ensures {op : DeliveryOp} {f : op.Val → DeliveryM β}
    {post : TwinResult β → DeliveryState → Prop} (hop : op.Quiet)
    (hok : ∀ a s', Frame s s' → (f a).run.Ensures answer ok post s')
    (herror : ∀ e s', Frame s s' → post (.error e) s') :
    (ask op >>= f).run.Ensures answer ok post s :=
  ask_bind_ensures (fun _ a s' _ hs => hok a s' (answer_quiet hs hop))
    fun _ e s' _ hs => herror e s' (answer_quiet hs hop)

/-- A read answers what is stored, or fails. -/
theorem read_bind_ensures {op : DeliveryOp} {v : op.Val} {f : op.Val → DeliveryM β}
    {post : TwinResult β → DeliveryState → Prop} (hop : ∀ c, answer c op s = s.reading c v)
    (hok : (f v).run.Ensures answer ok post s) (herror : ∀ e, post (.error e) s) :
    (ask op >>= f).run.Ensures answer ok post s := by
  refine ask_bind_ensures (fun c a s' _ hs => ?_) fun c e s' _ hs => ?_
  · rw [hop] at hs
    obtain rfl := reading_ok hs
    obtain ⟨rfl, -⟩ := reading_eq hs
    exact hok
  · rw [hop] at hs
    obtain ⟨rfl, -⟩ := reading_eq hs
    exact herror e

theorem aside_ensures {p : DeliveryM α} (h : p.run.CallsOnly DeliveryOp.Aside) :
    p.run.Ensures answer ok (fun _ s' => Frame s s') s := by
  refine h.ensures (I := fun s' => Frame s s') ?_ (Frame.refl s)
  intro c op r s₁ s₂ _ hop hs hI
  refine hI.trans (answer_quiet hs ?_)
  cases op <;> trivial

theorem aside_bind_ensures {p : DeliveryM α} {f : α → DeliveryM β}
    {post : TwinResult β → DeliveryState → Prop} (h : p.run.CallsOnly DeliveryOp.Aside)
    (hok : ∀ a s', Frame s s' → (f a).run.Ensures answer ok post s')
    (herror : ∀ e s', Frame s s' → post (.error e) s') :
    (p >>= f).run.Ensures answer ok post s :=
  bind_ensures (aside_ensures h) hok herror

end Quiet

end AiManager.Twins
