import AiManager.Platform.ResolvePerson
import AiManager.Platform.FreeText

/-! # What a message closes

A message that says that work is done closes the open commitments of its sender, and those made in the same
conversation. Of the conversation only a label is kept, which is one word for all direct messages, and a promiser is
taken for the sender where one id contains the other, or the names are equal. -/

namespace AiManager.Platform

open Lib Twins

/-- A channel, or the direct messages between a person and the bot. -/
structure Conversation where
  channel : String
  isDm : Bool
  deriving DecidableEq

/-- What is kept of it. -/
def Conversation.label (conv : Conversation) : String := if conv.isDm then "dm" else conv.channel

def SlackMessage.conversation (m : SlackMessage) : Conversation := ⟨m.channel, m.isDm⟩

theorem SlackMessage.channelLabel_eq (m : SlackMessage) : m.channelLabel = m.conversation.label := rfl

/-- A commitment with the conversation that it was recorded from. -/
structure Recorded where
  commitment : Commitment
  conversation : Option Conversation
  channel : commitment.channel = conversation.map Conversation.label

/-- A message records the conversation it stands in. -/
theorem channel_of_commitment {api : ListApi} {dir : List PersonDirEntry} {tenantId : String} {m : SlackMessage}
    {maps : List SlackUserMap} {make : String → String → Commitment}
    (h : (m.chat maps).commitment api.upper api.alphanumeric dir tenantId = some make) (uuid now : String) :
    (make uuid now).channel = some m.conversation.label := by
  unfold ChatMessage.commitment at h
  obtain ⟨⟨summary, conf, tag⟩, -, hmake⟩ := Option.bind_eq_some_iff.mp h
  dsimp only at hmake
  split at hmake
  · cases hmake
  · obtain rfl := Option.some.inj hmake
    rfl

/-- What the message makes is recorded from its conversation. -/
def SlackMessage.record {api : ListApi} {dir : List PersonDirEntry} {tenantId : String} (m : SlackMessage)
    {maps : List SlackUserMap} {make : String → String → Commitment}
    (h : (m.chat maps).commitment api.upper api.alphanumeric dir tenantId = some make) (uuid now : String) :
    Recorded where
  commitment := make uuid now
  conversation := some m.conversation
  channel := channel_of_commitment h uuid now

section Scope
variable (m : SlackMessage) (maps : List SlackUserMap) (dir : List PersonDirEntry)

/-- The commitment as the message leaves it. -/
def SlackMessage.leaves (now : String) (c : Commitment) : Commitment :=
  (m.chat maps).resolved (senderLabel dir (m.subject maps)) now c

/-- The sender made the commitment, or it was made in the same conversation. -/
def InScope (r : Recorded) : Prop :=
  r.commitment.promiser = m.subject maps ∨ r.conversation = some m.conversation

/-- Only open commitments in scope are closed. -/
def StaysInScope (list : List Recorded) : Prop :=
  ∀ now, ∀ r ∈ list, (m.leaves maps dir now r.commitment).status ≠ r.commitment.status →
    r.commitment.status = "open" ∧ (m.leaves maps dir now r.commitment).status = "done" ∧ InScope m maps r

/-- An open commitment of someone else, made elsewhere, that the message is taken to be about: the ids overlap, the
names are equal, or the conversations have one label. -/
structure Mistaken (r : Recorded) : Prop where
  opened : r.commitment.status = "open"
  other : r.commitment.promiser ≠ m.subject maps
  elsewhere : r.conversation ≠ some m.conversation
  confused : eitherContains r.commitment.promiser (m.subject maps) = true ∨
    (∃ name name', r.commitment.promiserLabel = some name ∧ senderLabel dir (m.subject maps) = some name' ∧
      Text.eqIgnoreAsciiCase name' name = true) ∨
    ∃ conv, r.conversation = some conv ∧ conv.label = m.conversation.label
  matched : messageResolvesCommitment m.text r.commitment.text = true

variable {m maps dir} {r : Recorded} {c : Commitment}

theorem leaves_of_resolves (now : String)
    (h : (m.chat maps).resolves (senderLabel dir (m.subject maps)) c = true) :
    (m.leaves maps dir now c).status = "done" := by
  unfold SlackMessage.leaves ChatMessage.resolved
  rw [if_pos h]

theorem leaves_of_not_resolves (now : String)
    (h : (m.chat maps).resolves (senderLabel dir (m.subject maps)) c ≠ true) : m.leaves maps dir now c = c := by
  unfold SlackMessage.leaves ChatMessage.resolved
  rw [if_neg h]

theorem leaves_of_not_closes {list : List Commitment} (now : String)
    (h : (m.chat maps).closes (senderLabel dir (m.subject maps)) list = false) :
    list.map (m.leaves maps dir now) = list := by
  refine (List.map_congr_left fun c hc => ?_).trans (List.map_id list)
  apply leaves_of_not_resolves
  intro hresolves
  have hphrase : isResolutionPhrase (Text.toAsciiLowercase m.text) = true := by
    by_contra hphrase
    unfold ChatMessage.resolves messageResolvesCommitment at hresolves
    rw [Bool.and_eq_true] at hresolves
    have hmatched := hresolves.2
    dsimp only at hmatched
    rw [if_neg (show ¬ isResolutionPhrase (Text.toAsciiLowercase (m.chat maps).text) = true from hphrase)] at hmatched
    cases hmatched
  have hcloses : (m.chat maps).closes (senderLabel dir (m.subject maps)) list = true :=
    Bool.and_eq_true_iff.mpr ⟨hphrase, List.any_eq_true.mpr ⟨c, hc, hresolves⟩⟩
  rw [hcloses] at h
  cases h

/-- What is stored after a message: every commitment as the message leaves it, and a new one. -/
theorem leaves_of_step {api : ListApi} {tenantId : String} {list list' : List Commitment}
    (h : CommitmentStep api dir tenantId (m.chat maps) list list') : ∃ now added,
      list' = list.map (m.leaves maps dir now) ∨
        list' = keepLast commitmentsMax (list.map (m.leaves maps dir now) ++ added) := by
  cases h with
  | closed now => exact ⟨now, [], .inr (congrArg _ (List.append_nil _).symm)⟩
  | made uuid now hopen =>
    -- a new commitment is only made when the message closes none, so the old ones are as they were
    refine ⟨now, _, .inr (congrArg _ (congrArg (· ++ _) ?_))⟩
    exact (leaves_of_not_closes now hopen).symm
  | none hopen => exact ⟨"", [], .inl (leaves_of_not_closes "" hopen).symm⟩

theorem resolves_iff : (m.chat maps).resolves (senderLabel dir (m.subject maps)) r.commitment = true ↔
    r.commitment.status = "open" ∧ (r.commitment.promiser = m.subject maps ∨
      eitherContains r.commitment.promiser (m.subject maps) = true ∨
      (∃ name name', r.commitment.promiserLabel = some name ∧ senderLabel dir (m.subject maps) = some name' ∧
        Text.eqIgnoreAsciiCase name' name = true) ∨
      ∃ conv, r.conversation = some conv ∧ conv.label = m.conversation.label) ∧
    messageResolvesCommitment m.text r.commitment.text = true := by
  have hchannel : (r.commitment.channel.any fun ch => ch = m.channelLabel) = true ↔
      ∃ conv, r.conversation = some conv ∧ conv.label = m.conversation.label := by
    rw [r.channel, m.channelLabel_eq]
    cases r.conversation <;> simp
  have hlabel : (r.commitment.promiserLabel.any fun l =>
      (senderLabel dir (m.subject maps)).any fun pl => Text.eqIgnoreAsciiCase pl l) = true ↔
      ∃ name name', r.commitment.promiserLabel = some name ∧ senderLabel dir (m.subject maps) = some name' ∧
        Text.eqIgnoreAsciiCase name' name = true := by
    cases r.commitment.promiserLabel <;> cases senderLabel dir (m.subject maps) <;> simp
  rw [← hchannel, ← hlabel]
  unfold ChatMessage.resolves eitherContains SlackMessage.chat
  simp only [Bool.and_eq_true, Bool.or_eq_true, decide_eq_true_eq, and_assoc, or_assoc]

theorem staysInScope_iff (m : SlackMessage) (maps : List SlackUserMap) (dir : List PersonDirEntry)
    (list : List Recorded) : StaysInScope m maps dir list ↔ ∀ r ∈ list, ¬ Mistaken m maps dir r := by
  constructor
  · intro h r hr hmistaken
    have hresolves := resolves_iff.mpr ⟨hmistaken.opened, .inr hmistaken.confused, hmistaken.matched⟩
    have hdone := leaves_of_resolves "" hresolves
    obtain ⟨-, -, hscope⟩ := h "" r hr (by rw [hdone, hmistaken.opened]; decide)
    exact hscope.elim hmistaken.other hmistaken.elsewhere
  · intro h now r hr hclosed
    by_cases hresolves : (m.chat maps).resolves (senderLabel dir (m.subject maps)) r.commitment = true
    · obtain ⟨hopen, hconfused, hmatched⟩ := resolves_iff.mp hresolves
      refine ⟨hopen, leaves_of_resolves now hresolves, ?_⟩
      by_contra hscope
      obtain ⟨hother, helsewhere⟩ := not_or.mp hscope
      exact h r hr ⟨hopen, hother, helsewhere, hconfused.resolve_left hother, hmatched⟩
    · rw [leaves_of_not_resolves now hresolves] at hclosed
      exact absurd rfl hclosed

end Scope

/-- Bob promised something in his direct messages with the bot. -/
def promiseOfBob : Recorded where
  commitment := { (default : Commitment) with
    promiser := "gu_bob", text := "I'll send the deck by Friday", status := "open", source := "slack_dm"
    channel := some "dm" }
  conversation := some ⟨"D2", true⟩
  channel := rfl

/-- Alice says in hers that something is done. -/
def doneByAlice : SlackMessage :=
  { text := "Done. Sent it.", user := "U1", channel := "D1", ts := "1.0", isDm := true, isChannel := false }

theorem not_staysInScope : ¬ ∀ m maps dir list, StaysInScope m maps dir list := by
  intro h
  have hscope := h doneByAlice [⟨"ten_demo", "gu_alice", "U1", ""⟩] [] [promiseOfBob] "" promiseOfBob
    (List.mem_singleton_self _) (by decide)
  rcases hscope.2.2 with hpromiser | hconversation
  · exact absurd hpromiser (by decide)
  · exact absurd hconversation (by decide)

end AiManager.Platform
