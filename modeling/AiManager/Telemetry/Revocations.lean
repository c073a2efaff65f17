import AiManager.Lib.Run
import AiManager.Telemetry.Acl

/-! # Two appliers of membership changes

The ingestion applies a membership change at once and publishes it; the consumer of the topic applies it
again, whenever it gets there. A change carries an access version for its order, and neither looks at
it. An addition that the consumer reaches after the removal was ingested lets the person back in, and
nothing else does (`revoked_stays_out_iff`). -/

namespace AiManager.Telemetry

open Lib

namespace InMemoryAclStore

/-- A user's groups after a change. -/
def changedGroups (rev : AclRevocationRecord) (groups : Finset String) : Finset String :=
  if rev.changeType = "removed_from_group" then groups.erase rev.groupId
  else if rev.changeType = "added_to_group" then insert rev.groupId groups
  else groups

section Changes
variable {st : InMemoryAclStore} {rev : AclRevocationRecord} {groups : Finset String} {g : String}

theorem getUserGroups_applyRevocation (t u : String) :
    (st.applyRevocation rev).2.getUserGroups t u =
      if (t, u) = (rev.tenantId, rev.globalUserId) ∧ (st.users.get (t, u)).isSome then
        changedGroups rev (st.getUserGroups t u)
      else st.getUserGroups t u := by
  rw [applyRevocation, changedGroups]
  by_cases hremoved : rev.changeType = "removed_from_group"
  · simp only [if_pos hremoved]
    exact getUserGroups_changeGroups t u
  · by_cases hadded : rev.changeType = "added_to_group"
    · simp only [if_neg hremoved, if_pos hadded]
      exact getUserGroups_changeGroups t u
    · simp only [if_neg hremoved, if_neg hadded, ite_self]

theorem mem_changedGroups (h : g ∈ changedGroups rev groups) :
    g ∈ groups ∨ g = rev.groupId ∧ rev.changeType = "added_to_group" := by
  unfold changedGroups at h
  split_ifs at h with hremoved hadded
  · exact .inl (Finset.mem_of_mem_erase h)
  · rcases Finset.mem_insert.mp h with heq | hold
    · exact .inr ⟨heq, hadded⟩
    · exact .inl hold
  · exact .inl h

/-- A group that a change lets a user into, for good or not, is the group of an addition. -/
theorem mem_of_mem_applyRevocation {t u : String}
    (h : g ∈ (st.applyRevocation rev).2.getUserGroups t u) :
    g ∈ st.getUserGroups t u ∨ ((t, u) = (rev.tenantId, rev.globalUserId) ∧
      (st.users.get (t, u)).isSome = true ∧ g = rev.groupId ∧ rev.changeType = "added_to_group") := by
  rw [getUserGroups_applyRevocation] at h
  split_ifs at h with hkey
  · rcases mem_changedGroups h with hold | ⟨hg, hadded⟩
    · exact .inl hold
    · exact .inr ⟨hkey.1, hkey.2, hg, hadded⟩
  · exact .inl h

theorem notMem_of_removed (hremoved : rev.changeType = "removed_from_group") :
    rev.groupId ∉ (st.applyRevocation rev).2.getUserGroups rev.tenantId rev.globalUserId := by
  rw [getUserGroups_applyRevocation]
  split_ifs with hkey
  · rw [changedGroups, if_pos hremoved]
    exact Finset.notMem_erase _ _
  · -- a user that is not stored is in no group
    have hnone : st.users.get (rev.tenantId, rev.globalUserId) = none := by
      cases huser : st.users.get (rev.tenantId, rev.globalUserId) with
      | none => rfl
      | some user => exact absurd ⟨rfl, by rw [huser]; rfl⟩ hkey
    simp [getUserGroups, hnone]

theorem mem_of_added (hadded : rev.changeType = "added_to_group")
    (hstored : (st.users.get (rev.tenantId, rev.globalUserId)).isSome = true) :
    rev.groupId ∈ (st.applyRevocation rev).2.getUserGroups rev.tenantId rev.globalUserId := by
  have hne : rev.changeType ≠ "removed_from_group" := by
    rw [hadded]
    decide
  rw [getUserGroups_applyRevocation, if_pos ⟨rfl, hstored⟩, changedGroups, if_neg hne, if_pos hadded]
  exact Finset.mem_insert_self _ _

theorem getUserGroups_ensureUser {uuid tenantId providerUserId email displayName t u : String}
    (h : g ∈ (st.ensureUser uuid tenantId providerUserId email displayName).2.getUserGroups t u) :
    g ∈ st.getUserGroups t u := by
  unfold ensureUser at h
  split at h
  · exact h
  · simp only [getUserGroups, KMap.get_put] at h ⊢
    split_ifs at h
    · simp at h
    · exact h

end Changes

end InMemoryAclStore

/-! ## The pipeline -/

/-- The access store, the topic `events.acl` with the consumer's offset, the changes that are applied
and not yet published, and all changes that were ingested, newest first. -/
structure AclPipeline where
  acl : InMemoryAclStore
  pending : List AclRevocationRecord
  topic : List AclRevocationRecord
  offset : Nat
  ingested : List AclRevocationRecord

inductive AclStep where
  | ensureUser (uuid tenantId providerUserId email displayName : String)
  /-- an event of the ingestion, applied inline -/
  | applyInline (event : CanonicalEventRecord) (now : DateTime)
  /-- the publish of a change that was applied -/
  | publish (k : Nat)
  | publishFails (k : Nat)
  /-- the consumer takes the next change -/
  | consume

namespace AclPipeline

def start (acl : InMemoryAclStore) : AclPipeline := ⟨acl, [], [], 0, []⟩

def step (s : AclPipeline) : AclStep → AclPipeline
  | .ensureUser uuid tenantId providerUserId email displayName =>
    { s with acl := (s.acl.ensureUser uuid tenantId providerUserId email displayName).2 }
  | .applyInline event now =>
    if event.category = .identity then
      match extractAclRevocation event now with
      | some rev =>
        { s with
          acl := (s.acl.applyRevocation rev).2
          pending := s.pending ++ [rev]
          ingested := rev :: s.ingested }
      | none => s
    else s
  | .publish k =>
    match s.pending[k]? with
    | some rev => { s with pending := s.pending.eraseIdx k, topic := s.topic ++ [rev] }
    | none => s
  | .publishFails k => { s with pending := s.pending.eraseIdx k }
  | .consume =>
    match s.topic[s.offset]? with
    | some rev => { s with acl := (s.acl.applyRevocation rev).2, offset := s.offset + 1 }
    | none => s

/-- The last change of the user's membership that was ingested. -/
def latestChange (s : AclPipeline) (tenantId globalUserId groupId : String) : Option String :=
  (s.ingested.find? fun rev => rev.tenantId = tenantId && rev.globalUserId = globalUserId &&
    rev.groupId = groupId).map fun rev => rev.changeType

/-- Nobody is in a group that the last change took them out of. -/
def Respected (s : AclPipeline) : Prop :=
  ∀ t u g, s.latestChange t u g = some "removed_from_group" → g ∉ s.acl.getUserGroups t u

/-- The consumer takes the addition of a stored user to a group, and a removal was ingested since. -/
def Regrants (s : AclPipeline) : AclStep → Prop
  | .consume =>
    match s.topic[s.offset]? with
    | some rev => rev.changeType = "added_to_group" ∧
        s.latestChange rev.tenantId rev.globalUserId rev.groupId = some "removed_from_group" ∧
        (s.acl.users.get (rev.tenantId, rev.globalUserId)).isSome = true
    | none => False
  | _ => False

section Step
variable {s : AclPipeline} {rev : AclRevocationRecord}

theorem latestChange_cons {acl : InMemoryAclStore} {pending : List AclRevocationRecord} (t u g : String) :
    ({ s with acl := acl, pending := pending, ingested := rev :: s.ingested } :
        AclPipeline).latestChange t u g =
      if rev.tenantId = t ∧ rev.globalUserId = u ∧ rev.groupId = g then some rev.changeType
      else s.latestChange t u g := by
  unfold latestChange
  exact latest_cons (by simp [and_assoc])

theorem respected_applyInline (hs : Respected s) (pending : List AclRevocationRecord) :
    Respected { s with
      acl := (s.acl.applyRevocation rev).2, pending := pending, ingested := rev :: s.ingested } := by
  intro t u g hlatest hmem
  rw [latestChange_cons] at hlatest
  split_ifs at hlatest with habout
  · obtain ⟨rfl, rfl, rfl⟩ := habout
    exact InMemoryAclStore.notMem_of_removed (Option.some.inj hlatest) hmem
  · rcases InMemoryAclStore.mem_of_mem_applyRevocation hmem with hold | ⟨hkey, -, rfl, -⟩
    · exact hs t u g hlatest hold
    · obtain ⟨rfl, rfl⟩ := Prod.mk.inj hkey
      exact habout ⟨rfl, rfl, rfl⟩

theorem respected_consume_iff (hs : Respected s) (offset : Nat) :
    Respected { s with acl := (s.acl.applyRevocation rev).2, offset := offset } ↔
      ¬ (rev.changeType = "added_to_group" ∧
        s.latestChange rev.tenantId rev.globalUserId rev.groupId = some "removed_from_group" ∧
        (s.acl.users.get (rev.tenantId, rev.globalUserId)).isSome = true) := by
  constructor
  · rintro hafter ⟨hadded, hlatest, hstored⟩
    exact hafter _ _ _ hlatest (InMemoryAclStore.mem_of_added hadded hstored)
  · intro hno t u g hlatest hmem
    rcases InMemoryAclStore.mem_of_mem_applyRevocation hmem with hold | ⟨hkey, hstored, rfl, hadded⟩
    · exact hs t u g hlatest hold
    · obtain ⟨rfl, rfl⟩ := Prod.mk.inj hkey
      exact hno ⟨hadded, hlatest, hstored⟩

theorem respected_step_iff (hs : Respected s) (x : AclStep) :
    Respected (s.step x) ↔ ¬ Regrants s x := by
  cases x with
  | ensureUser uuid tenantId providerUserId email displayName =>
    refine iff_of_true (fun t u g hlatest hmem => ?_) id
    exact hs t u g hlatest (InMemoryAclStore.getUserGroups_ensureUser hmem)
  | applyInline event now =>
    refine iff_of_true ?_ id
    unfold step
    dsimp only
    split_ifs
    · split
      · exact respected_applyInline hs _
      · exact hs
    · exact hs
  | publish k =>
    refine iff_of_true ?_ id
    unfold step
    dsimp only
    split <;> exact hs
  | publishFails k => exact iff_of_true hs id
  | consume =>
    unfold step Regrants
    dsimp only
    split
    · exact respected_consume_iff hs _
    · exact iff_of_true hs id

end Step

/-- **Removals.** In a run of ingestions and the consumer, nobody is in a group that the last ingested
change took them out of, exactly if the consumer never takes an addition after that removal. -/
theorem revoked_stays_out_iff (acl : InMemoryAclStore) (xs : List AclStep) :
    Throughout step Respected (start acl) xs ↔
      EachStep step (fun s x => ¬ Regrants s x) (start acl) xs := by
  refine throughout_iff (V := fun _ _ => True) (fun s x _ hs => respected_step_iff hs x) ?_ ?_
  · exact .of_forall (fun _ _ => trivial) _ _
  · intro t u g hlatest
    cases hlatest

/-! ### A removal before the consumer has read the addition -/

/-- An identity event of the user `gu_1` and the team `eng`. -/
def teamEvent (eventId eventType : String) : CanonicalEventRecord :=
  { (default : CanonicalEventRecord) with
    eventId := eventId, tenantId := "t", category := .identity, eventType := eventType,
    actor := { globalUserId := "gu_1" }, attributes := .obj [("team", .str "eng")] }

def addedThenRemoved : List AclStep :=
  [.ensureUser "1" "t" "p" "" "", .applyInline (teamEvent "e1" "identity.membership.added") 0,
    .publish 0, .applyInline (teamEvent "e2" "identity.membership.removed") 1, .publish 0, .consume]

theorem removed_is_back : ¬ Throughout step Respected (start .new) addedThenRemoved := by
  intro h
  exact h.last "t" "gu_1" "eng" (by decide +kernel) (by decide +kernel)

end AclPipeline

end AiManager.Telemetry
