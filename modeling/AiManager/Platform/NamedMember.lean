import AiManager.Platform.Wire
import AiManager.Telemetry.Normalize

/-! # Whose membership an identity webhook changes

A membership webhook has a sender, who changed something, and names the member whose membership changed.
Three places act on it: the ingestion's access store, the graph's memberships through the access record,
and the graph's memberships through the event. All three act on the event's actor, and that is the
sender. -/

namespace AiManager.Platform

open Lib Telemetry AiManager.Graph

/-! ## Acting on members -/

section Acting
variable {T U G : Type} [DecidableEq U]

/-- Everyone in `members` has the groups that acting on them gives, and everyone else has theirs. -/
def ActsOn (before after : T → U → G) (act : U → T → U → G) (members : List U) : Prop :=
  ∀ t u, after t u = if u ∈ members then act u t u else before t u

/-- Acting on one user acts on the members, exactly if whoever is one and not the other is someone for
whom acting makes no difference. -/
theorem actsOn_iff {before after : T → U → G} {act : U → T → U → G} {target : U}
    (hafter : after = act target) (hlocal : ∀ x t u, u ≠ x → act x t u = before t u) (members : List U) :
    ActsOn before after act members ↔
      ∀ t u, (u = target ↔ u ∈ members) ∨ act u t u = before t u := by
  subst hafter
  refine forall_congr' fun t => forall_congr' fun u => ?_
  by_cases htarget : u = target
  · subst htarget
    by_cases hmember : u ∈ members
    · simp [hmember]
    · simp [hmember]
  · have hkept : act target t u = before t u := hlocal target t u htarget
    by_cases hmember : u ∈ members
    · simp [hkept, hmember, htarget, eq_comm]
    · simp [hkept, hmember, htarget]

end Acting

/-! ## The members a payload names -/

/-- A user object's id, as the ingestion writes a sender's. -/
def providerIdOf (user : Json) : String :=
  (((user.get "id").bind fun id => (id.asI64.map toString).or id.asStr).or (user.getStr "login")).getD ""

/-- The users whose membership the payload says has changed, by their ids at the provider. -/
def namedMembers (provider : SourceProvider) (v : Json) : List String :=
  match provider with
  | .github => (((v.get "member").or (v.nested ["membership", "user"])).map providerIdOf).toList
  | .gitlab => (((v.get "user_id").bind Json.asI64).map toString).toList
  | .jira => (((v.get "user").bind fun u => (u.get "accountId").or (u.get "key")).bind Json.asStr).toList
  | .linear => [providerIdOf ((v.get "data").getD v)]
  | .slack => [slackUser ((v.get "event").getD v)]
  | .teams =>
    ((((v.get "membersAdded").bind Json.asArray).getD []) ++
      (((v.get "membersRemoved").bind Json.asArray).getD [])).map providerIdOf
  | .zendesk | .unspecified => []

/-- Their global ids, for those who have one. -/
def memberIds (w : Webhook) (acl : InMemoryAclStore) : List String :=
  (namedMembers w.provider w.body).filterMap (acl.resolveGlobalUserId w.tenant.tenantId)

/-! ## The three places -/

section Places
variable (acl : InMemoryAclStore) (membership : InMemoryMembership) (rev : AclRevocationRecord)
  (change : MembershipChange)

/-- The ingestion's groups after a change on behalf of a user. -/
def aclGroups (u : String) : String → String → Finset String :=
  (acl.applyRevocation { rev with globalUserId := u }).2.getUserGroups

/-- The graph's groups after a change on behalf of a user. -/
def membershipGroups (u : String) : String → String → Finset String :=
  (membership.changed change.tenantId u change.groupId change.changeType).getGroups

/-- The change of an access record. -/
def recordedChange (rev : AclRevocationRecord) : MembershipChange :=
  ⟨rev.tenantId, rev.globalUserId, rev.groupId, rev.changeType⟩

theorem aclGroups_of_ne {x t u : String} (h : u ≠ x) :
    aclGroups acl rev x t u = acl.getUserGroups t u := by
  have hkey : ¬ ((t, u) = (rev.tenantId, x) ∧ (acl.users.get (t, u)).isSome) :=
    fun hk => h (Prod.mk.inj hk.1).2
  unfold aclGroups InMemoryAclStore.applyRevocation
  dsimp only
  split_ifs
  · exact (InMemoryAclStore.getUserGroups_changeGroups t u).trans (if_neg hkey)
  · exact (InMemoryAclStore.getUserGroups_changeGroups t u).trans (if_neg hkey)
  · rfl

theorem membershipGroups_of_ne {x t u : String} (h : u ≠ x) :
    membershipGroups membership change x t u = membership.getGroups t u := by
  unfold membershipGroups
  rw [InMemoryMembership.getGroups_changed, if_neg]
  intro hk
  exact h (Prod.mk.inj hk.1).2

end Places

/-- The webhook's event, where it is one, changes the groups of the named members as the event says, at
each of the three places, and nobody else's. -/
def ActsOnNamed (w : Webhook) (acl : InMemoryAclStore) (uuid : String) (fresh : Fresh) (now : DateTime)
    (membership : InMemoryMembership) : Prop :=
  let acl' := (w.sender acl uuid).2
  let members := memberIds w acl'
  ∀ event, (w.normalizeAndEnrich acl uuid fresh).1 = some event →
    (∀ rev, extractAclRevocation event now = some rev →
      ActsOn acl'.getUserGroups (acl'.applyRevocation rev).2.getUserGroups (aclGroups acl' rev) members ∧
      ActsOn membership.getGroups (membership.afterRevocation (wireRevocation rev)).getGroups
        (membershipGroups membership (recordedChange rev)) members) ∧
    ∀ change, membershipFromIdentityEvent (wireEvent event) = some change →
      ActsOn membership.getGroups (membership.afterIdentityEvent (wireEvent event)).getGroups
        (membershipGroups membership change) members

/-- The user of the event's change in the graph: the sender, or for an unknown sender whoever the
attributes of the event call the member. -/
def sideChannelUser (sender : String) (attributes : Json) : String :=
  if sender ≠ "" then sender
  else (((attributes.get "member").or (attributes.get "user")).bind Json.asStr).getD ""

/-- Whoever is the sender and not a named member, or the other way round, has groups that the event's
change leaves as they are, at each of the three places. -/
def SenderIsNamed (w : Webhook) (acl : InMemoryAclStore) (uuid : String) (fresh : Fresh) (now : DateTime)
    (membership : InMemoryMembership) : Prop :=
  let sender := (w.sender acl uuid).1
  let acl' := (w.sender acl uuid).2
  let members := memberIds w acl'
  ∀ event, (w.normalizeAndEnrich acl uuid fresh).1 = some event →
    (∀ rev, extractAclRevocation event now = some rev →
      (∀ t u, (u = sender ↔ u ∈ members) ∨ aclGroups acl' rev u t u = acl'.getUserGroups t u) ∧
      ∀ t u, (u = sender ↔ u ∈ members) ∨
        membershipGroups membership (recordedChange rev) u t u = membership.getGroups t u) ∧
    ∀ change, membershipFromIdentityEvent (wireEvent event) = some change →
      ∀ t u, (u = sideChannelUser sender event.attributes ↔ u ∈ members) ∨
        membershipGroups membership change u t u = membership.getGroups t u

section Targets
variable {event : CanonicalEventRecord} {rev : AclRevocationRecord} {change : MembershipChange}
  {now : DateTime}

theorem globalUserId_of_extract (h : extractAclRevocation event now = some rev) :
    rev.globalUserId = event.actor.globalUserId := by
  unfold extractAclRevocation at h
  split at h
  · cases h
  · cases h
    rfl

theorem globalUserId_of_identityEvent (h : membershipFromIdentityEvent (wireEvent event) = some change) :
    change.globalUserId = sideChannelUser event.actor.globalUserId event.attributes := by
  unfold membershipFromIdentityEvent at h
  dsimp only at h
  split at h
  · cases h
  · obtain ⟨changeType, -, rfl⟩ := Option.map_eq_some_iff.mp h
    show (if event.actor.globalUserId ≠ "" then event.actor.globalUserId else _) = _
    unfold sideChannelUser
    split_ifs with hunknown
    · rfl
    · -- the actor that the member falls back to is empty here
      have hempty : (wireEvent event).actor.globalUserId = "" := not_not.mp hunknown
      rw [hempty]
      rfl

end Targets

/-- **Named members.** An identity webhook, of any provider and with any body, acts on the members it
names and on nobody else exactly if nobody is the sender and not named, or named and not the sender, for
whom the change makes a difference. -/
theorem acts_on_named_iff (w : Webhook) (acl : InMemoryAclStore) (uuid : String) (fresh : Fresh)
    (now : DateTime) (membership : InMemoryMembership) :
    ActsOnNamed w acl uuid fresh now membership ↔ SenderIsNamed w acl uuid fresh now membership := by
  refine forall_congr' fun event => forall_congr' fun hevent => and_congr ?_ ?_
  · refine forall_congr' fun rev => forall_congr' fun hrev => ?_
    have hsender : rev.globalUserId = (w.sender acl uuid).1 :=
      (globalUserId_of_extract hrev).trans (Webhook.normalizeAndEnrich_actor hevent).1
    rw [← hsender]
    apply and_congr
    · apply actsOn_iff
      · rfl
      · intro x t u hu
        exact aclGroups_of_ne _ rev hu
    · apply actsOn_iff
      · rfl
      · intro x t u hu
        exact membershipGroups_of_ne membership (recordedChange rev) hu
  · refine forall_congr' fun change => forall_congr' fun hchange => ?_
    have huser : change.globalUserId = sideChannelUser (w.sender acl uuid).1 event.attributes := by
      rw [globalUserId_of_identityEvent hchange, (Webhook.normalizeAndEnrich_actor hevent).1]
    have hafter : (membership.afterIdentityEvent (wireEvent event)).getGroups =
        membershipGroups membership change change.globalUserId := by
      rw [InMemoryMembership.afterIdentityEvent_eq, hchange]
      rfl
    rw [← huser]
    apply actsOn_iff hafter
    intro x t u hu
    exact membershipGroups_of_ne membership change hu

/-! ### An administrator removes a member -/

/-- User 1 takes user 2 out of the team `eng`. -/
def removal : Webhook where
  tenant := { tenantId := "t" }
  provider := .github
  eventName := some "membership"
  deliveryId := "d"
  rawUri := ""
  body := .obj [("action", .str "removed"),
    ("sender", .obj [("id", .num 1 0), ("login", .str "admin")]),
    ("member", .obj [("id", .num 2 0), ("login", .str "bob")]),
    ("team", .obj [("slug", .str "eng")])]

/-- Both are known and in the team. -/
def bothInTeam : InMemoryAclStore :=
  let st := ((InMemoryAclStore.new.ensureUser "1" "t" "1" "" "admin").2.ensureUser "2" "t" "2" "" "bob").2
  ((st.addUserToGroup "t" "gu_1" "eng").2.addUserToGroup "t" "gu_2" "eng").2

theorem administrator_is_removed :
    ¬ ActsOnNamed removal bothInTeam "3" ⟨"", 0, 0⟩ 0
      ((InMemoryMembership.new.addGroup "t" "gu_1" "eng").addGroup "t" "gu_2" "eng") := by
  intro h
  obtain ⟨hrecord, -⟩ := h _ rfl
  have hadmin := (hrecord _ rfl).1 "t" "gu_1"
  revert hadmin
  decide +kernel

end AiManager.Platform
