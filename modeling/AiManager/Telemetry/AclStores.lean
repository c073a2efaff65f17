import AiManager.Telemetry.AclCrdb

/-! # Two access stores

The access store in memory and the production one under the same calls, one after the other, with the same new
identifiers. They differ about users whom they do not know: the one in memory refuses to change their groups, and the
other one inserts them. Otherwise they agree (`acl_stores_agree_iff`). -/

namespace AiManager.Telemetry

open Lib

/-! ## Calls -/

/-- The user and the change that a call asks for; a revocation of an unknown type asks for none. -/
def AclDbCall.change : AclDbCall → Option (String × String × GroupChange)
  | .ensureUser _ => none
  | .changeGroups t u change => some (t, u, change)
  | .applyRevocation rev =>
    if rev.changeType = "removed_from_group" then
      some (rev.tenantId, rev.globalUserId, .removeUserFromGroup rev.groupId)
    else if rev.changeType = "added_to_group" then some (rev.tenantId, rev.globalUserId, .addUserToGroup rev.groupId)
    else none

/-- A call of the store in memory, with an identifier at hand. -/
def InMemoryAclStore.call (st : InMemoryAclStore) (uuid : String) : AclDbCall → CoreResult AclReply × InMemoryAclStore
  | .ensureUser c =>
    let (gid, st) := st.ensureUser uuid c.tenantId c.providerUserId c.email c.displayName
    (.ok (.user gid), st)
  | .changeGroups t u change =>
    let (r, st) := st.changeGroups t u change.apply
    (r.map .version, st)
  | .applyRevocation rev =>
    let (r, st) := st.applyRevocation rev
    (r.map .version, st)

/-- Every statement succeeds, and the next identifier is `uuid`. -/
def quietAnswer (uuid : String) : Answer AclStatement AclStatement.Res AclTables Unit := fun _ op db =>
  aclDbAnswer (match op with | .newUuid => .fresh uuid | _ => .done) op db

/-- A call of the production store; none if the identifier is not new. -/
def AclTables.call (db : AclTables) (uuid : String) (c : AclDbCall) : Option (CoreResult AclReply × AclTables) :=
  c.run.exec (quietAnswer uuid) (fun _ => ()) db

structure AclStores where
  memory : InMemoryAclStore
  crdb : AclTables
  /-- what the stores returned -/
  replies : List (CoreResult AclReply × CoreResult AclReply)

namespace AclStores

def new : AclStores := ⟨.new, noTables, []⟩

def step (s : AclStores) (x : String × AclDbCall) : AclStores :=
  match s.crdb.call x.1 x.2 with
  | none => s
  | some (r, crdb) =>
    let (r', memory) := s.memory.call x.1 x.2
    ⟨memory, crdb, (r', r) :: s.replies⟩

/-- All reads and all replies are the same. -/
structure Agree (s : AclStores) : Prop where
  identity : ∀ t p, s.memory.resolveGlobalUserId t p = s.crdb.globalUserIdOf (t, p)
  groups : ∀ t u, s.memory.getUserGroups t u = s.crdb.groupsOf t u
  versions : ∀ t, s.memory.currentAclVersion t = s.crdb.currentAclVersion t
  replies : ∀ r ∈ s.replies, r.1 = r.2

/-- A user whose groups a call changes is known to the store in memory. -/
def KnownUser (s : AclStores) (x : String × AclDbCall) : Prop :=
  ∀ t u change, x.2.change = some (t, u, change) → (s.memory.users.get (t, u)).isSome

end AclStores

/-! ## What a call does -/

theorem mem_groupsOf {db : AclTables} {t u g : String} : g ∈ db.groupsOf t u ↔ (t, u, g) ∈ db.membership := by
  unfold AclTables.groupsOf
  simp only [Finset.mem_image, Finset.mem_filter]
  constructor
  · rintro ⟨⟨t', u', g'⟩, ⟨hmem, rfl, rfl⟩, rfl⟩
    exact hmem
  · intro hmem
    exact ⟨(t, u, g), ⟨hmem, rfl, rfl⟩, rfl⟩

theorem groupsOf_changeGroups (db : AclTables) (t u : String) (change : GroupChange) (t' u' : String) :
    (db.changeGroups t u change).groupsOf t' u' =
      if (t', u') = (t, u) then change.apply (db.groupsOf t u) else db.groupsOf t' u' := by
  ext g
  have hread : ∀ {groups : Finset String}, (g ∈ if (t', u') = (t, u) then groups else db.groupsOf t' u') ↔
      if (t', u') = (t, u) then g ∈ groups else (t', u', g) ∈ db.membership := by
    intro groups
    split_ifs
    · exact Iff.rfl
    · exact mem_groupsOf
  rw [mem_groupsOf, hread]
  cases change with
  | setUserGroups groupIds =>
    unfold AclTables.changeGroups GroupChange.apply
    simp only [Finset.mem_union, Finset.mem_filter, Finset.mem_image, Prod.mk.injEq]
    grind
  | addUserToGroup groupId =>
    unfold AclTables.changeGroups GroupChange.apply
    simp only [Finset.mem_insert, mem_groupsOf, Prod.mk.injEq]
    grind
  | removeUserFromGroup groupId =>
    unfold AclTables.changeGroups GroupChange.apply
    simp only [Finset.mem_erase, mem_groupsOf, ne_eq, Prod.mk.injEq]
    grind

section Crdb
variable (db : AclTables) (uuid : String)

/-- The tables after a change of groups. -/
def AclTables.changed (t u : String) (change : GroupChange) : AclTables :=
  ((db.changeGroups t u change).bumpVersion t).publish ⟨t, u, db.currentAclVersion t + 1⟩

theorem call_changeGroups (t u : String) (change : GroupChange) :
    db.call uuid (.changeGroups t u change) =
      some (.ok (.version (db.currentAclVersion t + 1)), db.changed t u change) := by
  have hversion : ((db.changeGroups t u change).bumpVersion t).currentAclVersion t = db.currentAclVersion t + 1 := by
    rw [AclTables.currentAclVersion_bumpVersion, if_pos rfl]
    unfold AclTables.currentAclVersion
    rw [AclTables.versions_changeGroups]
  show some (Except.ok (AclReply.version (((db.changeGroups t u change).bumpVersion t).currentAclVersion t)), _) = _
  rw [hversion]
  rfl

/-- What asks for a change is one. -/
theorem run_of_change {c : AclDbCall} {t u : String} {change : GroupChange} (h : c.change = some (t, u, change)) :
    c.run = (AclDbCall.changeGroups t u change).run := by
  cases c with
  | ensureUser c => cases h
  | changeGroups t' u' change' =>
    cases h
    rfl
  | applyRevocation rev =>
    unfold AclDbCall.change at h
    dsimp only at h
    show (CockroachAclStore.applyRevocation rev).bind _ = _
    unfold CockroachAclStore.applyRevocation
    by_cases hremoved : rev.changeType = "removed_from_group"
    · rw [if_pos hremoved] at h ⊢
      cases h
      rfl
    · rw [if_neg hremoved] at h ⊢
      by_cases hadded : rev.changeType = "added_to_group"
      · rw [if_pos hadded] at h ⊢
        cases h
        rfl
      · rw [if_neg hadded] at h
        cases h

theorem crdb_call_change {c : AclDbCall} {t u : String} {change : GroupChange} (h : c.change = some (t, u, change)) :
    db.call uuid c = some (.ok (.version (db.currentAclVersion t + 1)), db.changed t u change) := by
  rw [← call_changeGroups db uuid]
  unfold AclTables.call
  rw [run_of_change h]

theorem revocation_of_no_change {rev : AclRevocationRecord} (h : (AclDbCall.applyRevocation rev).change = none) :
    rev.changeType ≠ "removed_from_group" ∧ rev.changeType ≠ "added_to_group" := by
  unfold AclDbCall.change at h
  dsimp only at h
  split_ifs at h with hremoved hadded
  exact ⟨hremoved, hadded⟩

theorem crdb_call_revocation {rev : AclRevocationRecord} (h : (AclDbCall.applyRevocation rev).change = none) :
    db.call uuid (.applyRevocation rev) =
      some (.error (.validation ("unknown ACL change_type: " ++ rev.changeType)), db) := by
  obtain ⟨hremoved, hadded⟩ := revocation_of_no_change h
  show ((CockroachAclStore.applyRevocation rev).bind _).exec _ _ _ = _
  unfold CockroachAclStore.applyRevocation
  rw [if_neg hremoved, if_neg hadded]
  rfl

theorem crdb_call_user_found {c : UserCall} {gid : String} (h : db.globalUserIdOf c.key = some gid) :
    db.call uuid (.ensureUser c) = some (.ok (.user gid), db) := by
  unfold AclTables.call AclDbCall.run CockroachAclStore.ensureUser
  simp [aclStatement, Prog.perform, Prog.exec, quietAnswer, aclDbAnswer, h, Except.map]

theorem crdb_call_user_new {c : UserCall} (h : db.globalUserIdOf c.key = none) :
    db.call uuid (.ensureUser c) = if uuid ∈ db.issued then none else
      some (.ok (.user ("gu_" ++ uuid)),
        { db with issued := uuid :: db.issued }.insertIdentity c.key ⟨"gu_" ++ uuid, c.email, c.displayName⟩) := by
  have hagain : ({ db with issued := uuid :: db.issued }.insertIdentity c.key
      ⟨"gu_" ++ uuid, c.email, c.displayName⟩).globalUserIdOf c.key = some ("gu_" ++ uuid) := by
    rw [AclTables.globalUserIdOf_insertIdentity, if_pos ⟨rfl, h⟩]
  unfold AclTables.call AclDbCall.run CockroachAclStore.ensureUser
  by_cases hnew : uuid ∈ db.issued
  · simp [aclStatement, Prog.perform, Prog.exec, quietAnswer, aclDbAnswer, h, hnew]
  · simp [aclStatement, Prog.perform, Prog.exec, quietAnswer, aclDbAnswer, h, hnew, hagain, Except.map]

end Crdb

section Memory
variable (st : InMemoryAclStore) (uuid : String)

/-- What asks for a change is one. -/
theorem memory_call_change {c : AclDbCall} {t u : String} {change : GroupChange} (h : c.change = some (t, u, change)) :
    st.call uuid c = ((st.changeGroups t u change.apply).1.map .version, (st.changeGroups t u change.apply).2) := by
  cases c with
  | ensureUser c => cases h
  | changeGroups t' u' change' =>
    cases h
    rfl
  | applyRevocation rev =>
    unfold AclDbCall.change at h
    dsimp only at h
    unfold InMemoryAclStore.call InMemoryAclStore.applyRevocation
    dsimp only
    by_cases hremoved : rev.changeType = "removed_from_group"
    · rw [if_pos hremoved] at h ⊢
      cases h
      rfl
    · rw [if_neg hremoved] at h ⊢
      by_cases hadded : rev.changeType = "added_to_group"
      · rw [if_pos hadded] at h ⊢
        cases h
        rfl
      · rw [if_neg hadded] at h
        cases h

theorem memory_call_revocation {rev : AclRevocationRecord} (h : (AclDbCall.applyRevocation rev).change = none) :
    st.call uuid (.applyRevocation rev) =
      (.error (.validation ("unknown ACL change_type: " ++ rev.changeType)), st) := by
  obtain ⟨hremoved, hadded⟩ := revocation_of_no_change h
  unfold InMemoryAclStore.call InMemoryAclStore.applyRevocation
  dsimp only
  rw [if_neg hremoved, if_neg hadded]
  rfl

theorem memory_call_user_found {c : UserCall} {gid : String}
    (h : st.resolveGlobalUserId c.tenantId c.providerUserId = some gid) :
    st.call uuid (.ensureUser c) = (.ok (.user gid), st) := by
  unfold InMemoryAclStore.resolveGlobalUserId at h
  unfold InMemoryAclStore.call InMemoryAclStore.ensureUser
  dsimp only
  rw [h]

theorem memory_call_user_new {c : UserCall} (h : st.resolveGlobalUserId c.tenantId c.providerUserId = none) :
    st.call uuid (.ensureUser c) = (.ok (.user ("gu_" ++ uuid)),
      { st with
        identityMap := st.identityMap.put c.key ("gu_" ++ uuid)
        users := st.users.put (c.tenantId, "gu_" ++ uuid) ⟨"gu_" ++ uuid, c.email, c.displayName, ∅⟩ }) := by
  unfold InMemoryAclStore.resolveGlobalUserId at h
  unfold InMemoryAclStore.call InMemoryAclStore.ensureUser
  dsimp only
  rw [h]
  rfl

theorem changeGroups_known {t u : String} {f : Finset String → Finset String}
    (h : (st.users.get (t, u)).isSome = true) :
    (st.changeGroups t u f).1 = .ok (st.currentAclVersion t + 1) ∧
      (∀ t', (st.changeGroups t u f).2.currentAclVersion t' =
        if t' = t then st.currentAclVersion t + 1 else st.currentAclVersion t') ∧
      (st.changeGroups t u f).2.identityMap = st.identityMap ∧
      ∀ k user, (st.changeGroups t u f).2.users.get k = some user → (st.users.get k).isSome = true := by
  obtain ⟨user, huser⟩ := Option.isSome_iff_exists.mp h
  unfold InMemoryAclStore.changeGroups
  rw [huser]
  refine ⟨rfl, fun t' => ?_, rfl, fun k user' hk => ?_⟩
  · show (KMap.get (KMap.put _ _ _) _).getD 0 = _
    rw [KMap.get_put]
    split_ifs <;> rfl
  · have hget : (st.users.put (t, u) { user with groups := f user.groups }).get k = some user' := hk
    rw [KMap.get_put] at hget
    split_ifs at hget with hkey
    · rw [hkey]
      exact h
    · rw [hget]
      rfl

theorem changeGroups_unknown {t u : String} {f : Finset String → Finset String} (h : st.users.get (t, u) = none) :
    st.changeGroups t u f = (.error (.notFound ("user " ++ u)), st) := by
  unfold InMemoryAclStore.changeGroups
  rw [h]

end Memory

/-! ## Runs -/

namespace AclStores
variable {s : AclStores} {uuid : String} {c : AclDbCall}

/-- Every user of the store in memory has an identifier that the production store has made. -/
def Issued (s : AclStores) : Prop :=
  ∀ t u user, s.memory.users.get (t, u) = some user → ∃ uuid ∈ s.crdb.issued, u = "gu_" ++ uuid

theorem step_eq {r r' : CoreResult AclReply} {crdb : AclTables} {memory : InMemoryAclStore}
    (hcrdb : s.crdb.call uuid c = some (r, crdb)) (hmemory : s.memory.call uuid c = (r', memory)) :
    s.step (uuid, c) = ⟨memory, crdb, (r', r) :: s.replies⟩ := by
  unfold step
  dsimp only
  rw [hcrdb, hmemory]

theorem step_change {t u : String} {change : GroupChange} (h : c.change = some (t, u, change)) :
    s.step (uuid, c) = ⟨(s.memory.changeGroups t u change.apply).2, s.crdb.changed t u change,
      ((s.memory.changeGroups t u change.apply).1.map .version, .ok (.version (s.crdb.currentAclVersion t + 1)))
        :: s.replies⟩ :=
  step_eq (crdb_call_change _ _ h) (memory_call_change _ _ h)

theorem agree_change (h : Agree s) {t u : String} {change : GroupChange} (hchange : c.change = some (t, u, change))
    (hknown : (s.memory.users.get (t, u)).isSome = true) : Agree (s.step (uuid, c)) := by
  obtain ⟨hreply, hversion, hidentity, -⟩ := changeGroups_known s.memory (f := change.apply) hknown
  rw [step_change hchange]
  refine ⟨fun t' p => ?_, fun t' u' => ?_, fun t' => ?_, fun r hr => ?_⟩
  · show (s.memory.changeGroups t u change.apply).2.identityMap.get (t', p) = (s.crdb.changed t u change).globalUserIdOf _
    rw [hidentity]
    refine (h.identity t' p).trans ?_
    unfold AclTables.globalUserIdOf AclTables.changed
    show _ = ((s.crdb.changeGroups t u change).identity.get (t', p)).map _
    rw [AclTables.identity_changeGroups]
  · show (s.memory.changeGroups t u change.apply).2.getUserGroups t' u' = (s.crdb.changeGroups t u change).groupsOf t' u'
    rw [InMemoryAclStore.getUserGroups_changeGroups, groupsOf_changeGroups]
    by_cases hkey : (t', u') = (t, u)
    · rw [if_pos ⟨hkey, hkey ▸ hknown⟩, if_pos hkey]
      obtain ⟨rfl, rfl⟩ := Prod.mk.inj hkey
      rw [h.groups]
    · rw [if_neg fun hboth => hkey hboth.1, if_neg hkey, h.groups]
  · show (s.memory.changeGroups t u change.apply).2.currentAclVersion t' =
      ((s.crdb.changeGroups t u change).bumpVersion t).currentAclVersion t'
    rw [hversion, AclTables.currentAclVersion_bumpVersion, AclTables.currentAclVersion_changeGroups,
      AclTables.currentAclVersion_changeGroups, h.versions, h.versions]
  · rcases List.mem_cons.mp hr with rfl | hold
    · rw [hreply, h.versions]
      rfl
    · exact h.replies r hold

/-- An unknown user's groups are refused by one store and changed by the other. -/
theorem not_agree_change {t u : String} {change : GroupChange} (hchange : c.change = some (t, u, change))
    (hunknown : s.memory.users.get (t, u) = none) : ¬ Agree (s.step (uuid, c)) := by
  intro hagree
  rw [step_change hchange, changeGroups_unknown _ hunknown] at hagree
  have hreply := hagree.replies _ List.mem_cons_self
  cases hreply

theorem issued_change (h : Issued s) {t u : String} {change : GroupChange} (hchange : c.change = some (t, u, change)) :
    Issued (s.step (uuid, c)) := by
  have hmade : (s.crdb.changed t u change).issued = s.crdb.issued := AclTables.issued_changeGroups ..
  rw [step_change hchange]
  intro t' u' user huser
  show ∃ uuid ∈ (s.crdb.changed t u change).issued, _
  rw [hmade]
  cases hget : s.memory.users.get (t, u) with
  | none =>
    rw [changeGroups_unknown _ hget] at huser
    exact h t' u' user huser
  | some old =>
    have hknown : (s.memory.users.get (t, u)).isSome = true := by
      rw [hget]
      rfl
    obtain ⟨-, -, -, hold⟩ := changeGroups_known s.memory (f := change.apply) hknown
    obtain ⟨user', huser'⟩ := Option.isSome_iff_exists.mp (hold (t', u') user huser)
    exact h t' u' user' huser'

/-- A call that finds its user, or asks for nothing, changes no store. -/
theorem agree_same (h : Agree s) (hI : Issued s) {r : CoreResult AclReply} (hcrdb : s.crdb.call uuid c = some (r, s.crdb))
    (hmemory : s.memory.call uuid c = (r, s.memory)) : Agree (s.step (uuid, c)) ∧ Issued (s.step (uuid, c)) := by
  rw [step_eq hcrdb hmemory]
  refine ⟨⟨h.identity, h.groups, h.versions, fun r' hr => ?_⟩, hI⟩
  rcases List.mem_cons.mp hr with rfl | hold
  · rfl
  · exact h.replies r' hold

/-- Nobody has an identifier that was not made. -/
theorem users_unmade (hI : Issued s) (hnew : uuid ∉ s.crdb.issued) (t : String) :
    s.memory.users.get (t, "gu_" ++ uuid) = none := by
  cases huser : s.memory.users.get (t, "gu_" ++ uuid) with
  | none => rfl
  | some user =>
    obtain ⟨used, hused, heq⟩ := hI t _ user huser
    rw [(String.append_right_inj _).mp heq] at hnew
    exact absurd hused hnew

section NewUser
variable {user : UserCall}

/-- A new user, in both stores. -/
theorem step_user_new (h : Agree s) (hget : s.crdb.globalUserIdOf user.key = none) (hnew : uuid ∉ s.crdb.issued) :
    s.step (uuid, .ensureUser user) =
      ⟨{ s.memory with
          identityMap := s.memory.identityMap.put user.key ("gu_" ++ uuid)
          users := s.memory.users.put (user.tenantId, "gu_" ++ uuid)
            ⟨"gu_" ++ uuid, user.email, user.displayName, ∅⟩ },
        { s.crdb with issued := uuid :: s.crdb.issued }.insertIdentity user.key
          ⟨"gu_" ++ uuid, user.email, user.displayName⟩,
        (.ok (.user ("gu_" ++ uuid)), .ok (.user ("gu_" ++ uuid))) :: s.replies⟩ := by
  have hcrdb := crdb_call_user_new s.crdb uuid hget
  rw [if_neg hnew] at hcrdb
  exact step_eq hcrdb (memory_call_user_new _ _ ((h.identity _ _).trans hget))

theorem agree_user_new (h : Agree s) (hI : Issued s) (hget : s.crdb.globalUserIdOf user.key = none)
    (hnew : uuid ∉ s.crdb.issued) : Agree (s.step (uuid, .ensureUser user)) := by
  rw [step_user_new h hget hnew]
  refine ⟨fun t p => ?_, fun t u => ?_, fun t => ?_, fun r hr => ?_⟩
  · show (s.memory.identityMap.put user.key ("gu_" ++ uuid)).get (t, p) = _
    rw [KMap.get_put, AclTables.globalUserIdOf_insertIdentity]
    by_cases hkey : (t, p) = user.key
    · rw [if_pos hkey, if_pos ⟨hkey, hget⟩]
    · rw [if_neg hkey, if_neg fun hboth => hkey hboth.1]
      exact h.identity t p
  · have hgroups : ({ s.crdb with issued := uuid :: s.crdb.issued }.insertIdentity user.key
        ⟨"gu_" ++ uuid, user.email, user.displayName⟩).groupsOf t u = s.crdb.groupsOf t u := by
      unfold AclTables.groupsOf
      rw [AclTables.membership_insertIdentity]
    refine Eq.trans ?_ ((h.groups t u).trans hgroups.symm)
    unfold InMemoryAclStore.getUserGroups
    dsimp only
    rw [KMap.get_put]
    by_cases hkey : (t, u) = (user.tenantId, "gu_" ++ uuid)
    · obtain ⟨rfl, rfl⟩ := Prod.mk.inj hkey
      rw [if_pos rfl, users_unmade hI hnew]
    · rw [if_neg hkey]
  · rw [AclTables.currentAclVersion_insertIdentity]
    exact h.versions t
  · rcases List.mem_cons.mp hr with rfl | hold
    · rfl
    · exact h.replies r hold

theorem issued_user_new (h : Agree s) (hI : Issued s) (hget : s.crdb.globalUserIdOf user.key = none)
    (hnew : uuid ∉ s.crdb.issued) : Issued (s.step (uuid, .ensureUser user)) := by
  rw [step_user_new h hget hnew]
  intro t u user' huser
  rw [AclTables.issued_insertIdentity]
  have hread : (s.memory.users.put (user.tenantId, "gu_" ++ uuid)
      ⟨"gu_" ++ uuid, user.email, user.displayName, ∅⟩).get (t, u) = some user' := huser
  rw [KMap.get_put] at hread
  split_ifs at hread with hkey
  · exact ⟨uuid, List.mem_cons_self, (Prod.mk.inj hkey).2⟩
  · obtain ⟨used, hused, heq⟩ := hI t u user' hread
    exact ⟨used, List.mem_cons_of_mem _ hused, heq⟩

end NewUser

theorem agree_user (h : Agree s) (hI : Issued s) (user : UserCall) :
    Agree (s.step (uuid, .ensureUser user)) ∧ Issued (s.step (uuid, .ensureUser user)) := by
  cases hget : s.crdb.globalUserIdOf user.key with
  | some gid =>
    exact agree_same h hI (crdb_call_user_found _ _ hget) (memory_call_user_found _ _ ((h.identity _ _).trans hget))
  | none =>
    by_cases hnew : uuid ∈ s.crdb.issued
    · -- no such identifier can be made
      have hstep : s.step (uuid, .ensureUser user) = s := by
        unfold step
        dsimp only
        rw [crdb_call_user_new _ _ hget, if_pos hnew]
      rw [hstep]
      exact ⟨h, hI⟩
    · exact ⟨agree_user_new h hI hget hnew, issued_user_new h hI hget hnew⟩

/-- **One step.** -/
theorem agree_step_iff (hI : Issued s) (h : Agree s) (x : String × AclDbCall) :
    Agree (s.step x) ↔ KnownUser s x := by
  obtain ⟨uuid, c⟩ := x
  cases hchange : c.change with
  | some change =>
    obtain ⟨t, u, change⟩ := change
    constructor
    · intro hagree t' u' change' hchange'
      rw [hchange] at hchange'
      cases hchange'
      cases hget : s.memory.users.get (t, u) with
      | some user => rfl
      | none => exact absurd hagree (not_agree_change hchange hget)
    · exact fun hknown => agree_change h hchange (hknown t u change hchange)
  | none =>
    refine iff_of_true ?_ fun t u change hchange' => ?_
    · cases c with
      | ensureUser user => exact (agree_user h hI user).1
      | changeGroups t u change => cases hchange
      | applyRevocation rev =>
        exact (agree_same h hI (crdb_call_revocation _ _ hchange) (memory_call_revocation _ _ hchange)).1
    · rw [hchange] at hchange'
      cases hchange'

theorem issued_step (hI : Issued s) (h : Agree s) (x : String × AclDbCall) : Issued (s.step x) := by
  obtain ⟨uuid, c⟩ := x
  cases hchange : c.change with
  | some change => exact issued_change hI hchange
  | none =>
    cases c with
    | ensureUser user => exact (agree_user h hI user).2
    | changeGroups t u change => cases hchange
    | applyRevocation rev =>
      exact (agree_same h hI (crdb_call_revocation _ _ hchange) (memory_call_revocation _ _ hchange)).2

/-- **Two stores.** Whatever is called, in whatever order, the store in memory and the production store return the same
and hold the same identities, groups and versions, exactly if groups are changed only of users whom they know. -/
theorem acl_stores_agree_iff (xs : List (String × AclDbCall)) :
    Throughout step Agree new xs ↔ EachStep step KnownUser new xs := by
  refine throughout_iff_of_invariant (fun s x hI h => issued_step hI h x) (fun s x hI h => agree_step_iff hI h x) ?_ ?_
  · intro t u user huser
    cases huser
  · exact ⟨fun _ _ => rfl, fun _ _ => rfl, fun _ => rfl, fun _ hr => (by cases hr)⟩

end AclStores

end AiManager.Telemetry
