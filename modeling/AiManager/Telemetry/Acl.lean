import AiManager.Lib.KMap
import AiManager.Lib.Text
import AiManager.Telemetry.Model
import Mathlib.Data.Finset.Insert
import Mathlib.Data.Finset.Erase

/-! # The access store

Identities and groups of a tenant's users, and the membership changes that identity events stand for. A
user's groups are a set. -/

namespace AiManager.Telemetry

open Lib

structure UserRecord where
  globalUserId : String
  email : String
  displayName : String
  groups : Finset String

/-- In-memory access engine. -/
structure InMemoryAclStore where
  /-- tenant and provider user to global user -/
  identityMap : KMap (String × String) String
  /-- by tenant and global user -/
  users : KMap (String × String) UserRecord
  versions : KMap String Nat

namespace InMemoryAclStore

def new : InMemoryAclStore := ⟨∅, ∅, ∅⟩

/-- The global id of a provider's user; a new user gets the identifier at hand and no groups. -/
def ensureUser (st : InMemoryAclStore) (uuid tenantId providerUserId email displayName : String) :
    String × InMemoryAclStore :=
  match st.identityMap.get (tenantId, providerUserId) with
  | some existing => (existing, st)
  | none =>
    let globalUserId := "gu_" ++ uuid
    (globalUserId,
      { st with
        identityMap := st.identityMap.put (tenantId, providerUserId) globalUserId
        users := st.users.put (tenantId, globalUserId) ⟨globalUserId, email, displayName, ∅⟩ })

def resolveGlobalUserId (st : InMemoryAclStore) (tenantId providerUserId : String) : Option String :=
  st.identityMap.get (tenantId, providerUserId)

def currentAclVersion (st : InMemoryAclStore) (tenantId : String) : Nat :=
  (st.versions.get tenantId).getD 0

def bumpVersion (st : InMemoryAclStore) (tenantId : String) : Nat × InMemoryAclStore :=
  let version := st.currentAclVersion tenantId + 1
  (version, { st with versions := st.versions.put tenantId version })

/-- Change the groups of a stored user. -/
def changeGroups (st : InMemoryAclStore) (tenantId globalUserId : String)
    (f : Finset String → Finset String) : CoreResult Nat × InMemoryAclStore :=
  match st.users.get (tenantId, globalUserId) with
  | none => (.error (.notFound ("user " ++ globalUserId)), st)
  | some user =>
    let st := { st with
      users := st.users.put (tenantId, globalUserId) { user with groups := f user.groups } }
    let (version, st) := st.bumpVersion tenantId
    (.ok version, st)

def addUserToGroup (st : InMemoryAclStore) (tenantId globalUserId groupId : String) :
    CoreResult Nat × InMemoryAclStore :=
  st.changeGroups tenantId globalUserId fun groups => insert groupId groups

def removeUserFromGroup (st : InMemoryAclStore) (tenantId globalUserId groupId : String) :
    CoreResult Nat × InMemoryAclStore :=
  st.changeGroups tenantId globalUserId fun groups => groups.erase groupId

def getUserGroups (st : InMemoryAclStore) (tenantId globalUserId : String) : Finset String :=
  match st.users.get (tenantId, globalUserId) with
  | some user => user.groups
  | none => ∅

def applyRevocation (st : InMemoryAclStore) (rev : AclRevocationRecord) :
    CoreResult Nat × InMemoryAclStore :=
  if rev.changeType = "removed_from_group" then
    st.removeUserFromGroup rev.tenantId rev.globalUserId rev.groupId
  else if rev.changeType = "added_to_group" then
    st.addUserToGroup rev.tenantId rev.globalUserId rev.groupId
  else (.error (.validation ("unknown ACL change_type: " ++ rev.changeType)), st)

/-! ### Groups after a change -/

section Groups
variable {st : InMemoryAclStore} {tenantId globalUserId : String} {f : Finset String → Finset String}

/-- Only the user's own groups change. -/
theorem getUserGroups_changeGroups (t u : String) :
    (st.changeGroups tenantId globalUserId f).2.getUserGroups t u =
      if (t, u) = (tenantId, globalUserId) ∧ (st.users.get (t, u)).isSome then
        f (st.getUserGroups t u)
      else st.getUserGroups t u := by
  unfold changeGroups
  cases huser : st.users.get (tenantId, globalUserId) with
  | none =>
    split_ifs with h
    · rw [h.1, huser] at h
      simp at h
    · rfl
  | some user =>
    simp only [bumpVersion, getUserGroups, KMap.get_put]
    by_cases hkey : (t, u) = (tenantId, globalUserId)
    · obtain ⟨rfl, rfl⟩ := Prod.mk.inj hkey
      simp [huser]
    · simp [hkey]

end Groups

end InMemoryAclStore

/-! ## Visibility -/

/-- `is_private = false OR hasAny(allowed_group_ids, user_groups)` -/
def aclAllows (ctx : QueryContext) (isPrivate : Bool) (allowedGroupIds : List String) : Bool :=
  if ctx.tenantId = "" then false
  else if !isPrivate then true
  -- private with an empty list: deny all
  else if allowedGroupIds.isEmpty then false
  else allowedGroupIds.any fun g => ctx.groupIds.contains g

theorem aclAllows_iff {ctx : QueryContext} {isPrivate : Bool} {allowedGroupIds : List String} :
    aclAllows ctx isPrivate allowedGroupIds = true ↔
      ctx.tenantId ≠ "" ∧ (isPrivate = false ∨ ∃ g ∈ allowedGroupIds, g ∈ ctx.groupIds) := by
  unfold aclAllows
  by_cases htenant : ctx.tenantId = ""
  · simp [htenant]
  · cases isPrivate with
    | false => simp [htenant]
    | true =>
      cases allowedGroupIds with
      | nil => simp [htenant]
      | cons g gs => simp [htenant]

/-! ## Membership changes of events -/

/-- The membership change that an event of this type is. -/
def changeTypeOf (eventType : String) : Option String :=
  let et := Text.toAsciiLowercase eventType
  if Text.contains et "remove" || Text.contains et "left" || Text.contains et "deleted" then
    some "removed_from_group"
  else if Text.contains et "add" || Text.contains et "joined" || Text.contains et "created" then
    some "added_to_group"
  else none

/-- Best-effort extraction of a membership change from an identity event. -/
def extractAclRevocation (event : CanonicalEventRecord) (now : DateTime) :
    Option AclRevocationRecord :=
  match changeTypeOf event.eventType with
  | none => none
  | some changeType =>
    let groupId := (((event.attributes.get "team").or (event.attributes.get "channel")).or
      (event.attributes.get "group_name")).bind Json.asStr
    let providerUserId := ((event.attributes.get "member").or
      (event.attributes.get "user")).bind Json.asStr
    some {
      eventId := event.eventId
      tenantId := event.tenantId
      globalUserId := event.actor.globalUserId
      providerUserId := providerUserId.getD event.actor.providerUserId
      provider := event.provider
      groupId := groupId.getD "unknown"
      changeType := changeType
      aclVersion := event.acl.aclVersion
      timestamp := now }

end AiManager.Telemetry
