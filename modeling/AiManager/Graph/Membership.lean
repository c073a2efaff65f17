import AiManager.Graph.Model
import AiManager.Lib.KMap
import Mathlib.Data.Finset.Erase
import Mathlib.Data.Finset.Dedup
import Mathlib.Data.Finset.Insert

/-! # Group memberships of the graph

Which groups a tenant's users are in, as far as the graph knows. The port is generic in the effects of its
implementation; the embedded implementation is a map that is never read outside the port. -/

namespace AiManager.Graph

open Lib

/-- The membership port. A user's groups are a set, listed in no particular order. -/
structure MembershipStore (m : Type → Type) where
  setGroups : String → String → List String → m (GraphResult Unit)
  addGroup : String → String → String → m (GraphResult Unit)
  removeGroup : String → String → String → m (GraphResult Unit)
  getGroups : String → String → m (GraphResult (Finset String))

/-- Apply a membership change of an identity event or of an access record. -/
def applyMembershipChange {m : Type → Type} [Monad m] (store : MembershipStore m)
    (tenantId globalUserId groupId changeType : String) : m (GraphResult Unit) :=
  if globalUserId = "" ∨ groupId = "" then
    pure (.error (.validation "membership change requires user and group"))
  else if changeType = "removed_from_group" then store.removeGroup tenantId globalUserId groupId
  else if changeType = "added_to_group" then store.addGroup tenantId globalUserId groupId
  else pure (.error (.validation ("unknown membership change_type: " ++ changeType)))

/-! ## The embedded store -/

structure InMemoryMembership where
  /-- (tenant, user) → groups -/
  map : KMap (String × String) (Finset String)

namespace InMemoryMembership

def new : InMemoryMembership := ⟨∅⟩

def setGroups (st : InMemoryMembership) (tenantId globalUserId : String) (groups : List String) :
    InMemoryMembership :=
  ⟨st.map.put (tenantId, globalUserId) groups.toFinset⟩

def addGroup (st : InMemoryMembership) (tenantId globalUserId groupId : String) : InMemoryMembership :=
  ⟨st.map.put (tenantId, globalUserId) (insert groupId ((st.map.get (tenantId, globalUserId)).getD ∅))⟩

def removeGroup (st : InMemoryMembership) (tenantId globalUserId groupId : String) :
    InMemoryMembership :=
  match st.map.get (tenantId, globalUserId) with
  | some groups => ⟨st.map.put (tenantId, globalUserId) (groups.erase groupId)⟩
  | none => st

def getGroups (st : InMemoryMembership) (tenantId globalUserId : String) : Finset String :=
  (st.map.get (tenantId, globalUserId)).getD ∅

/-- The embedded implementation of the port never fails. -/
def port : MembershipStore (StateM InMemoryMembership) where
  setGroups t u groups := modifyGet fun st => (.ok (), st.setGroups t u groups)
  addGroup t u g := modifyGet fun st => (.ok (), st.addGroup t u g)
  removeGroup t u g := modifyGet fun st => (.ok (), st.removeGroup t u g)
  getGroups t u := modifyGet fun st => (.ok (st.getGroups t u), st)

/-- The store after a membership change. -/
def changed (st : InMemoryMembership) (tenantId globalUserId groupId changeType : String) :
    InMemoryMembership :=
  ((applyMembershipChange port tenantId globalUserId groupId changeType).run st).2

/-! ### Groups after a change -/

/-- A user's groups after a change. -/
def changedGroups (groupId changeType : String) (groups : Finset String) : Finset String :=
  if changeType = "removed_from_group" then groups.erase groupId
  else if changeType = "added_to_group" then insert groupId groups
  else groups

section Groups
variable {st : InMemoryMembership} {tenantId globalUserId groupId changeType : String}

@[simp] theorem getGroups_setGroups {groups : List String} (t u : String) :
    (st.setGroups tenantId globalUserId groups).getGroups t u =
      if (t, u) = (tenantId, globalUserId) then groups.toFinset else st.getGroups t u := by
  simp only [getGroups, setGroups, KMap.get_put]
  split_ifs <;> rfl

@[simp] theorem getGroups_addGroup (t u : String) :
    (st.addGroup tenantId globalUserId groupId).getGroups t u =
      if (t, u) = (tenantId, globalUserId) then insert groupId (st.getGroups t u)
      else st.getGroups t u := by
  simp only [getGroups, addGroup, KMap.get_put]
  split_ifs with hkey
  · rw [hkey]
    rfl
  · rfl

@[simp] theorem getGroups_removeGroup (t u : String) :
    (st.removeGroup tenantId globalUserId groupId).getGroups t u =
      if (t, u) = (tenantId, globalUserId) then (st.getGroups t u).erase groupId
      else st.getGroups t u := by
  unfold removeGroup
  cases hold : st.map.get (tenantId, globalUserId) with
  | none =>
    split_ifs with hkey
    · simp [getGroups, hkey, hold]
    · rfl
  | some groups =>
    simp only [getGroups, KMap.get_put]
    split_ifs with hkey
    · simp [hkey, hold]
    · rfl

theorem changed_eq : st.changed tenantId globalUserId groupId changeType =
    if globalUserId = "" ∨ groupId = "" then st
    else if changeType = "removed_from_group" then st.removeGroup tenantId globalUserId groupId
    else if changeType = "added_to_group" then st.addGroup tenantId globalUserId groupId
    else st := by
  unfold changed applyMembershipChange
  split_ifs <;> rfl

/-- Only the user's own groups change, and only if the user and the group have a name. -/
theorem getGroups_changed (t u : String) :
    (st.changed tenantId globalUserId groupId changeType).getGroups t u =
      if (t, u) = (tenantId, globalUserId) ∧ u ≠ "" ∧ groupId ≠ "" then
        changedGroups groupId changeType (st.getGroups t u)
      else st.getGroups t u := by
  rw [changed_eq]
  by_cases hkey : (t, u) = (tenantId, globalUserId)
  · obtain ⟨ht, hu⟩ := Prod.mk.inj hkey
    subst ht hu
    by_cases hnamed : u = "" ∨ groupId = ""
    · have hnobody : ¬ ((t, u) = (t, u) ∧ u ≠ "" ∧ groupId ≠ "") := fun h => hnamed.elim h.2.1 h.2.2
      rw [if_pos hnamed, if_neg hnobody]
    · have hself : (t, u) = (t, u) ∧ u ≠ "" ∧ groupId ≠ "" := ⟨rfl, not_or.mp hnamed⟩
      rw [if_neg hnamed, if_pos hself, changedGroups]
      split_ifs <;> simp
  · have hother : ¬ ((t, u) = (tenantId, globalUserId) ∧ u ≠ "" ∧ groupId ≠ "") := fun h => hkey h.1
    rw [if_neg hother]
    split_ifs
    · rfl
    · rw [getGroups_removeGroup, if_neg hkey]
    · rw [getGroups_addGroup, if_neg hkey]
    · rfl

end Groups

end InMemoryMembership

end AiManager.Graph
