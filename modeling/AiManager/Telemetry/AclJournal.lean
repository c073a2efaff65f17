import AiManager.Lib.Sorting
import AiManager.Lib.WriteThrough
import AiManager.Telemetry.AclStores

/-! # The journal of the access store

The embedded access store saves a snapshot after every change, so that a person keeps their identity when the process
is started again. A save writes a new file and renames it, so that there is always a whole one. As long as no save
fails, no reply tells that there was a restart (`acl_restarts_unseen`). -/

namespace AiManager.Telemetry

open Lib

/-! ## Snapshots -/

structure AclUserSnap where
  tenantId : String
  globalUserId : String
  email : String
  displayName : String
  groups : List String

structure AclPersistSnapshot where
  version : Nat
  savedAt : Option String
  /-- tenant, provider user and global user -/
  identity : List (String × String × String)
  users : List AclUserSnap
  versions : List (String × Nat)

namespace InMemoryAclStore

def userSnap (e : (String × String) × UserRecord) : AclUserSnap :=
  ⟨e.1.1, e.1.2, e.2.email, e.2.displayName, listed e.2.groups⟩

def exportSnapshot (st : InMemoryAclStore) (savedAt : String) : AclPersistSnapshot where
  version := 1
  savedAt := some savedAt
  identity := st.identityMap.items.map fun e => (e.1.1, e.1.2, e.2)
  users := st.users.items.map userSnap
  versions := st.versions.items

def insertUserSnap (users : KMap (String × String) UserRecord) (u : AclUserSnap) : KMap (String × String) UserRecord :=
  users.put (u.tenantId, u.globalUserId) ⟨u.globalUserId, u.email, u.displayName, u.groups.toFinset⟩

def importSnapshot (st : InMemoryAclStore) (snap : AclPersistSnapshot) : InMemoryAclStore where
  identityMap := snap.identity.foldl (fun m e => m.put (e.1, e.2.1) e.2.2) st.identityMap
  users := snap.users.foldl insertUserSnap st.users
  versions := snap.versions.foldl (fun m e => m.put e.1 e.2) st.versions

/-- The same identities, users and versions. -/
structure Same (st st' : InMemoryAclStore) : Prop where
  identity : ∀ key, st.identityMap.get key = st'.identityMap.get key
  users : ∀ key, st.users.get key = st'.users.get key
  versions : ∀ t, st.versions.get t = st'.versions.get t

instance : Setoid InMemoryAclStore where
  r := Same
  iseqv := {
    refl := fun _ => ⟨fun _ => rfl, fun _ => rfl, fun _ => rfl⟩
    symm := fun h => ⟨fun k => (h.identity k).symm, fun k => (h.users k).symm, fun t => (h.versions t).symm⟩
    trans := fun h h' => ⟨fun k => (h.identity k).trans (h'.identity k), fun k => (h.users k).trans (h'.users k),
      fun t => (h.versions t).trans (h'.versions t)⟩ }

/-- Every user is stored under their identity. -/
def UsersFiled (st : InMemoryAclStore) : Prop := ∀ t u user, st.users.get (t, u) = some user → user.globalUserId = u

/-- **A restart changes nothing.** -/
theorem same_import_export {st : InMemoryAclStore} (h : st.UsersFiled) (savedAt : String) :
    new.importSnapshot (st.exportSnapshot savedAt) ≈ st := by
  refine ⟨fun key => ?_, fun key => ?_, fun t => ?_⟩
  · exact KMap.get_foldl_put_items st.identityMap (fun e => (e.1.1, e.1.2, e.2)) (fun r => (r.1, r.2.1)) (fun r => r.2.2)
      (fun _ _ _ => ⟨rfl, rfl⟩) key
  · refine KMap.get_foldl_put_items st.users userSnap (fun u => (u.tenantId, u.globalUserId))
      (fun u => ⟨u.globalUserId, u.email, u.displayName, u.groups.toFinset⟩) (fun k user huser => ⟨rfl, ?_⟩) key
    have hid := h k.1 k.2 user huser
    unfold userSnap
    dsimp only
    rw [toFinset_listed, ← hid]
  · have hget := KMap.get_foldl_put_items st.versions id Prod.fst Prod.snd (fun _ _ _ => ⟨rfl, rfl⟩) t
    rw [List.map_id] at hget
    exact hget

theorem UsersFiled.congr {st st' : InMemoryAclStore} (h : st.UsersFiled) (hsame : st ≈ st') : st'.UsersFiled := by
  intro t u user huser
  exact h t u user ((hsame.users (t, u)).trans huser)

end InMemoryAclStore

/-! ## Requests -/

inductive AclRequest where
  | call (uuid : String) (c : AclDbCall)
  | resolveGlobalUserId (tenantId providerUserId : String)
  | getUserGroups (tenantId globalUserId : String)
  | currentAclVersion (tenantId : String)

inductive AclResponse where
  | called (r : CoreResult AclReply)
  | resolved (globalUserId : Option String)
  | groups (groupIds : Finset String)
  | version (v : Nat)

namespace InMemoryAclStore

def handle (st : InMemoryAclStore) : AclRequest → AclResponse × InMemoryAclStore
  | .call uuid c =>
    let (r, st) := st.call uuid c
    (.called r, st)
  | .resolveGlobalUserId t p => (.resolved (st.resolveGlobalUserId t p), st)
  | .getUserGroups t u => (.groups (st.getUserGroups t u), st)
  | .currentAclVersion t => (.version (st.currentAclVersion t), st)

/-- `maybe_persist` follows a new identity and every change of groups. -/
def callSaves (st : InMemoryAclStore) : AclDbCall → Bool
  | .ensureUser c => !st.identityMap.has c.key
  | .changeGroups t u _ => st.users.has (t, u)
  | .applyRevocation rev =>
    match (AclDbCall.applyRevocation rev).change with
    | some (t, u, _) => st.users.has (t, u)
    | none => false

def saves (st : InMemoryAclStore) : AclRequest → Bool
  | .call _ c => st.callSaves c
  | .resolveGlobalUserId _ _ | .getUserGroups _ _ | .currentAclVersion _ => false

def journal : Journal InMemoryAclStore AclPersistSnapshot String AclRequest AclResponse where
  fresh := new
  apply := handle
  saves := saves
  exported := exportSnapshot
  restored := new.importSnapshot

section Calls
variable {st st' : InMemoryAclStore}

theorem currentAclVersion_congr (h : st ≈ st') (t : String) : st.currentAclVersion t = st'.currentAclVersion t := by
  unfold currentAclVersion
  rw [h.versions]

theorem getUserGroups_congr (h : st ≈ st') (t u : String) : st.getUserGroups t u = st'.getUserGroups t u := by
  unfold getUserGroups
  rw [h.users]

theorem ensureUser_congr (h : st ≈ st') (uuid t p email displayName : String) :
    (st.ensureUser uuid t p email displayName).1 = (st'.ensureUser uuid t p email displayName).1 ∧
      (st.ensureUser uuid t p email displayName).2 ≈ (st'.ensureUser uuid t p email displayName).2 := by
  unfold ensureUser
  rw [h.identity]
  cases st'.identityMap.get (t, p) with
  | some existing => exact ⟨rfl, h⟩
  | none =>
    refine ⟨rfl, ⟨fun key => ?_, fun key => ?_, h.versions⟩⟩
    · show KMap.get (KMap.put _ _ _) key = KMap.get (KMap.put _ _ _) key
      rw [KMap.get_put, KMap.get_put, h.identity]
    · show KMap.get (KMap.put _ _ _) key = KMap.get (KMap.put _ _ _) key
      rw [KMap.get_put, KMap.get_put, h.users]

theorem changeGroups_congr (h : st ≈ st') (t u : String) (f : Finset String → Finset String) :
    (st.changeGroups t u f).1 = (st'.changeGroups t u f).1 ∧ (st.changeGroups t u f).2 ≈ (st'.changeGroups t u f).2 := by
  have hversion := currentAclVersion_congr h t
  unfold currentAclVersion at hversion
  unfold changeGroups bumpVersion currentAclVersion
  rw [h.users]
  cases st'.users.get (t, u) with
  | none => exact ⟨rfl, h⟩
  | some user =>
    dsimp only
    rw [hversion]
    refine ⟨rfl, ⟨h.identity, fun key => ?_, fun t' => ?_⟩⟩
    · show KMap.get (KMap.put _ _ _) key = KMap.get (KMap.put _ _ _) key
      rw [KMap.get_put, KMap.get_put, h.users]
    · show KMap.get (KMap.put _ _ _) t' = KMap.get (KMap.put _ _ _) t'
      rw [KMap.get_put, KMap.get_put, h.versions]

theorem usersFiled_ensureUser (h : st.UsersFiled) (uuid t p email displayName : String) :
    (st.ensureUser uuid t p email displayName).2.UsersFiled := by
  unfold ensureUser
  cases st.identityMap.get (t, p) with
  | some existing => exact h
  | none =>
    intro t' u' user huser
    have hget : (st.users.put (t, "gu_" ++ uuid) ⟨"gu_" ++ uuid, email, displayName, ∅⟩).get (t', u') = some user := huser
    rw [KMap.get_put] at hget
    split_ifs at hget with hkey
    · cases hget
      exact (Prod.mk.inj hkey).2.symm
    · exact h t' u' user hget

theorem usersFiled_changeGroups (h : st.UsersFiled) (t u : String) (f : Finset String → Finset String) :
    (st.changeGroups t u f).2.UsersFiled := by
  unfold changeGroups
  cases huser : st.users.get (t, u) with
  | none => exact h
  | some user =>
    intro t' u' user' huser'
    have hget : (st.users.put (t, u) { user with groups := f user.groups }).get (t', u') = some user' := huser'
    rw [KMap.get_put] at hget
    split_ifs at hget with hkey
    · cases hget
      obtain ⟨rfl, rfl⟩ := Prod.mk.inj hkey
      exact h _ _ user huser
    · exact h t' u' user' hget

/-- What a call does, by what it asks for. -/
theorem call_cases (uuid : String) (c : AclDbCall) :
    (∃ user, c = .ensureUser user ∧ ∀ st : InMemoryAclStore, st.call uuid c =
      (.ok (.user (st.ensureUser uuid user.tenantId user.providerUserId user.email user.displayName).1),
        (st.ensureUser uuid user.tenantId user.providerUserId user.email user.displayName).2)) ∨
    (∃ t u change, c.change = some (t, u, change) ∧ ∀ st : InMemoryAclStore, st.call uuid c =
      ((st.changeGroups t u change.apply).1.map .version, (st.changeGroups t u change.apply).2)) ∨
    (c.change = none ∧ (∀ user, c ≠ .ensureUser user) ∧
      ∃ e, ∀ st : InMemoryAclStore, st.call uuid c = (.error e, st)) := by
  cases hchange : c.change with
  | some change =>
    obtain ⟨t, u, change⟩ := change
    exact .inr (.inl ⟨t, u, change, rfl, fun st => memory_call_change st uuid hchange⟩)
  | none =>
    cases c with
    | ensureUser user => exact .inl ⟨user, rfl, fun _ => rfl⟩
    | changeGroups t u change => cases hchange
    | applyRevocation rev =>
      exact .inr (.inr ⟨rfl, fun _ h => (by cases h), _, fun st => memory_call_revocation st uuid hchange⟩)

theorem call_congr (h : st ≈ st') (uuid : String) (c : AclDbCall) :
    (st.call uuid c).1 = (st'.call uuid c).1 ∧ (st.call uuid c).2 ≈ (st'.call uuid c).2 := by
  rcases call_cases uuid c with ⟨user, -, hcall⟩ | ⟨t, u, change, -, hcall⟩ | ⟨-, -, e, hcall⟩
  · obtain ⟨hreply, hnext⟩ := ensureUser_congr h uuid user.tenantId user.providerUserId user.email user.displayName
    rw [hcall, hcall, hreply]
    exact ⟨rfl, hnext⟩
  · obtain ⟨hreply, hnext⟩ := changeGroups_congr h t u change.apply
    rw [hcall, hcall, hreply]
    exact ⟨rfl, hnext⟩
  · rw [hcall, hcall]
    exact ⟨rfl, h⟩

theorem has_congr {K V : Type} [DecidableEq K] {m m' : KMap K V} {k : K} (h : m.get k = m'.get k) :
    m.has k = m'.has k := by
  unfold KMap.has
  rw [h]

theorem callSaves_change {c : AclDbCall} {t u : String} {change : GroupChange} (h : c.change = some (t, u, change)) :
    st.callSaves c = st.users.has (t, u) := by
  cases c with
  | ensureUser user => cases h
  | changeGroups t' u' change' =>
    cases h
    rfl
  | applyRevocation rev =>
    unfold callSaves
    dsimp only
    rw [h]

theorem callSaves_congr (h : st ≈ st') (c : AclDbCall) : st.callSaves c = st'.callSaves c := by
  cases hchange : c.change with
  | some change =>
    obtain ⟨t, u, change⟩ := change
    rw [callSaves_change hchange, callSaves_change hchange]
    exact has_congr (h.users (t, u))
  | none =>
    cases c with
    | ensureUser user => exact congrArg (!·) (has_congr (h.identity user.key))
    | changeGroups t u change => cases hchange
    | applyRevocation rev =>
      unfold callSaves
      dsimp only
      rw [hchange]

/-- A call that saves nothing changes nothing. -/
theorem call_clean (uuid : String) (c : AclDbCall) (h : st.callSaves c = false) : (st.call uuid c).2 = st := by
  rcases call_cases uuid c with ⟨user, rfl, hcall⟩ | ⟨t, u, change, hchange, hcall⟩ | ⟨-, -, e, hcall⟩
  · have hhas : st.identityMap.has user.key = true := by
      unfold callSaves at h
      rwa [Bool.not_eq_false'] at h
    obtain ⟨existing, hexisting⟩ := KMap.has_iff.mp hhas
    have hget : st.identityMap.get (user.tenantId, user.providerUserId) = some existing := hexisting
    rw [hcall]
    unfold ensureUser
    rw [hget]
  · rw [callSaves_change hchange, KMap.has_eq_false_iff] at h
    rw [hcall, changeGroups_unknown st h]
  · rw [hcall]

theorem journal_lawful : journal.Lawful UsersFiled where
  fresh := fun _ _ _ h => (by cases h)
  keeps := by
    intro st request h
    cases request with
    | call uuid c =>
      show UsersFiled (st.call uuid c).2
      rcases call_cases uuid c with ⟨user, -, hcall⟩ | ⟨t, u, change, -, hcall⟩ | ⟨-, -, e, hcall⟩
      · rw [hcall]
        exact usersFiled_ensureUser h _ _ _ _ _
      · rw [hcall]
        exact usersFiled_changeGroups h _ _ _
      · rw [hcall]
        exact h
    | resolveGlobalUserId t p => exact h
    | getUserGroups t u => exact h
    | currentAclVersion t => exact h
  restores := fun st savedAt h => h.congr (Setoid.symm (same_import_export h savedAt))
  round_trip := fun st savedAt h => same_import_export h savedAt
  apply_congr := by
    intro st st' request h
    cases request with
    | call uuid c =>
      obtain ⟨hreply, hnext⟩ := call_congr h uuid c
      exact ⟨congrArg AclResponse.called hreply, hnext⟩
    | resolveGlobalUserId t p => exact ⟨congrArg AclResponse.resolved (h.identity (t, p)), h⟩
    | getUserGroups t u => exact ⟨congrArg AclResponse.groups (getUserGroups_congr h t u), h⟩
    | currentAclVersion t => exact ⟨congrArg AclResponse.version (currentAclVersion_congr h t), h⟩
  saves_congr := by
    intro st st' request h
    cases request with
    | call uuid c => exact callSaves_congr h c
    | resolveGlobalUserId t p => rfl
    | getUserGroups t u => rfl
    | currentAclVersion t => rfl
  clean := by
    intro st request h
    cases request with
    | call uuid c =>
      have hsame : (st.call uuid c).2 = st := call_clean uuid c h
      exact (congrArg (· ≈ st) hsame).mpr (Setoid.refl st)
    | resolveGlobalUserId t p => exact Setoid.refl _
    | getUserGroups t u => exact Setoid.refl _
    | currentAclVersion t => exact Setoid.refl _

end Calls

end InMemoryAclStore

/-! ## Runs -/

/-- **A journal.** Whatever is asked of the embedded store, and whenever the process is started again, every reply is
the one of a store that goes back to the state of the last save that did not fail; and as long as none fails, every
reply is the one that there would have been without a restart. -/
theorem acl_restarts (xs : List (JournalStep String AclRequest)) :
    (runFrom InMemoryAclStore.journal.step InMemoryAclStore.journal.start xs).replies =
        (runFrom InMemoryAclStore.journal.stepVersions InMemoryAclStore.journal.startVersions xs).replies ∧
      (Journal.AllSaved xs →
        (runFrom InMemoryAclStore.journal.step InMemoryAclStore.journal.start xs).replies =
          (runFrom InMemoryAclStore.journal.plain (.new, []) xs).2) :=
  ⟨(InMemoryAclStore.journal_lawful.journal_simulates xs).replies,
    fun hsaved => (InMemoryAclStore.journal_lawful.restarts_unseen hsaved).2⟩

/-- A person comes, the process is started again, and the person comes once more. -/
def redeploy : List (JournalStep String AclRequest) :=
  [.op (.call "1" (.ensureUser (twoEvents true))) (some "t1"), .restart,
    .op (.call "2" (.ensureUser (twoEvents true))) (some "t2")]

theorem redeploy_unseen :
    (runFrom InMemoryAclStore.journal.step InMemoryAclStore.journal.start redeploy).replies =
      (runFrom InMemoryAclStore.journal.plain (.new, []) redeploy).2 :=
  (acl_restarts redeploy).2 (by decide)

end AiManager.Telemetry
