import AiManager.Lib.Prog
import AiManager.Telemetry.AclCache
import AiManager.Telemetry.Identity
import Mathlib.Data.Finset.Filter
import Mathlib.Data.Finset.Image
import Mathlib.Data.Finset.Prod

/-! # The production access store

`CockroachAclStore` by its statements, each of which can fail, and then may or may not have taken effect. An identity
is inserted with `ON CONFLICT DO NOTHING` and read back, so that any number of calls in any order agree on it
(`crdb_identity_unique`), and a version is made by one statement, so that no two changes of a tenant have the same
(`crdb_versions_issued_once`). -/

namespace AiManager.Telemetry

open Lib

/-! ## Tables and statements -/

structure IdentityRow where
  globalUserId : String
  email : String
  displayName : String
  deriving DecidableEq

/-- The tables `user_identity_map`, by tenant and provider user; `user_group_membership`, by tenant, user and group; and
`tenant_acl_version`. With them the invalidations that were sent, and the identifiers that were made. -/
structure AclTables where
  identity : KMap (String × String) IdentityRow
  membership : Finset (String × String × String)
  versions : KMap String Nat
  sent : List AclInvalidation
  issued : List String

namespace AclTables

def globalUserIdOf (db : AclTables) (key : String × String) : Option String :=
  (db.identity.get key).map IdentityRow.globalUserId

def groupsOf (db : AclTables) (tenantId globalUserId : String) : Finset String :=
  (db.membership.filter fun row => row.1 = tenantId ∧ row.2.1 = globalUserId).image fun row => row.2.2

def currentAclVersion (db : AclTables) (tenantId : String) : Nat := (db.versions.get tenantId).getD 0

/-- `ON CONFLICT (tenant_id, provider, provider_user_id) DO NOTHING`. -/
def insertIdentity (db : AclTables) (key : String × String) (row : IdentityRow) : AclTables :=
  if db.identity.has key then db else { db with identity := db.identity.put key row }

/-- Every change of a user's groups is one transaction. -/
def changeGroups (db : AclTables) (tenantId globalUserId : String) : GroupChange → AclTables
  | .setUserGroups groupIds =>
    { db with
      membership := db.membership.filter (fun row => ¬ (row.1 = tenantId ∧ row.2.1 = globalUserId)) ∪
        groupIds.toFinset.image fun g => (tenantId, globalUserId, g) }
  | .addUserToGroup groupId => { db with membership := insert (tenantId, globalUserId, groupId) db.membership }
  | .removeUserFromGroup groupId => { db with membership := db.membership.erase (tenantId, globalUserId, groupId) }

def bumpVersion (db : AclTables) (tenantId : String) : AclTables :=
  { db with versions := db.versions.put tenantId (db.currentAclVersion tenantId + 1) }

def publish (db : AclTables) (inv : AclInvalidation) : AclTables := { db with sent := inv :: db.sent }

end AclTables

inductive AclStatement where
  | selectIdentity (key : String × String)
  | newUuid
  | insertIdentity (key : String × String) (row : IdentityRow)
  | changeGroups (tenantId globalUserId : String) (change : GroupChange)
  | bumpVersion (tenantId : String)
  | publish (inv : AclInvalidation)

/-- What the driver answers; a text where it fails. -/
@[reducible] def AclStatement.Res : AclStatement → Type
  | selectIdentity _ => Except String (Option String)
  | newUuid => String
  | insertIdentity _ _ => Except String Unit
  -- a transaction fails in one of its statements
  | changeGroups _ _ _ => Except (String × String) Unit
  | bumpVersion _ => Except String Nat
  | publish _ => Unit

/-- How a statement goes. One that fails may have taken effect nevertheless. -/
inductive DbChoice where
  | done
  | fresh (uuid : String)
  | failed (stage text : String) (applied : Bool)

def aclDbAnswer : Answer AclStatement AclStatement.Res AclTables DbChoice := fun c op db =>
  match op, c with
  | .selectIdentity key, .done => some (.ok (db.globalUserIdOf key), db)
  | .selectIdentity _, .failed _ text _ => some (.error text, db)
  | .newUuid, .fresh uuid => if uuid ∈ db.issued then none else some (uuid, { db with issued := uuid :: db.issued })
  | .insertIdentity key row, .done => some (.ok (), db.insertIdentity key row)
  | .insertIdentity key row, .failed _ text applied =>
    some (.error text, if applied then db.insertIdentity key row else db)
  | .changeGroups t u change, .done => some (.ok (), db.changeGroups t u change)
  | .changeGroups t u change, .failed stage text applied =>
    some (.error (stage, text), if applied then db.changeGroups t u change else db)
  | .bumpVersion t, .done => some (.ok ((db.bumpVersion t).currentAclVersion t), db.bumpVersion t)
  | .bumpVersion t, .failed _ text applied => some (.error text, if applied then db.bumpVersion t else db)
  | .publish inv, .done => some ((), db.publish inv)
  | _, _ => none

/-! ## Calls -/

abbrev AclDbM (α : Type) := Prog AclStatement AclStatement.Res α

def aclStatement (op : AclStatement) : AclDbM op.Res := Prog.perform op

inductive AclDbCall where
  | ensureUser (c : UserCall)
  | changeGroups (tenantId globalUserId : String) (change : GroupChange)
  | applyRevocation (rev : AclRevocationRecord)

inductive AclReply where
  | user (globalUserId : String)
  | version (v : Nat)

namespace CockroachAclStore

def ensureUser (c : UserCall) : AclDbM (CoreResult String) := do
  match ← aclStatement (.selectIdentity c.key) with
  | .error e => return .error (.storage ("acl resolve: " ++ e))
  | .ok (some gid) => return .ok gid
  | .ok none => do
    let uuid ← aclStatement .newUuid
    match ← aclStatement (.insertIdentity c.key ⟨"gu_" ++ uuid, c.email, c.displayName⟩) with
    | .error e => return .error (.storage ("acl insert user: " ++ e))
    | .ok () =>
      -- read again, in case of a conflict
      match ← aclStatement (.selectIdentity c.key) with
      | .error e => return .error (.storage ("acl reread user: " ++ e))
      | .ok none => return .error (.storage ("acl reread user: no rows returned by a query that expected to return at "
          ++ "least one row"))
      | .ok (some gid) => return .ok gid

/-- What a failure is called. -/
def changeError (change : GroupChange) (stage text : String) : CoreError :=
  match change with
  -- `tx`, `clear groups`, `add group` or `commit`
  | .setUserGroups _ => .storage ("acl " ++ stage ++ ": " ++ text)
  | .addUserToGroup _ => .storage ("acl add: " ++ text)
  | .removeUserFromGroup _ => .storage ("acl remove: " ++ text)

/-- `set_user_groups`, `add_user_to_group` and `remove_user_from_group`. -/
def changeGroups (tenantId globalUserId : String) (change : GroupChange) : AclDbM (CoreResult Nat) := do
  match ← aclStatement (.changeGroups tenantId globalUserId change) with
  | .error (stage, e) => return .error (changeError change stage e)
  | .ok () =>
    match ← aclStatement (.bumpVersion tenantId) with
    | .error e => return .error (.storage ("acl bump: " ++ e))
    | .ok version => do
      aclStatement (.publish ⟨tenantId, globalUserId, version⟩)
      return .ok version

def applyRevocation (rev : AclRevocationRecord) : AclDbM (CoreResult Nat) :=
  if rev.changeType = "removed_from_group" then
    changeGroups rev.tenantId rev.globalUserId (.removeUserFromGroup rev.groupId)
  else if rev.changeType = "added_to_group" then
    changeGroups rev.tenantId rev.globalUserId (.addUserToGroup rev.groupId)
  else return .error (.validation ("unknown ACL change_type: " ++ rev.changeType))

end CockroachAclStore

def AclDbCall.run : AclDbCall → AclDbM (CoreResult AclReply)
  | .ensureUser c => (CockroachAclStore.ensureUser c).bind fun r => .pure (r.map .user)
  | .changeGroups t u change => (CockroachAclStore.changeGroups t u change).bind fun r => .pure (r.map .version)
  | .applyRevocation rev => (CockroachAclStore.applyRevocation rev).bind fun r => .pure (r.map .version)

/-- The tenant and the user whose groups a call changes. -/
def AclDbCall.changes : AclDbCall → Option (String × String)
  | .ensureUser _ => none
  | .changeGroups t u _ => some (t, u)
  | .applyRevocation rev => some (rev.tenantId, rev.globalUserId)

abbrev AclDbPool (ι : Type) := Pool ι AclStatement AclStatement.Res AclTables (CoreResult AclReply)

section Pool
variable {ι : Type}

def AclDbPool.start (calls : ι → AclDbCall) (db : AclTables) : AclDbPool ι := ⟨db, fun i => (calls i).run, []⟩

end Pool

/-- A statement that the driver answered with an error. -/
def AclStatement.Failed : (op : AclStatement) → op.Res → Prop
  | .selectIdentity _, r => ∃ e, r = .error e
  | .insertIdentity _ _, r => ∃ e, r = .error e
  | .changeGroups _ _ _, r => ∃ e, r = .error e
  | .bumpVersion _, r => ∃ e, r = .error e
  | .newUuid, _ | .publish _, _ => False

/-- What the driver has answered to a statement, and what it has left of the tables. -/
inductive DbAnswered (db : AclTables) : (op : AclStatement) → op.Res → AclTables → Prop
  | read (key : String × String) : DbAnswered db (.selectIdentity key) (.ok (db.globalUserIdOf key)) db
  | drawn {uuid : String} : uuid ∉ db.issued → DbAnswered db .newUuid uuid { db with issued := uuid :: db.issued }
  | inserted (key : String × String) (row : IdentityRow) :
    DbAnswered db (.insertIdentity key row) (.ok ()) (db.insertIdentity key row)
  | changed (t u : String) (change : GroupChange) :
    DbAnswered db (.changeGroups t u change) (.ok ()) (db.changeGroups t u change)
  | bumped (t : String) :
    DbAnswered db (.bumpVersion t) (.ok ((db.bumpVersion t).currentAclVersion t)) (db.bumpVersion t)
  | published (inv : AclInvalidation) : DbAnswered db (.publish inv) () (db.publish inv)
  | failed {op : AclStatement} {r : op.Res} : op.Failed r → DbAnswered db op r db
  -- failed, but in effect
  | insertFailed (key : String × String) (row : IdentityRow) (e : String) :
    DbAnswered db (.insertIdentity key row) (.error e) (db.insertIdentity key row)
  | changeFailed (t u : String) (change : GroupChange) (e : String × String) :
    DbAnswered db (.changeGroups t u change) (.error e) (db.changeGroups t u change)
  | bumpFailed (t e : String) : DbAnswered db (.bumpVersion t) (.error e) (db.bumpVersion t)

theorem answered_of_aclDbAnswer {c : DbChoice} {op : AclStatement} {r : op.Res} {db db' : AclTables}
    (h : aclDbAnswer c op db = some (r, db')) : DbAnswered db op r db' := by
  cases op with
  | selectIdentity key =>
    cases c with
    | fresh uuid => cases h
    | done =>
      cases h
      exact .read key
    | failed stage text applied =>
      cases h
      exact .failed ⟨text, rfl⟩
  | newUuid =>
    cases c with
    | done | failed stage text applied => cases h
    | fresh uuid =>
      unfold aclDbAnswer at h
      dsimp only at h
      split_ifs at h with hnew
      cases h
      exact .drawn hnew
  | insertIdentity key row =>
    cases c with
    | fresh uuid => cases h
    | done =>
      cases h
      exact .inserted key row
    | failed stage text applied =>
      cases applied <;> cases h
      · exact .failed ⟨text, rfl⟩
      · exact .insertFailed key row text
  | changeGroups t u change =>
    cases c with
    | fresh uuid => cases h
    | done =>
      cases h
      exact .changed t u change
    | failed stage text applied =>
      cases applied <;> cases h
      · exact .failed ⟨(stage, text), rfl⟩
      · exact .changeFailed t u change (stage, text)
  | bumpVersion t =>
    cases c with
    | fresh uuid => cases h
    | done =>
      cases h
      exact .bumped t
    | failed stage text applied =>
      cases applied <;> cases h
      · exact .failed ⟨text, rfl⟩
      · exact .bumpFailed t text
  | publish inv =>
    cases c with
    | fresh uuid | failed stage text applied => cases h
    | done =>
      cases h
      exact .published inv

/-! ## Tables after a statement -/

namespace AclTables
variable (db : AclTables)

theorem globalUserIdOf_insertIdentity (key key' : String × String) (row : IdentityRow) :
    (db.insertIdentity key row).globalUserIdOf key' =
      if key' = key ∧ db.globalUserIdOf key = none then some row.globalUserId else db.globalUserIdOf key' := by
  unfold insertIdentity globalUserIdOf
  cases hget : db.identity.get key with
  | some old =>
    have hhas : db.identity.has key = true := KMap.has_iff.mpr ⟨old, hget⟩
    simp [hhas]
  | none =>
    have hhas : db.identity.has key = false := KMap.has_eq_false_iff.mpr hget
    simp only [hhas, Bool.false_eq_true, if_false, KMap.get_put]
    by_cases hkey : key' = key <;> simp [hkey]

/-- What is stored stays. -/
theorem globalUserIdOf_insertIdentity_of_some {key key' : String × String} {row : IdentityRow} {gid : String}
    (h : db.globalUserIdOf key' = some gid) : (db.insertIdentity key row).globalUserIdOf key' = some gid := by
  rw [globalUserIdOf_insertIdentity, if_neg, h]
  rintro ⟨rfl, hnone⟩
  rw [h] at hnone
  cases hnone

@[simp] theorem issued_insertIdentity (key : String × String) (row : IdentityRow) :
    (db.insertIdentity key row).issued = db.issued := by
  unfold insertIdentity
  split <;> rfl

@[simp] theorem membership_insertIdentity (key : String × String) (row : IdentityRow) :
    (db.insertIdentity key row).membership = db.membership := by
  unfold insertIdentity
  split <;> rfl

@[simp] theorem currentAclVersion_insertIdentity (key : String × String) (row : IdentityRow) (t : String) :
    (db.insertIdentity key row).currentAclVersion t = db.currentAclVersion t := by
  unfold insertIdentity currentAclVersion
  split <;> rfl

@[simp] theorem sent_insertIdentity (key : String × String) (row : IdentityRow) :
    (db.insertIdentity key row).sent = db.sent := by
  unfold insertIdentity
  split <;> rfl

section Change
variable (t u : String) (change : GroupChange)

@[simp] theorem identity_changeGroups : (db.changeGroups t u change).identity = db.identity := by
  cases change <;> rfl

@[simp] theorem issued_changeGroups : (db.changeGroups t u change).issued = db.issued := by
  cases change <;> rfl

@[simp] theorem versions_changeGroups : (db.changeGroups t u change).versions = db.versions := by
  cases change <;> rfl

theorem currentAclVersion_changeGroups (t' : String) :
    (db.changeGroups t u change).currentAclVersion t' = db.currentAclVersion t' := by
  unfold currentAclVersion
  rw [versions_changeGroups]

@[simp] theorem sent_changeGroups : (db.changeGroups t u change).sent = db.sent := by
  cases change <;> rfl

end Change

theorem currentAclVersion_bumpVersion (t t' : String) :
    (db.bumpVersion t).currentAclVersion t' =
      if t' = t then db.currentAclVersion t + 1 else db.currentAclVersion t' := by
  unfold bumpVersion
  show (KMap.get (KMap.put _ _ _) _).getD 0 = _
  rw [KMap.get_put]
  split_ifs <;> rfl

theorem le_currentAclVersion_bumpVersion (t t' : String) :
    db.currentAclVersion t' ≤ (db.bumpVersion t).currentAclVersion t' := by
  rw [currentAclVersion_bumpVersion]
  split_ifs with h
  · rw [h]
    exact Nat.le_succ _
  · exact Nat.le_refl _

end AclTables

/-! ## Identities -/

/-- How far a call of `ensure_user` has got. -/
inductive IdentityPhase where
  | looking
  | drawn (uuid : String)
  | inserted (key : String × String)
  | found (key : String × String) (globalUserId : String)
  /-- nothing was found where something was inserted -/
  | lost
  | failed

def identityPhase : Monitor AclStatement AclStatement.Res IdentityPhase where
  next q op r :=
    match op with
    | .selectIdentity key =>
      match r with
      | .error _ => .failed
      | .ok (some gid) => .found key gid
      | .ok none =>
        match q with
        | .inserted inserted => if inserted = key then .lost else .looking
        | _ => .looking
    | .newUuid => .drawn r
    | .insertIdentity key _ =>
      match r with
      | .error _ => .failed
      | .ok () => .inserted key
    | _ => q
  allows q op := ∀ key row, op = .insertIdentity key row → ∃ uuid, q = .drawn uuid ∧ row.globalUserId = "gu_" ++ uuid
  replies _ _ := True

/-- What is known of a call that has returned. -/
def Identifies (c : AclDbCall) (r : CoreResult AclReply) (q : IdentityPhase) : Prop :=
  ∀ u, c = .ensureUser u →
    (∃ gid, r = .ok (.user gid) ∧ q = .found u.key gid) ∨ (∃ e, r = .error e ∧ (q = .lost ∨ q = .failed))

theorem ensureUser_phases (u : UserCall) :
    (AclDbCall.ensureUser u).run.Meets identityPhase (Identifies (.ensureUser u)) .looking := by
  have hfailed : ∀ e, Identifies (.ensureUser u) (.error e) .failed := by
    rintro e _ ⟨⟩
    exact .inr ⟨e, rfl, .inr rfl⟩
  have hfound : ∀ gid, Identifies (.ensureUser u) (.ok (.user gid)) (.found u.key gid) := by
    rintro gid _ ⟨⟩
    exact .inl ⟨gid, rfl, rfl⟩
  unfold AclDbCall.run CockroachAclStore.ensureUser
  refine ⟨nofun, fun found _ => ?_⟩
  rcases found with e | _ | gid
  · exact hfailed _
  · refine ⟨nofun, fun uuid _ => ⟨?_, fun done _ => ?_⟩⟩
    · rintro key row ⟨⟩
      exact ⟨uuid, rfl, rfl⟩
    rcases done with e | ⟨⟩
    · exact hfailed _
    · refine ⟨nofun, fun again _ => ?_⟩
      rcases again with e | _ | gid
      · exact hfailed _
      · rintro _ ⟨⟩
        exact .inr ⟨_, rfl, .inl (if_pos rfl)⟩
      · exact hfound gid
  · exact hfound gid

theorem changeGroups_callsOnly (t u : String) (change : GroupChange) :
    (CockroachAclStore.changeGroups t u change).CallsOnly fun op => ∀ key row, op ≠ .insertIdentity key row := by
  unfold CockroachAclStore.changeGroups
  refine ⟨nofun, fun changed => ?_⟩
  rcases changed with ⟨stage, e⟩ | ⟨⟩
  · trivial
  · refine ⟨nofun, fun bumped => ?_⟩
    rcases bumped with e | version
    · trivial
    · exact ⟨nofun, fun _ => trivial⟩

theorem run_phases (c : AclDbCall) : c.run.Meets identityPhase (Identifies c) .looking := by
  have hother : ∀ {t u change}, (∀ user, c ≠ .ensureUser user) →
      ((CockroachAclStore.changeGroups t u change).bind fun r => Prog.pure (r.map AclReply.version)).Meets identityPhase
        (Identifies c) .looking := by
    intro t u change hne
    have hcalls : ((CockroachAclStore.changeGroups t u change).bind fun r =>
        (Prog.pure (r.map AclReply.version) : AclDbM _)).CallsOnly fun op => ∀ key row, op ≠ .insertIdentity key row :=
      (changeGroups_callsOnly t u change).bind fun _ => trivial
    refine (hcalls.meets_of_allows (fun q op hop key row heq => absurd heq (hop key row)) _).mono ?_
    rintro r q - user rfl
    exact absurd rfl (hne user)
  cases c with
  | ensureUser u => exact ensureUser_phases u
  | changeGroups t u change => exact hother (fun _ h => by cases h)
  | applyRevocation rev =>
    unfold AclDbCall.run CockroachAclStore.applyRevocation
    dsimp only
    split_ifs
    · exact hother (fun _ h => by cases h)
    · exact hother (fun _ h => by cases h)
    · rintro user ⟨⟩

namespace AclTables

/-- Every identity has an identifier that was made for it alone. -/
structure Identified (db : AclTables) : Prop where
  issued : ∀ key gid, db.globalUserIdOf key = some gid → ∃ uuid ∈ db.issued, gid = "gu_" ++ uuid
  injective : ∀ key key' gid, db.globalUserIdOf key = some gid → db.globalUserIdOf key' = some gid → key = key'

/-- An identifier that was made and is nobody's. -/
def Unused (db : AclTables) (uuid : String) : Prop :=
  uuid ∈ db.issued ∧ ∀ key, db.globalUserIdOf key ≠ some ("gu_" ++ uuid)

variable {db : AclTables}

theorem Identified.insertIdentity (h : db.Identified) {uuid : String} (hunused : db.Unused uuid)
    {key : String × String} {row : IdentityRow} (hrow : row.globalUserId = "gu_" ++ uuid) :
    (db.insertIdentity key row).Identified := by
  have hread : ∀ {key' gid}, (db.insertIdentity key row).globalUserIdOf key' = some gid →
      (key' = key ∧ gid = "gu_" ++ uuid) ∨ db.globalUserIdOf key' = some gid := by
    intro key' gid hget
    rw [globalUserIdOf_insertIdentity] at hget
    split_ifs at hget with hnew
    · exact .inl ⟨hnew.1, by rw [← Option.some.inj hget, hrow]⟩
    · exact .inr hget
  refine ⟨fun key' gid hget => ?_, fun key₁ key₂ gid h₁ h₂ => ?_⟩
  · rw [issued_insertIdentity]
    rcases hread hget with ⟨-, rfl⟩ | hold
    · exact ⟨uuid, hunused.1, rfl⟩
    · exact h.issued key' gid hold
  · rcases hread h₁ with ⟨rfl, rfl⟩ | hold₁
    · rcases hread h₂ with ⟨rfl, -⟩ | hold₂
      · rfl
      · exact absurd hold₂ (hunused.2 key₂)
    · rcases hread h₂ with ⟨rfl, rfl⟩ | hold₂
      · exact absurd hold₁ (hunused.2 key₁)
      · exact h.injective key₁ key₂ gid hold₁ hold₂

theorem Unused.insertIdentity {uuid other : String} (h : db.Unused other) (hne : other ≠ uuid) {key : String × String}
    {row : IdentityRow} (hrow : row.globalUserId = "gu_" ++ uuid) : (db.insertIdentity key row).Unused other := by
  refine ⟨by rw [issued_insertIdentity]; exact h.1, fun key' hget => ?_⟩
  rw [globalUserIdOf_insertIdentity] at hget
  split_ifs at hget
  · have heq : "gu_" ++ uuid = "gu_" ++ other := hrow ▸ Option.some.inj hget
    exact hne ((String.append_right_inj _).mp heq).symm
  · exact h.2 key' hget

end AclTables

namespace AclTables

/-- What a phase says of the tables. -/
def Bears (db : AclTables) : IdentityPhase → Prop
  | .drawn uuid => db.Unused uuid
  | .inserted key => ∃ gid, db.globalUserIdOf key = some gid
  | .found key gid => db.globalUserIdOf key = some gid
  | .lost => False
  | .looking | .failed => True

variable {db db' : AclTables} {q : IdentityPhase}

theorem Bears.congr (h : db.Bears q) (hidentity : db'.identity = db.identity) (hissued : db.issued ⊆ db'.issued) :
    db'.Bears q := by
  have hread : db'.globalUserIdOf = db.globalUserIdOf := by
    unfold globalUserIdOf
    rw [hidentity]
  cases q with
  | drawn uuid => exact ⟨hissued h.1, by rw [hread]; exact h.2⟩
  | inserted key | found key gid =>
    unfold Bears at h ⊢
    rw [hread]
    exact h
  | looking | failed | lost => exact h

theorem Identified.congr (h : db.Identified) (hidentity : db'.identity = db.identity)
    (hissued : db.issued ⊆ db'.issued) : db'.Identified := by
  have hread : db'.globalUserIdOf = db.globalUserIdOf := by
    unfold globalUserIdOf
    rw [hidentity]
  constructor
  · intro key gid hget
    obtain ⟨uuid, hmem, heq⟩ := h.issued key gid (hread ▸ hget)
    exact ⟨uuid, hissued hmem, heq⟩
  · rw [hread]
    exact h.injective

theorem Bears.insertIdentity (h : db.Bears q) {uuid : String} (hne : q ≠ .drawn uuid) {key : String × String}
    {row : IdentityRow} (hrow : row.globalUserId = "gu_" ++ uuid) : (db.insertIdentity key row).Bears q := by
  cases q with
  | drawn other => exact Unused.insertIdentity h (fun heq => hne (heq ▸ rfl)) hrow
  | inserted key' =>
    obtain ⟨gid, hgid⟩ := h
    exact ⟨gid, globalUserIdOf_insertIdentity_of_some _ hgid⟩
  | found key' gid => exact globalUserIdOf_insertIdentity_of_some _ h
  | looking | failed | lost => exact h

/-- After an insertion somebody has the identity, this call or one before it. -/
theorem bears_inserted (db : AclTables) (key : String × String) (row : IdentityRow) :
    (db.insertIdentity key row).Bears (.inserted key) := by
  unfold Bears
  simp only [globalUserIdOf_insertIdentity]
  cases hget : db.globalUserIdOf key with
  | some gid => exact ⟨gid, by simp⟩
  | none => exact ⟨row.globalUserId, by simp⟩

end AclTables

section Run
variable {ι : Type} [DecidableEq ι] {calls : ι → AclDbCall} {db₀ : AclTables}

def identityPhaseOf (pool : AclDbPool ι) (i : ι) : IdentityPhase := watch identityPhase.next .looking i pool.trace

structure IdentityRun (db₀ : AclTables) (pool : AclDbPool ι) : Prop where
  bears : ∀ i, pool.shared.Bears (identityPhaseOf pool i)
  apart : ∀ i j uuid, identityPhaseOf pool i = .drawn uuid → identityPhaseOf pool j = .drawn uuid → i = j
  failed : ∀ i, identityPhaseOf pool i = .failed → ∃ e ∈ pool.trace, e.who = i ∧ e.op.Failed e.res
  identified : pool.shared.Identified
  kept : ∀ key gid, db₀.globalUserIdOf key = some gid → pool.shared.globalUserIdOf key = some gid

/-- A step after which its caller is in phase `q`. -/
theorem IdentityRun.after {pool : AclDbPool ι} (hI : IdentityRun db₀ pool) {i : ι} {op : AclStatement}
    {k : op.Res → AclDbM (CoreResult AclReply)} {r : op.Res} {db : AclTables} {q : IdentityPhase}
    (hq : identityPhase.next (identityPhaseOf pool i) op r = q) (hself : db.Bears q)
    (hothers : ∀ j, j ≠ i → db.Bears (identityPhaseOf pool j))
    (hdrawn : ∀ j uuid, j ≠ i → q = .drawn uuid → identityPhaseOf pool j ≠ .drawn uuid)
    (hfailed : q = .failed → op.Failed r ∨ identityPhaseOf pool i = .failed) (hidentified : db.Identified)
    (hkept : ∀ key gid, pool.shared.globalUserIdOf key = some gid → db.globalUserIdOf key = some gid) :
    IdentityRun db₀ (pool.after i op r k db) := by
  have hwho : identityPhaseOf (pool.after i op r k db) i = q := by
    rw [← hq]
    exact watch_cons_self _ _ _ _ _ _
  have hother : ∀ j, j ≠ i → identityPhaseOf (pool.after i op r k db) j = identityPhaseOf pool j :=
    fun j hj => watch_cons_ne _ _ (Ne.symm hj) _ _ _
  have hold : ∀ j, identityPhaseOf pool j = .failed →
      ∃ e ∈ (pool.after i op r k db).trace, e.who = j ∧ e.op.Failed e.res := by
    intro j hj
    obtain ⟨e, hmem, he⟩ := hI.failed j hj
    exact ⟨e, List.mem_cons_of_mem _ hmem, he⟩
  refine ⟨fun j => ?_, fun j j' uuid hj hj' => ?_, fun j hj => ?_, hidentified,
    fun key gid h => hkept _ _ (hI.kept key gid h)⟩
  · by_cases hji : j = i
    · rw [hji, hwho]
      exact hself
    · rw [hother j hji]
      exact hothers j hji
  · by_cases hji : j = i
    · by_cases hji' : j' = i
      · rw [hji, hji']
      · rw [hji, hwho] at hj
        rw [hother j' hji'] at hj'
        exact absurd hj' (hdrawn j' uuid hji' hj)
    · rw [hother j hji] at hj
      by_cases hji' : j' = i
      · rw [hji', hwho] at hj'
        exact absurd hj (hdrawn j uuid hji hj')
      · rw [hother j' hji'] at hj'
        exact hI.apart j j' uuid hj hj'
  · by_cases hji : j = i
    · subst hji
      rw [hwho] at hj
      rcases hfailed hj with hnow | hbefore
      · exact ⟨⟨j, op, r⟩, List.mem_cons_self, rfl, hnow⟩
      · exact hold j hbefore
    · rw [hother j hji] at hj
      exact hold j hj

section Step
variable {pool : AclDbPool ι} {i : ι} {op : AclStatement} {k : op.Res → AclDbM (CoreResult AclReply)} {r : op.Res}
  {db : AclTables}

/-- A step that leaves the tables as they are, with no identifier drawn. -/
theorem IdentityRun.after_same (hI : IdentityRun db₀ pool) {q : IdentityPhase}
    (hq : identityPhase.next (identityPhaseOf pool i) op r = q) (hbears : pool.shared.Bears q)
    (hdrawn : ∀ uuid, q ≠ .drawn uuid) (hfailed : q = .failed → op.Failed r) :
    IdentityRun db₀ (pool.after i op r k pool.shared) :=
  hI.after hq hbears (fun j _ => hI.bears j) (fun _ uuid _ h => absurd h (hdrawn uuid)) (fun h => .inl (hfailed h))
    hI.identified fun _ _ h => h

/-- A statement about other tables. -/
theorem IdentityRun.after_elsewhere (hI : IdentityRun db₀ pool)
    (hq : identityPhase.next (identityPhaseOf pool i) op r = identityPhaseOf pool i)
    (hidentity : db.identity = pool.shared.identity) (hissued : db.issued = pool.shared.issued) :
    IdentityRun db₀ (pool.after i op r k db) := by
  have hsub : pool.shared.issued ⊆ db.issued := hissued ▸ List.Subset.refl _
  refine hI.after hq ((hI.bears i).congr hidentity hsub) (fun j _ => (hI.bears j).congr hidentity hsub)
    (fun j uuid hj h h' => hj (hI.apart j i uuid h' h)) .inr (hI.identified.congr hidentity hsub) fun key gid h => ?_
  unfold AclTables.globalUserIdOf
  rw [hidentity]
  exact h

/-- An identifier that nobody has. -/
theorem IdentityRun.after_draw {uuid : String} (hI : IdentityRun db₀ pool) (hnew : uuid ∉ pool.shared.issued)
    {k : String → AclDbM (CoreResult AclReply)} :
    IdentityRun db₀ (pool.after i .newUuid uuid k { pool.shared with issued := uuid :: pool.shared.issued }) := by
  have hsub : pool.shared.issued ⊆ uuid :: pool.shared.issued := List.subset_cons_self _ _
  refine hI.after (q := .drawn uuid) rfl ⟨List.mem_cons_self, fun key hget => ?_⟩
    (fun j _ => (hI.bears j).congr rfl hsub) ?_ nofun (hI.identified.congr rfl hsub) fun _ _ h => h
  · obtain ⟨used, hused, heq⟩ := hI.identified.issued key _ hget
    rw [(String.append_right_inj _).mp heq] at hnew
    exact hnew hused
  · intro j other _ hdrawn hphase
    have hown := hI.bears j
    rw [hphase] at hown
    exact hnew (IdentityPhase.drawn.inj hdrawn ▸ hown.1)

/-- An insertion under the identifier that its caller has drawn. -/
theorem IdentityRun.after_insert {key : String × String} {row : IdentityRow} (hI : IdentityRun db₀ pool)
    (hallows : identityPhase.allows (identityPhaseOf pool i) (.insertIdentity key row)) {r : Except String Unit}
    {k : Except String Unit → AclDbM (CoreResult AclReply)} {q : IdentityPhase}
    (hq : identityPhase.next (identityPhaseOf pool i) (.insertIdentity key row) r = q)
    (hbears : (pool.shared.insertIdentity key row).Bears q) (hdrawn : ∀ uuid, q ≠ .drawn uuid)
    (hfailed : q = .failed → (AclStatement.insertIdentity key row).Failed r) :
    IdentityRun db₀ (pool.after i (.insertIdentity key row) r k (pool.shared.insertIdentity key row)) := by
  obtain ⟨uuid, hphase, hrow⟩ := hallows key row rfl
  have hunused : pool.shared.Unused uuid := by
    have hown := hI.bears i
    rw [hphase] at hown
    exact hown
  refine hI.after hq hbears (fun j hj => (hI.bears j).insertIdentity ?_ hrow)
    (fun _ uuid _ h => absurd h (hdrawn uuid)) (fun h => .inl (hfailed h)) (hI.identified.insertIdentity hunused hrow)
    fun _ _ h => AclTables.globalUserIdOf_insertIdentity_of_some _ h
  intro hother
  exact hj (hI.apart j i uuid hother hphase)

/-- Who has inserted finds something. -/
theorem IdentityRun.after_read (hI : IdentityRun db₀ pool) (key : String × String)
    {k : Except String (Option String) → AclDbM (CoreResult AclReply)} :
    IdentityRun db₀ (pool.after i (.selectIdentity key) (.ok (pool.shared.globalUserIdOf key)) k pool.shared) := by
  cases hget : pool.shared.globalUserIdOf key with
  | some gid => exact hI.after_same (q := .found key gid) rfl hget nofun nofun
  | none =>
    refine hI.after_same (q := .looking) ?_ trivial nofun nofun
    unfold identityPhase
    dsimp only
    split
    · next inserted hphase =>
      rw [if_neg]
      rintro rfl
      have hown := hI.bears i
      rw [hphase] at hown
      obtain ⟨gid, hgid⟩ := hown
      rw [hget] at hgid
      cases hgid
    · rfl

theorem IdentityRun.after_failed (hI : IdentityRun db₀ pool) (hfailed : op.Failed r) :
    IdentityRun db₀ (pool.after i op r k pool.shared) := by
  cases op with
  | selectIdentity key | insertIdentity key row =>
    obtain ⟨e, rfl⟩ := hfailed
    exact hI.after_same (q := .failed) rfl trivial nofun fun _ => ⟨e, rfl⟩
  | changeGroups t u change | bumpVersion t => exact hI.after_elsewhere rfl rfl rfl
  | newUuid | publish inv => exact hfailed.elim

/-- **One step.** -/
theorem identityRun_after {c : DbChoice} (hI : IdentityRun db₀ pool)
    (hs : aclDbAnswer c op pool.shared = some (r, db)) (hallows : identityPhase.allows (identityPhaseOf pool i) op) :
    IdentityRun db₀ (pool.after i op r k db) := by
  cases answered_of_aclDbAnswer hs with
  | read key => exact hI.after_read key
  | drawn hnew => exact hI.after_draw hnew
  | inserted key row =>
    exact hI.after_insert hallows rfl (AclTables.bears_inserted _ key row) nofun nofun
  | insertFailed key row e => exact hI.after_insert hallows rfl trivial nofun fun _ => ⟨e, rfl⟩
  | changed t u change | changeFailed t u change e =>
    exact hI.after_elsewhere rfl (AclTables.identity_changeGroups ..) (AclTables.issued_changeGroups ..)
  | bumped t | bumpFailed t e | published inv => exact hI.after_elsewhere rfl rfl rfl
  | failed hfailed => exact hI.after_failed hfailed

end Step

/-- Calls of `ensure_user` on the production store. -/
structure StoredIdentity (calls : ι → AclDbCall) (db₀ : AclTables) (pool : AclDbPool ι) : Prop where
  resolves : ∀ i u r, calls i = .ensureUser u → pool.threads i = .pure (.ok r) →
    ∃ gid, r = .user gid ∧ pool.shared.globalUserIdOf u.key = some gid
  agree : ∀ i j u v gid gid', calls i = .ensureUser u → calls j = .ensureUser v →
    pool.threads i = .pure (.ok (.user gid)) → pool.threads j = .pure (.ok (.user gid')) → (gid = gid' ↔ u.key = v.key)
  /-- a call fails with a statement of its own -/
  fails : ∀ i u e, calls i = .ensureUser u → pool.threads i = .pure (.error e) →
    ∃ event ∈ pool.trace, event.who = i ∧ event.op.Failed event.res
  kept : ∀ key gid, db₀.globalUserIdOf key = some gid → pool.shared.globalUserIdOf key = some gid

theorem storedIdentity_of_run {pool : AclDbPool ι}
    (htracks : pool.Tracks identityPhase (fun i => Identifies (calls i)) fun _ => .looking)
    (hI : IdentityRun db₀ pool) : StoredIdentity calls db₀ pool := by
  have hresolves : ∀ i u r, calls i = .ensureUser u → pool.threads i = .pure (.ok r) →
      ∃ gid, r = .user gid ∧ pool.shared.globalUserIdOf u.key = some gid := by
    intro i u r hcall hreturned
    rcases htracks.post_of_returned hreturned u hcall with ⟨gid, hr, hphase⟩ | ⟨e, hr, -⟩
    · have hbears : pool.shared.Bears (identityPhaseOf pool i) := hI.bears i
      unfold identityPhaseOf at hbears
      rw [hphase] at hbears
      exact ⟨gid, Except.ok.inj hr, hbears⟩
    · cases hr
  refine ⟨hresolves, fun i j u v gid gid' hi hj hri hrj => ?_, fun i u e hcall hreturned => ?_, hI.kept⟩
  · obtain ⟨_, heq, hstored⟩ := hresolves i u _ hi hri
    cases heq
    obtain ⟨_, heq', hstored'⟩ := hresolves j v _ hj hrj
    cases heq'
    constructor
    · rintro rfl
      exact hI.identified.injective _ _ gid hstored hstored'
    · intro hkey
      rw [hkey, hstored'] at hstored
      exact (Option.some.inj hstored).symm
  · rcases htracks.post_of_returned hreturned u hcall with ⟨gid, hr, -⟩ | ⟨e', -, hphase⟩
    · cases hr
    · have hbears : pool.shared.Bears (identityPhaseOf pool i) := hI.bears i
      rcases hphase with hlost | hfailed
      · unfold identityPhaseOf at hbears
        rw [hlost] at hbears
        exact hbears.elim
      · exact hI.failed i hfailed

/-- **Identity in production.** However the statements of any number of calls are interleaved, and whichever of them
fail, calls of `ensure_user` return the identity that is stored from then on, the same for the same provider user and
different for different ones; one that fails has had a failed statement; and no stored identity ever changes. -/
theorem crdb_identity_unique (calls : ι → AclDbCall) (db : AclTables) (sched : List (ι × DbChoice))
    (hdb : db.Identified) :
    Throughout (Pool.step aclDbAnswer) (StoredIdentity calls db) (AclDbPool.start calls db) sched := by
  have hstart : (AclDbPool.start calls db).Tracks identityPhase (fun i => Identifies (calls i)) fun _ => .looking :=
    fun i => run_phases (calls i)
  have hinv : IdentityRun db (AclDbPool.start calls db) :=
    ⟨fun _ => trivial, fun _ _ _ h => (by cases h), fun _ h => (by cases h), hdb, fun _ _ h => h⟩
  refine Throughout.mono (P := fun pool => pool.Tracks identityPhase (fun i => Identifies (calls i))
    (fun _ => .looking) ∧ IdentityRun db pool) (fun pool h => storedIdentity_of_run h.1 h.2) ?_
  refine throughout_of_eachStep (C := fun _ _ => True) (fun pool x _ hI => ?_) (.of_forall (fun _ _ => trivial) _ _)
    ⟨hstart, hinv⟩
  exact Pool.step_keeps (C := fun _ _ => True) (P := fun _ => True) (fun _ _ _ _ _ _ _ _ => trivial)
    (fun _ _ _ _ _ _ _ _ hI _ _ _ hs _ hallows _ => identityRun_after hI hs hallows) hI.1 hI.2 trivial trivial

end Run

/-! ### Two first events of one provider user -/

def noTables : AclTables := ⟨∅, ∅, ∅, [], []⟩

theorem noTables_identified : noTables.Identified :=
  ⟨fun _ _ h => (by cases h), fun _ _ _ h => (by cases h)⟩

/-- Both look before one inserts. -/
def bothLook : List (Bool × DbChoice) :=
  [(true, .done), (false, .done), (true, .fresh "a"), (false, .fresh "b"), (true, .done), (false, .done),
    (true, .done), (false, .done)]

theorem bothLook_agree : Throughout (Pool.step aclDbAnswer)
    (StoredIdentity (fun i => .ensureUser (twoEvents i)) noTables)
    (AclDbPool.start (fun i => .ensureUser (twoEvents i)) noTables) bothLook :=
  crdb_identity_unique _ noTables bothLook noTables_identified

/-! ## Versions -/

/-- How far a change of groups has got. -/
inductive VersionPhase where
  | changing
  | bumped (tenantId : String) (version : Nat)
  | published (inv : AclInvalidation)

def versionPhase : Monitor AclStatement AclStatement.Res VersionPhase where
  next q op r :=
    match op with
    | .bumpVersion t =>
      match r with
      | .ok version => .bumped t version
      | .error _ => q
    | .publish inv => .published inv
    | _ => q
  allows q op := ∀ inv, op = .publish inv → q = .bumped inv.tenantId inv.aclVersion
  replies _ _ := True

/-- A call that returns a version has published it. -/
def Numbers (c : AclDbCall) (r : CoreResult AclReply) (q : VersionPhase) : Prop :=
  ∀ t u v, c.changes = some (t, u) → r = .ok (.version v) → q = .published ⟨t, u, v⟩

theorem changeGroups_versions (t u : String) (change : GroupChange) :
    (CockroachAclStore.changeGroups t u change).Meets versionPhase
      (fun r q => ∀ v, r = .ok v → q = .published ⟨t, u, v⟩) .changing := by
  unfold CockroachAclStore.changeGroups
  refine ⟨nofun, fun changed _ => ?_⟩
  rcases changed with ⟨stage, e⟩ | ⟨⟩
  · exact nofun
  · refine ⟨nofun, fun bumped _ => ?_⟩
    rcases bumped with e | version
    · exact nofun
    · refine ⟨?_, fun _ _ => ?_⟩
      · rintro inv ⟨⟩
        rfl
      · rintro v ⟨⟩
        rfl

theorem run_versions (c : AclDbCall) : c.run.Meets versionPhase (Numbers c) .changing := by
  have hchange : ∀ {t u change}, (∀ t' u', c.changes = some (t', u') → t' = t ∧ u' = u) →
      ((CockroachAclStore.changeGroups t u change).bind fun r => Prog.pure (r.map AclReply.version)).Meets versionPhase
        (Numbers c) .changing := by
    intro t u change hwho
    rw [Prog.meets_bind]
    refine (changeGroups_versions t u change).mono fun r q hq => ?_
    intro t' u' v hchanges hr
    obtain ⟨rfl, rfl⟩ := hwho t' u' hchanges
    cases r with
    | error e => cases hr
    | ok version =>
      cases hr
      exact hq v rfl
  cases c with
  | ensureUser user =>
    have hcalls : (AclDbCall.ensureUser user).run.CallsOnly fun op => ∀ inv, op ≠ .publish inv := by
      unfold AclDbCall.run CockroachAclStore.ensureUser
      refine ⟨nofun, fun found => ?_⟩
      rcases found with e | _ | gid
      · trivial
      · refine ⟨nofun, fun uuid => ⟨nofun, fun done => ?_⟩⟩
        rcases done with e | ⟨⟩
        · trivial
        · refine ⟨nofun, fun again => ?_⟩
          rcases again with e | _ | gid <;> trivial
      · trivial
    refine (hcalls.meets_of_allows (fun q op hop inv heq => absurd heq (hop inv)) _).mono ?_
    rintro r q - t u v ⟨⟩
  | changeGroups t u change =>
    refine hchange fun t' u' h => ?_
    obtain ⟨rfl, rfl⟩ := Prod.mk.inj (Option.some.inj h)
    exact ⟨rfl, rfl⟩
  | applyRevocation rev =>
    have hwho : ∀ t' u', (AclDbCall.applyRevocation rev).changes = some (t', u') →
        t' = rev.tenantId ∧ u' = rev.globalUserId := by
      intro t' u' h
      obtain ⟨rfl, rfl⟩ := Prod.mk.inj (Option.some.inj h)
      exact ⟨rfl, rfl⟩
    unfold AclDbCall.run CockroachAclStore.applyRevocation
    dsimp only
    split_ifs
    · exact hchange hwho
    · exact hchange hwho
    · rintro t u v - ⟨⟩

section Versions
variable {ι : Type} [DecidableEq ι] {calls : ι → AclDbCall} {db₀ : AclTables}

/-- The version that a call has made. -/
def VersionPhase.made : VersionPhase → Option (String × Nat)
  | .changing => none
  | .bumped t version => some (t, version)
  | .published inv => some (inv.tenantId, inv.aclVersion)

def versionPhaseOf (pool : AclDbPool ι) (i : ι) : VersionPhase := watch versionPhase.next .changing i pool.trace

structure VersionRun (db₀ : AclTables) (pool : AclDbPool ι) : Prop where
  made : ∀ i t version, (versionPhaseOf pool i).made = some (t, version) →
    db₀.currentAclVersion t < version ∧ version ≤ pool.shared.currentAclVersion t
  apart : ∀ i j made, (versionPhaseOf pool i).made = some made → (versionPhaseOf pool j).made = some made → i = j
  sent : ∀ i inv, versionPhaseOf pool i = .published inv → inv ∈ pool.shared.sent
  grows : ∀ t, db₀.currentAclVersion t ≤ pool.shared.currentAclVersion t

/-- A step that makes no version. -/
theorem VersionRun.after {pool : AclDbPool ι} (hI : VersionRun db₀ pool) {i : ι} {op : AclStatement}
    {k : op.Res → AclDbM (CoreResult AclReply)} {r : op.Res} {db : AclTables}
    (hmade : (versionPhase.next (versionPhaseOf pool i) op r).made = (versionPhaseOf pool i).made)
    (hself : ∀ inv, versionPhase.next (versionPhaseOf pool i) op r = .published inv → inv ∈ db.sent)
    (hversion : ∀ t, pool.shared.currentAclVersion t ≤ db.currentAclVersion t)
    (hsent : ∀ inv ∈ pool.shared.sent, inv ∈ db.sent) : VersionRun db₀ (pool.after i op r k db) := by
  have hwho : versionPhaseOf (pool.after i op r k db) i = versionPhase.next (versionPhaseOf pool i) op r :=
    watch_cons_self _ _ _ _ _ _
  have hother : ∀ j, j ≠ i → versionPhaseOf (pool.after i op r k db) j = versionPhaseOf pool j :=
    fun j hj => watch_cons_ne _ _ (Ne.symm hj) _ _ _
  have hall : ∀ j, (versionPhaseOf (pool.after i op r k db) j).made = (versionPhaseOf pool j).made := by
    intro j
    by_cases hj : j = i
    · rw [hj, hwho, hmade]
    · rw [hother j hj]
  refine ⟨fun j t version hj => ?_, fun j j' made hj hj' => ?_, fun j inv hj => ?_, fun t => ?_⟩
  · rw [hall] at hj
    exact ⟨(hI.made j t version hj).1, (hI.made j t version hj).2.trans (hversion t)⟩
  · rw [hall] at hj hj'
    exact hI.apart j j' made hj hj'
  · by_cases hji : j = i
    · rw [hji, hwho] at hj
      exact hself inv hj
    · rw [hother j hji] at hj
      exact hsent inv (hI.sent j inv hj)
  · exact (hI.grows t).trans (hversion t)

/-- A version that is made is the next one. -/
theorem VersionRun.after_bump {pool : AclDbPool ι} (hI : VersionRun db₀ pool) (i : ι) (t : String)
    {k : Except String Nat → AclDbM (CoreResult AclReply)} :
    VersionRun db₀ (pool.after i (.bumpVersion t) (.ok ((pool.shared.bumpVersion t).currentAclVersion t)) k
      (pool.shared.bumpVersion t)) := by
  have hnext : (pool.shared.bumpVersion t).currentAclVersion t = pool.shared.currentAclVersion t + 1 := by
    rw [AclTables.currentAclVersion_bumpVersion, if_pos rfl]
  have hgrows := AclTables.le_currentAclVersion_bumpVersion pool.shared t
  rw [hnext]
  set pool' := pool.after i (.bumpVersion t) (.ok (pool.shared.currentAclVersion t + 1)) k (pool.shared.bumpVersion t)
  have hwho : versionPhaseOf pool' i = .bumped t (pool.shared.currentAclVersion t + 1) := watch_cons_self _ _ _ _ _ _
  have hother : ∀ j, j ≠ i → versionPhaseOf pool' j = versionPhaseOf pool j :=
    fun j hj => watch_cons_ne _ _ (Ne.symm hj) _ _ _
  -- nobody has made it before
  have hnew : ∀ j, j ≠ i → (versionPhaseOf pool' j).made ≠ some (t, pool.shared.currentAclVersion t + 1) := by
    intro j hj hmade
    rw [hother j hj] at hmade
    have hle := (hI.made j _ _ hmade).2
    omega
  refine ⟨fun j t' version hj => ?_, fun j j' made hj hj' => ?_, fun j inv hj => ?_, fun t' => ?_⟩
  · by_cases hji : j = i
    · rw [hji, hwho] at hj
      obtain ⟨rfl, rfl⟩ := Prod.mk.inj (Option.some.inj hj)
      exact ⟨Nat.lt_succ_of_le (hI.grows _), hnext.ge⟩
    · rw [hother j hji] at hj
      exact ⟨(hI.made j t' version hj).1, (hI.made j t' version hj).2.trans (hgrows t')⟩
  · by_cases hji : j = i
    · by_cases hji' : j' = i
      · rw [hji, hji']
      · rw [hji, hwho] at hj
        rw [← Option.some.inj hj] at hj'
        exact absurd hj' (hnew j' hji')
    · by_cases hji' : j' = i
      · rw [hji', hwho] at hj'
        rw [← Option.some.inj hj'] at hj
        exact absurd hj (hnew j hji)
      · rw [hother j hji] at hj
        rw [hother j' hji'] at hj'
        exact hI.apart j j' made hj hj'
  · by_cases hji : j = i
    · rw [hji, hwho] at hj
      cases hj
    · rw [hother j hji] at hj
      exact hI.sent j inv hj
  · exact (hI.grows t').trans (hgrows t')

section Step
variable {pool : AclDbPool ι} {i : ι} {op : AclStatement} {k : op.Res → AclDbM (CoreResult AclReply)} {r : op.Res}
  {db : AclTables}

/-- A statement about other tables. -/
theorem VersionRun.after_elsewhere (hI : VersionRun db₀ pool)
    (hphase : versionPhase.next (versionPhaseOf pool i) op r = versionPhaseOf pool i)
    (hversion : ∀ t, db.currentAclVersion t = pool.shared.currentAclVersion t) (hsent : db.sent = pool.shared.sent) :
    VersionRun db₀ (pool.after i op r k db) := by
  refine hI.after (by rw [hphase]) (fun inv h => ?_) (fun t => (hversion t).ge) fun inv h => hsent ▸ h
  rw [hphase] at h
  exact hsent ▸ hI.sent i inv h

theorem VersionRun.after_failed (hI : VersionRun db₀ pool) (hfailed : op.Failed r) :
    VersionRun db₀ (pool.after i op r k pool.shared) := by
  cases op with
  | selectIdentity key | insertIdentity key row | changeGroups t u change =>
    exact hI.after_elsewhere rfl (fun _ => rfl) rfl
  | bumpVersion t =>
    obtain ⟨e, rfl⟩ := hfailed
    exact hI.after_elsewhere rfl (fun _ => rfl) rfl
  | newUuid | publish inv => exact hfailed.elim

/-- **One step.** -/
theorem versionRun_after {c : DbChoice} (hI : VersionRun db₀ pool)
    (hs : aclDbAnswer c op pool.shared = some (r, db)) (hallows : versionPhase.allows (versionPhaseOf pool i) op) :
    VersionRun db₀ (pool.after i op r k db) := by
  cases answered_of_aclDbAnswer hs with
  | read key | drawn hnew => exact hI.after_elsewhere rfl (fun _ => rfl) rfl
  | inserted key row | insertFailed key row e =>
    exact hI.after_elsewhere rfl (AclTables.currentAclVersion_insertIdentity _ key row)
      (AclTables.sent_insertIdentity ..)
  | changed t u change | changeFailed t u change e =>
    exact hI.after_elsewhere rfl (AclTables.currentAclVersion_changeGroups _ t u change)
      (AclTables.sent_changeGroups ..)
  | bumped t => exact hI.after_bump i t
  | bumpFailed t e =>
    -- a version that nobody returns
    exact hI.after rfl (fun inv h => hI.sent i inv h) (AclTables.le_currentAclVersion_bumpVersion _ t) fun _ h => h
  | published inv =>
    have hphase := hallows inv rfl
    refine hI.after (by rw [hphase]; rfl) (fun inv' h => ?_) (fun _ => Nat.le_refl _)
      fun _ h => List.mem_cons_of_mem _ h
    cases h
    exact List.mem_cons_self
  | failed hfailed => exact hI.after_failed hfailed

end Step

/-- The versions that changes of groups return. -/
structure VersionsApart (calls : ι → AclDbCall) (db₀ : AclTables) (pool : AclDbPool ι) : Prop where
  counted : ∀ i t u v, (calls i).changes = some (t, u) → pool.threads i = .pure (.ok (.version v)) →
    db₀.currentAclVersion t < v ∧ v ≤ pool.shared.currentAclVersion t
  apart : ∀ i j t u u' v v', (calls i).changes = some (t, u) → (calls j).changes = some (t, u') →
    pool.threads i = .pure (.ok (.version v)) → pool.threads j = .pure (.ok (.version v')) → i ≠ j → v ≠ v'
  sent : ∀ i t u v, (calls i).changes = some (t, u) → pool.threads i = .pure (.ok (.version v)) →
    ⟨t, u, v⟩ ∈ pool.shared.sent

theorem versionsApart_of_run {pool : AclDbPool ι}
    (htracks : pool.Tracks versionPhase (fun i => Numbers (calls i)) fun _ => .changing) (hI : VersionRun db₀ pool) :
    VersionsApart calls db₀ pool := by
  have hpublished : ∀ i t u v, (calls i).changes = some (t, u) → pool.threads i = .pure (.ok (.version v)) →
      versionPhaseOf pool i = .published ⟨t, u, v⟩ :=
    fun i t u v hchanges hreturned => htracks.post_of_returned hreturned t u v hchanges rfl
  have hmade : ∀ i t u v, (calls i).changes = some (t, u) → pool.threads i = .pure (.ok (.version v)) →
      (versionPhaseOf pool i).made = some (t, v) := by
    intro i t u v hchanges hreturned
    rw [hpublished i t u v hchanges hreturned]
    rfl
  refine ⟨fun i t u v hchanges hreturned => hI.made i t v (hmade i t u v hchanges hreturned), ?_,
    fun i t u v hchanges hreturned => hI.sent i _ (hpublished i t u v hchanges hreturned)⟩
  rintro i j t u u' v _ hi hj hri hrj hne rfl
  exact hne (hI.apart i j (t, v) (hmade i t u v hi hri) (hmade j t u' v hj hrj))

/-- **Versions.** However the statements of any number of calls are interleaved, and whichever of them fail, two
changes of groups in one tenant never return the same version; each is above the version that the tenant had at the
start and not above the one that it has now; and its invalidation has been sent. -/
theorem crdb_versions_issued_once (calls : ι → AclDbCall) (db : AclTables) (sched : List (ι × DbChoice)) :
    Throughout (Pool.step aclDbAnswer) (VersionsApart calls db) (AclDbPool.start calls db) sched := by
  have hstart : (AclDbPool.start calls db).Tracks versionPhase (fun i => Numbers (calls i)) fun _ => .changing :=
    fun i => run_versions (calls i)
  have hinv : VersionRun db (AclDbPool.start calls db) :=
    ⟨fun _ _ _ h => (by cases h), fun _ _ _ h => (by cases h), fun _ _ h => (by cases h), fun _ => Nat.le_refl _⟩
  refine Throughout.mono (P := fun pool => pool.Tracks versionPhase (fun i => Numbers (calls i))
    (fun _ => .changing) ∧ VersionRun db pool) (fun pool h => versionsApart_of_run h.1 h.2) ?_
  refine throughout_of_eachStep (C := fun _ _ => True) (fun pool x _ hI => ?_) (.of_forall (fun _ _ => trivial) _ _)
    ⟨hstart, hinv⟩
  exact Pool.step_keeps (C := fun _ _ => True) (P := fun _ => True) (fun _ _ _ _ _ _ _ _ => trivial)
    (fun _ _ _ _ _ _ _ _ hI _ _ _ hs _ hallows _ => versionRun_after hI hs hallows) hI.1 hI.2 trivial trivial

end Versions

end AiManager.Telemetry
