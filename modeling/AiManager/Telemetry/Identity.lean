import AiManager.Lib.Prog
import AiManager.Telemetry.Acl

/-! # One identity per person

`ensure_user` looks a person up, makes an identifier and inserts it, in single steps of the shared maps. Two first
events of one person can both find nothing, and then each makes an identity. If no call inserts a person whom
another has inserted since it looked, all calls for a person agree, and no user is without an identity
(`identity_unique`). -/

namespace AiManager.Telemetry

open Lib

/-! ## Calls -/

/-- A call of `ensure_user`. -/
structure UserCall where
  tenantId : String
  providerUserId : String
  email : String
  displayName : String

def UserCall.key (c : UserCall) : String × String := (c.tenantId, c.providerUserId)

inductive AclOp where
  | getIdentity (key : String × String)
  | newUuid
  | insertIdentity (key : String × String) (globalUserId : String)
  | insertUser (key : String × String) (user : UserRecord)

@[reducible] def AclOp.Res : AclOp → Type
  | getIdentity _ => Option String
  | newUuid => String
  | insertIdentity _ _ | insertUser _ _ => Unit

/-- The access store and the identifiers that were made. -/
structure AclShared where
  acl : InMemoryAclStore
  issued : List String

/-- One operation of a map; the choice is the next identifier, which is new. -/
def aclAnswer : Answer AclOp AclOp.Res AclShared String := fun uuid op s =>
  match op with
  | .getIdentity key => some (s.acl.identityMap.get key, s)
  | .newUuid => if uuid ∈ s.issued then none else some (uuid, { s with issued := uuid :: s.issued })
  | .insertIdentity key globalUserId =>
    some ((), { s with acl := { s.acl with identityMap := s.acl.identityMap.put key globalUserId } })
  | .insertUser key user => some ((), { s with acl := { s.acl with users := s.acl.users.put key user } })

abbrev AclM (α : Type) := Prog AclOp AclOp.Res α

def callAcl (op : AclOp) : AclM op.Res := Prog.perform op

def UserCall.ensureUser (c : UserCall) : AclM String := do
  match ← callAcl (.getIdentity c.key) with
  | some existing => return existing
  | none => do
    let uuid ← callAcl .newUuid
    let globalUserId := "gu_" ++ uuid
    callAcl (.insertIdentity c.key globalUserId)
    callAcl (.insertUser (c.tenantId, globalUserId) ⟨globalUserId, c.email, c.displayName, ∅⟩)
    return globalUserId

/-- Alone, a call does what the store does at once. -/
theorem ensureUser_exec (c : UserCall) (s : AclShared) {uuid : String} (hnew : uuid ∉ s.issued) :
    ∃ issued, c.ensureUser.exec aclAnswer (fun _ => uuid) s =
      some ((s.acl.ensureUser uuid c.tenantId c.providerUserId c.email c.displayName).1,
        ⟨(s.acl.ensureUser uuid c.tenantId c.providerUserId c.email c.displayName).2, issued⟩) := by
  have hkey : c.key = (c.tenantId, c.providerUserId) := rfl
  unfold InMemoryAclStore.ensureUser UserCall.ensureUser
  cases hget : s.acl.identityMap.get (c.tenantId, c.providerUserId) with
  | some existing =>
    refine ⟨s.issued, ?_⟩
    simp [callAcl, Prog.perform, Prog.exec, aclAnswer, hkey, hget]
  | none =>
    refine ⟨uuid :: s.issued, ?_⟩
    simp [callAcl, Prog.perform, Prog.exec, aclAnswer, hkey, hget, hnew]

/-! ## Any number of calls -/

abbrev AclPool (ι : Type) := Pool ι AclOp AclOp.Res AclShared String

section Calls
variable {ι : Type}

def AclPool.start (calls : ι → UserCall) (s : AclShared) : AclPool ι := ⟨s, fun i => (calls i).ensureUser, []⟩

/-- Every user has an identity. -/
def Recorded (acl : InMemoryAclStore) : Prop :=
  ∀ t u user, acl.users.get (t, u) = some user → ∃ p, acl.identityMap.get (t, p) = some u

/-- Who asked for one person got one identity, which is the stored one. -/
structure OneIdentity (calls : ι → UserCall) (pool : AclPool ι) : Prop where
  agree : ∀ i j a b, (calls i).key = (calls j).key → pool.threads i = .pure a → pool.threads j = .pure b → a = b
  resolves : ∀ i a, pool.threads i = .pure a →
    pool.shared.acl.resolveGlobalUserId (calls i).tenantId (calls i).providerUserId = some a
  recorded : Recorded pool.shared.acl

/-- An identity is inserted only where there is still none. -/
def InsertsNew (pool : AclPool ι) (x : ι × String) : Prop :=
  match pool.threads x.1 with
  | .call (.insertIdentity key _) _ => pool.shared.acl.identityMap.get key = none
  | _ => True

instance (pool : AclPool ι) (x : ι × String) : Decidable (InsertsNew pool x) := by
  unfold InsertsNew
  split <;> infer_instance

end Calls

/-! ## What a call knows -/

/-- The identity that a call has found or inserted. -/
def identityMonitor : Monitor AclOp AclOp.Res (Option ((String × String) × String)) where
  next q op r :=
    match op with
    | .getIdentity key => r.map fun id => (key, id)
    | .insertIdentity key globalUserId => some (key, globalUserId)
    | _ => q
  allows q op := ∀ key user, op = .insertUser key user → ∃ p, q = some ((key.1, p), key.2)
  replies _ _ := True

theorem ensureUser_meets (c : UserCall) :
    c.ensureUser.Meets identityMonitor (fun a q => q = some (c.key, a)) none := by
  unfold UserCall.ensureUser
  refine ⟨nofun, fun found _ => ?_⟩
  cases found with
  | some existing => exact rfl
  | none =>
    refine ⟨nofun, fun uuid _ => ⟨nofun, fun _ _ => ⟨?_, fun _ _ => rfl⟩⟩⟩
    rintro key user ⟨⟩
    exact ⟨c.providerUserId, rfl⟩

section Run
variable {ι : Type} [DecidableEq ι] {calls : ι → UserCall}

/-- What a call has found or inserted is stored, and every user has an identity. -/
structure IdentityInv (pool : AclPool ι) : Prop where
  held : ∀ i key id, watch identityMonitor.next none i pool.trace = some (key, id) →
    pool.shared.acl.identityMap.get key = some id
  recorded : Recorded pool.shared.acl

/-- **One step** keeps it, if it inserts no second identity. -/
theorem identityInv_after {pool : AclPool ι} {i : ι} {uuid : String} {op : AclOp}
    {k : op.Res → AclM String} {r : op.Res} {s : AclShared} (hI : IdentityInv pool)
    (hC : InsertsNew pool (i, uuid)) (hk : pool.threads i = .call op k)
    (hs : aclAnswer uuid op pool.shared = some (r, s))
    (hallows : identityMonitor.allows (watch identityMonitor.next none i pool.trace) op) :
    IdentityInv (pool.after i op r k s) := by
  have hother : ∀ {j key id}, j ≠ i → watch identityMonitor.next none j (pool.after i op r k s).trace = some (key, id) →
      pool.shared.acl.identityMap.get key = some id := by
    intro j key id hj hq
    rw [Pool.after_trace, watch_cons_ne _ _ (Ne.symm hj)] at hq
    exact hI.held j key id hq
  cases op with
  | getIdentity key =>
    cases hs
    refine ⟨fun j key' id hq => ?_, hI.recorded⟩
    by_cases hj : j = i
    · -- what is found is stored
      subst hj
      rw [Pool.after_trace, watch_cons_self] at hq
      obtain ⟨found, hfound, heq⟩ := Option.map_eq_some_iff.mp hq
      cases heq
      exact hfound
    · exact hother hj hq
  | newUuid =>
    have hacl : s.acl = pool.shared.acl := by
      unfold aclAnswer at hs
      dsimp only at hs
      split_ifs at hs
      cases hs
      rfl
    refine ⟨fun j key id hq => ?_, ?_⟩
    · rw [Pool.after_shared, hacl]
      by_cases hj : j = i
      · subst hj
        rw [Pool.after_trace, watch_cons_self] at hq
        exact hI.held j key id hq
      · exact hother hj hq
    · rw [Pool.after_shared, hacl]
      exact hI.recorded
  | insertIdentity key globalUserId =>
    cases hs
    have hnone : pool.shared.acl.identityMap.get key = none := by
      unfold InsertsNew at hC
      rwa [hk] at hC
    have hkept : ∀ {key' id}, pool.shared.acl.identityMap.get key' = some id →
        (pool.shared.acl.identityMap.put key globalUserId).get key' = some id := by
      intro key' id hget
      rw [KMap.get_put, if_neg, hget]
      rintro rfl
      rw [hnone] at hget
      cases hget
    refine ⟨fun j key' id hq => ?_, fun t u user huser => ?_⟩
    · by_cases hj : j = i
      · subst hj
        rw [Pool.after_trace, watch_cons_self] at hq
        cases hq
        exact KMap.get_put_self _ _ _
      · exact hkept (hother hj hq)
    · obtain ⟨p, hp⟩ := hI.recorded t u user huser
      exact ⟨p, hkept hp⟩
  | insertUser key user =>
    cases hs
    obtain ⟨p, hp⟩ := hallows key user rfl
    refine ⟨fun j key' id hq => ?_, fun t u user' huser => ?_⟩
    · by_cases hj : j = i
      · subst hj
        rw [Pool.after_trace, watch_cons_self] at hq
        exact hI.held j key' id hq
      · exact hother hj hq
    · rw [Pool.after_shared] at huser
      dsimp only at huser
      rw [KMap.get_put] at huser
      split_ifs at huser with hkey
      · obtain rfl := hkey
        exact ⟨p, hI.held i _ _ hp⟩
      · exact hI.recorded t u user' huser

theorem oneIdentity_of_inv {pool : AclPool ι}
    (htracks : pool.Tracks identityMonitor (fun i a q => q = some ((calls i).key, a)) fun _ => none)
    (hI : IdentityInv pool) : OneIdentity calls pool := by
  have hstored : ∀ i a, pool.threads i = .pure a → pool.shared.acl.identityMap.get (calls i).key = some a :=
    fun i a ha => hI.held i _ _ (htracks.post_of_returned ha)
  refine ⟨fun i j a b hsame ha hb => ?_, hstored, hI.recorded⟩
  have hi := hstored i a ha
  rw [hsame, hstored j b hb] at hi
  exact (Option.some.inj hi).symm

/-- **Identity.** In every run in which no call inserts an identity for a person who has one, all calls for a person
return the one that is stored from then on, and every user record has an identity that points to it. -/
theorem identity_unique (calls : ι → UserCall) (s : AclShared) (sched : List (ι × String))
    (hs : Recorded s.acl) (hrun : EachStep (Pool.step aclAnswer) InsertsNew (AclPool.start calls s) sched) :
    Throughout (Pool.step aclAnswer) (OneIdentity calls) (AclPool.start calls s) sched := by
  have hstart : (AclPool.start calls s).Tracks identityMonitor (fun i a q => q = some ((calls i).key, a))
      fun _ => none := fun i => ensureUser_meets (calls i)
  have hinv : IdentityInv (AclPool.start calls s) := ⟨fun _ _ _ h => (by cases h), hs⟩
  refine Throughout.mono (P := fun pool => pool.Tracks identityMonitor (fun i a q => q = some ((calls i).key, a))
    (fun _ => none) ∧ IdentityInv pool) (fun pool h => oneIdentity_of_inv h.1 h.2) ?_
  refine throughout_of_eachStep (fun pool x hC hI => ?_) hrun ⟨hstart, hinv⟩
  exact Pool.step_keeps (C := InsertsNew) (P := fun _ => True) (fun _ _ _ _ _ _ _ _ => trivial)
    (fun _ _ _ _ _ _ _ _ hI _ hC hk hs _ hallows _ => identityInv_after hI hC hk hs hallows) hI.1 hI.2 trivial hC

end Run

/-! ### Two first events of one person -/

def twoEvents (_ : Bool) : UserCall := ⟨"ten_github", "42", "", "alice"⟩

def noUsers : AclShared := ⟨.new, []⟩

theorem noUsers_recorded : Recorded noUsers.acl := by
  intro t u user h
  cases h

/-- One event after the other. -/
def inTurn : List (Bool × String) :=
  [(true, "a"), (true, "a"), (true, "a"), (true, "a"), (false, "b")]

theorem inTurn_unique : Throughout (Pool.step aclAnswer) (OneIdentity twoEvents)
    (AclPool.start twoEvents noUsers) inTurn :=
  identity_unique twoEvents noUsers inTurn noUsers_recorded (by decide +kernel)

/-- Both look before one inserts. -/
def atOnce : List (Bool × String) :=
  [(true, "a"), (false, "b"), (true, "a"), (true, "a"), (true, "a"), (false, "b"), (false, "b"), (false, "b")]

/-- The person has two identities then. -/
theorem atOnce_splits : ¬ ∀ (calls : Bool → UserCall) (s : AclShared) (sched : List (Bool × String)),
    Recorded s.acl → Throughout (Pool.step aclAnswer) (OneIdentity calls) (AclPool.start calls s) sched := by
  intro h
  have hlast := (h twoEvents noUsers atOnce noUsers_recorded).last
  have hsame := hlast.agree true false "gu_a" "gu_b" rfl rfl rfl
  exact absurd hsame (by decide)

end AiManager.Telemetry
