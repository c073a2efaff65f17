import AiManager.Lib.Broadcast
import AiManager.Lib.Run
import AiManager.Telemetry.Acl

/-! # The cache of group memberships

A lookup that finds nothing in the cache reads the access store and inserts what it read, in single steps. A change of
a user's groups is broadcast, and a listener removes the user from the cache. The cache stays coherent exactly as
long as no lookup inserts what was changed before an invalidation that the listener has meanwhile processed, and the
listener is never told that it lagged (`cache_coherent_iff`). -/

namespace AiManager.Telemetry

open Lib

/-! ## Steps -/

structure AclInvalidation where
  tenantId : String
  globalUserId : String
  aclVersion : ℕ

def AclInvalidation.key (inv : AclInvalidation) : String × String := (inv.tenantId, inv.globalUserId)

inductive GroupChange where
  | setUserGroups (groupIds : List String)
  | addUserToGroup (groupId : String)
  | removeUserFromGroup (groupId : String)

def GroupChange.apply : GroupChange → Finset String → Finset String
  | setUserGroups groupIds, _ => groupIds.toFinset
  | addUserToGroup groupId, groups => insert groupId groups
  | removeUserFromGroup groupId, groups => groups.erase groupId

/-- Where a caller is, in a lookup of the cache or in a change of the store. The number tells since when the lookup
goes on, as the number of changes of the user that were invalidated before. -/
inductive CallPhase where
  | idle
  | missed (key : String × String) (since : ℕ)
  | fetched (key : String × String) (since : ℕ) (groups : Finset String)
  | changed (inv : AclInvalidation)

/-- The task that listens; its loop ends with the first error. -/
inductive Listener (ρ : Type) where
  | spawned
  | running (rx : ρ)
  | ended (e : RecvError)

structure GroupsAnswer where
  key : String × String
  since : ℕ
  groups : Finset String

/-- A broadcast carries, beside the message, how many changes of the user there had been; nobody reads it. -/
structure CacheSystem (ch : BroadcastChannel (AclInvalidation × ℕ)) (ι : Type) where
  acl : InMemoryAclStore
  tx : ch.Sender
  cache : KMap (String × String) (Finset String)
  listener : Listener ch.Receiver
  calls : ι → CallPhase
  /-- all groups that a user has had, in their order -/
  history : String × String → List (Finset String)
  /-- the place in the history as of the last invalidation that was processed -/
  processed : String × String → ℕ
  answers : List GroupsAnswer

inductive CacheAct (ι : Type) where
  /-- a lookup begins, with a look into the cache -/
  | lookup (i : ι) (key : String × String)
  | fetch (i : ι)
  | insert (i : ι)
  /-- a change of the store begins, with the groups and the version -/
  | change (i : ι) (tenantId globalUserId : String) (c : GroupChange)
  | publish (i : ι)
  | subscribe
  /-- the listener receives and removes -/
  | listen

namespace CacheSystem
variable {ch : BroadcastChannel (AclInvalidation × ℕ)} {ι : Type} [DecidableEq ι]

def new (ch : BroadcastChannel (AclInvalidation × ℕ)) (acl : InMemoryAclStore) : CacheSystem ch ι where
  acl
  tx := ch.channel
  cache := ∅
  listener := .spawned
  calls _ := .idle
  history key := [acl.getUserGroups key.1 key.2]
  processed _ := 0
  answers := []

def setCall (s : CacheSystem ch ι) (i : ι) (phase : CallPhase) : CacheSystem ch ι :=
  { s with calls := Function.update s.calls i phase }

def answer (s : CacheSystem ch ι) (i : ι) (key : String × String) (since : ℕ) (groups : Finset String) :
    CacheSystem ch ι :=
  { s with calls := Function.update s.calls i .idle, answers := ⟨key, since, groups⟩ :: s.answers }

/-- What the listener does with what it receives. -/
def heard (s : CacheSystem ch ι) : Except RecvError (AclInvalidation × ℕ) × ch.Receiver → CacheSystem ch ι
  | (.ok (inv, place), rx) =>
    { s with
      cache := s.cache.del inv.key
      listener := .running rx
      processed := Function.update s.processed inv.key (max (s.processed inv.key) place) }
  | (.error e, _) => { s with listener := .ended e }

/-- A step that is not due changes nothing. -/
def step (s : CacheSystem ch ι) : CacheAct ι → CacheSystem ch ι
  | .lookup i key =>
    match s.calls i with
    | .idle =>
      match s.cache.get key with
      | some groups => s.answer i key (s.processed key) groups
      | none => s.setCall i (.missed key (s.processed key))
    | _ => s
  | .fetch i =>
    match s.calls i with
    | .missed key since => s.setCall i (.fetched key since (s.acl.getUserGroups key.1 key.2))
    | _ => s
  | .insert i =>
    match s.calls i with
    | .fetched key since groups => { s with cache := s.cache.put key groups }.answer i key since groups
    | _ => s
  | .change i tenantId globalUserId c =>
    match s.calls i with
    | .idle =>
      match s.acl.changeGroups tenantId globalUserId c.apply with
      | (.error _, _) => s
      | (.ok version, acl) =>
        let key := (tenantId, globalUserId)
        { s with
          acl
          history := Function.update s.history key (s.history key ++ [acl.getUserGroups tenantId globalUserId]) }.setCall
            i (.changed ⟨tenantId, globalUserId, version⟩)
    | _ => s
  | .publish i =>
    match s.calls i with
    | .changed inv => { s with tx := ch.send s.tx (inv, (s.history inv.key).length - 1) }.setCall i .idle
    | _ => s
  | .subscribe =>
    match s.listener with
    | .spawned => { s with listener := .running (ch.subscribe s.tx) }
    | _ => s
  | .listen =>
    match s.listener with
    | .running rx =>
      match ch.recv s.tx rx with
      | some x => s.heard x
      | none => s
    | _ => s

end CacheSystem

/-! ## Coherence -/

section Coherence
variable {ch : BroadcastChannel (AclInvalidation × ℕ)} {ι : Type} [DecidableEq ι] {s : CacheSystem ch ι}

/-- The user had these groups as of the last processed invalidation, or later. -/
def UpToDate (s : CacheSystem ch ι) (key : String × String) (groups : Finset String) : Prop :=
  groups ∈ (s.history key).drop (s.processed key)

/-- A lookup that begins now is answered with groups as of the last invalidation that was processed, or later; so was
every one before, by what had been processed when it began; and the listener has not ended because it lagged. -/
structure Coherent (s : CacheSystem ch ι) : Prop where
  cache : ∀ key groups, s.cache.get key = some groups → UpToDate s key groups
  answers : ∀ a ∈ s.answers, a.groups ∈ (s.history a.key).drop a.since
  listener : ∀ n, s.listener ≠ .ended (.lagged n)

/-- What holds in every state. -/
structure Consistent (sent : ch.Sender → List (AclInvalidation × ℕ)) (s : CacheSystem ch ι) : Prop where
  history : ∀ key, (s.history key).getLast? = some (s.acl.getUserGroups key.1 key.2)
  sent : ∀ x ∈ sent s.tx, x.2 < (s.history x.1.key).length
  processed : ∀ key, s.processed key < (s.history key).length
  missed : ∀ i key since, s.calls i = .missed key since → since < (s.history key).length
  fetched : ∀ i key since groups, s.calls i = .fetched key since groups → groups ∈ (s.history key).drop since

section Consistent
variable {sent : ch.Sender → List (AclInvalidation × ℕ)}

omit [DecidableEq ι] in
/-- The current groups are in the history from any place that it has. -/
theorem Consistent.current (h : Consistent sent s) {key : String × String} {n : ℕ} (hn : n < (s.history key).length) :
    s.acl.getUserGroups key.1 key.2 ∈ (s.history key).drop n := by
  have hlast := h.history key
  have hne : (s.history key).drop n ≠ [] := by
    rw [Ne, List.drop_eq_nil_iff]
    omega
  have hdrop := List.getLast?_drop (l := s.history key) (i := n)
  rw [if_neg (by omega), hlast] at hdrop
  exact List.mem_of_getLast? hdrop

/-- A step of one caller, who is left in phase `p`. -/
theorem Consistent.called (h : Consistent sent s) {s' : CacheSystem ch ι} {i : ι} {p : CallPhase}
    (hacl : s'.acl = s.acl) (htx : s'.tx = s.tx) (hhistory : s'.history = s.history)
    (hprocessed : s'.processed = s.processed) (hcalls : s'.calls = Function.update s.calls i p)
    (hmissed : ∀ key since, p = .missed key since → since < (s.history key).length)
    (hfetched : ∀ key since groups, p = .fetched key since groups → groups ∈ (s.history key).drop since) :
    Consistent sent s' := by
  refine ⟨?_, ?_, ?_, fun j key since hj => ?_, fun j key since groups hj => ?_⟩
  · rw [hacl, hhistory]
    exact h.history
  · rw [htx, hhistory]
    exact h.sent
  · rw [hprocessed, hhistory]
    exact h.processed
  · rw [hcalls] at hj
    rw [hhistory]
    by_cases hji : j = i
    · rw [hji, Function.update_self] at hj
      exact hmissed key since hj
    · rw [Function.update_of_ne hji] at hj
      exact h.missed j key since hj
  · rw [hcalls] at hj
    rw [hhistory]
    by_cases hji : j = i
    · rw [hji, Function.update_self] at hj
      exact hfetched key since groups hj
    · rw [Function.update_of_ne hji] at hj
      exact h.fetched j key since groups hj

theorem Consistent.lookup (h : Consistent sent s) (i : ι) (key : String × String) : Consistent sent (s.step (.lookup i key)) := by
  unfold CacheSystem.step
  dsimp only
  split
  · split
    · exact h.called rfl rfl rfl rfl rfl (fun _ _ hp => by cases hp) (fun _ _ _ hp => by cases hp)
    · refine h.called rfl rfl rfl rfl rfl ?_ (fun _ _ _ hp => by cases hp)
      rintro key since ⟨⟩
      exact h.processed key
  · exact h

theorem Consistent.fetch (h : Consistent sent s) (i : ι) : Consistent sent (s.step (.fetch i)) := by
  unfold CacheSystem.step
  dsimp only
  split
  · next key since hcall =>
    refine h.called rfl rfl rfl rfl rfl (fun _ _ hp => by cases hp) ?_
    rintro key since groups ⟨⟩
    exact h.current (h.missed i key since hcall)
  · exact h

theorem Consistent.insert (h : Consistent sent s) (i : ι) : Consistent sent (s.step (.insert i)) := by
  unfold CacheSystem.step
  dsimp only
  split
  · exact h.called rfl rfl rfl rfl rfl (fun _ _ hp => by cases hp) (fun _ _ _ hp => by cases hp)
  · exact h

theorem Consistent.publish (hsent : ch.Delivers sent) (h : Consistent sent s) (i : ι) :
    Consistent sent (s.step (.publish i)) := by
  unfold CacheSystem.step
  dsimp only
  split
  · next inv hcall =>
    have hpublished : Consistent sent { s with tx := ch.send s.tx (inv, (s.history inv.key).length - 1) } := by
      refine ⟨h.history, ?_, h.processed, h.missed, h.fetched⟩
      intro x hx
      rw [hsent.send, List.mem_append, List.mem_singleton] at hx
      rcases hx with hx | rfl
      · exact h.sent x hx
      · have := h.processed inv.key
        show (s.history inv.key).length - 1 < (s.history inv.key).length
        omega
    exact hpublished.called rfl rfl rfl rfl rfl (fun _ _ hp => by cases hp) (fun _ _ _ hp => by cases hp)
  · exact h

theorem Consistent.subscribe (h : Consistent sent s) : Consistent sent (s.step .subscribe) := by
  unfold CacheSystem.step
  dsimp only
  split
  · exact ⟨h.history, h.sent, h.processed, h.missed, h.fetched⟩
  · exact h

theorem Consistent.listen (hsent : ch.Delivers sent) (h : Consistent sent s) : Consistent sent (s.step .listen) := by
  unfold CacheSystem.step
  dsimp only
  split
  · split
    · next rx hlistener x hrecv =>
      obtain ⟨r, rx'⟩ := x
      rcases r with e | ⟨inv, place⟩
      · exact ⟨h.history, h.sent, h.processed, h.missed, h.fetched⟩
      · refine ⟨h.history, h.sent, fun key => ?_, h.missed, h.fetched⟩
        show Function.update s.processed inv.key (max (s.processed inv.key) place) key < _
        by_cases hkey : key = inv.key
        · rw [hkey, Function.update_self]
          exact max_lt (h.processed inv.key) (h.sent _ (hsent.recv hrecv))
        · rw [Function.update_of_ne hkey]
          exact h.processed key
    · exact h
  · exact h

omit [DecidableEq ι] in
/-- A change adds the new groups to the history of the user. -/
theorem Consistent.changed (h : Consistent sent s) {acl : InMemoryAclStore} {tenantId globalUserId : String}
    (hother : ∀ t u, (t, u) ≠ (tenantId, globalUserId) → acl.getUserGroups t u = s.acl.getUserGroups t u) :
    Consistent sent { s with
      acl
      history := Function.update s.history (tenantId, globalUserId)
        (s.history (tenantId, globalUserId) ++ [acl.getUserGroups tenantId globalUserId]) } := by
  have hgrown : ∀ key, s.history key <+: Function.update s.history (tenantId, globalUserId)
      (s.history (tenantId, globalUserId) ++ [acl.getUserGroups tenantId globalUserId]) key := by
    intro key
    by_cases hkey : key = (tenantId, globalUserId)
    · rw [hkey, Function.update_self]
      exact List.prefix_append _ _
    · rw [Function.update_of_ne hkey]
  refine ⟨fun key => ?_, fun x hx => ?_, fun key => ?_, fun j key since hj => ?_, fun j key since groups hj => ?_⟩
  · dsimp only
    by_cases hkey : key = (tenantId, globalUserId)
    · rw [hkey, Function.update_self, List.getLast?_concat]
    · rw [Function.update_of_ne hkey, h.history, hother key.1 key.2 hkey]
  · exact (h.sent x hx).trans_le (hgrown _).length_le
  · exact (h.processed key).trans_le (hgrown key).length_le
  · exact (h.missed j key since hj).trans_le (hgrown key).length_le
  · exact ((hgrown key).drop since).subset (h.fetched j key since groups hj)

theorem Consistent.change (h : Consistent sent s) (i : ι) (tenantId globalUserId : String) (c : GroupChange) :
    Consistent sent (s.step (.change i tenantId globalUserId c)) := by
  unfold CacheSystem.step
  dsimp only
  split
  · split
    · exact h
    · next version acl hchange =>
      have hother : ∀ t u, (t, u) ≠ (tenantId, globalUserId) → acl.getUserGroups t u = s.acl.getUserGroups t u := by
        intro t u hne
        have hgroups : (s.acl.changeGroups tenantId globalUserId c.apply).2.getUserGroups t u = _ :=
          InMemoryAclStore.getUserGroups_changeGroups t u
        rw [hchange, if_neg fun h => hne h.1] at hgroups
        exact hgroups
      exact (h.changed hother).called rfl rfl rfl rfl rfl (fun _ _ hp => by cases hp) (fun _ _ _ hp => by cases hp)
  · exact h

/-- **One step** keeps what holds in every state. -/
theorem Consistent.step (hsent : ch.Delivers sent) (h : Consistent sent s) (x : CacheAct ι) :
    Consistent sent (s.step x) := by
  cases x with
  | lookup i key => exact h.lookup i key
  | fetch i => exact h.fetch i
  | insert i => exact h.insert i
  | change i tenantId globalUserId c => exact h.change i tenantId globalUserId c
  | publish i => exact h.publish hsent i
  | subscribe => exact h.subscribe
  | listen => exact h.listen hsent

end Consistent

/-! ### What breaks it -/

/-- A lookup inserts what is not older than the last processed invalidation of the user, and the listener has not
lagged when it receives. -/
def InTime (s : CacheSystem ch ι) : CacheAct ι → Prop
  | .insert i => ∀ key since groups, s.calls i = .fetched key since groups → UpToDate s key groups
  | .listen => ∀ rx n rx', s.listener = .running rx → ch.recv s.tx rx ≠ some (.error (.lagged n), rx')
  | _ => True

section Coherent
variable {sent : ch.Sender → List (AclInvalidation × ℕ)}

omit [DecidableEq ι] in
/-- A step that leaves the cache, the histories, what was processed and the listener, and answers nothing stale. -/
theorem Coherent.answered (hc : Coherent s) {s' : CacheSystem ch ι} (hcache : s'.cache = s.cache)
    (hhistory : s'.history = s.history) (hprocessed : s'.processed = s.processed) (hlistener : s'.listener = s.listener)
    (hanswers : ∀ a ∈ s'.answers, a ∈ s.answers ∨ a.groups ∈ (s.history a.key).drop a.since) : Coherent s' := by
  refine ⟨fun key groups hget => ?_, fun a ha => ?_, fun n => ?_⟩
  · rw [hcache] at hget
    unfold UpToDate
    rw [hhistory, hprocessed]
    exact hc.cache key groups hget
  · rw [hhistory]
    rcases hanswers a ha with hold | hnew
    · exact hc.answers a hold
    · exact hnew
  · rw [hlistener]
    exact hc.listener n

theorem Coherent.lookup (hc : Coherent s) (i : ι) (key : String × String) : Coherent (s.step (.lookup i key)) := by
  unfold CacheSystem.step
  dsimp only
  split
  · split
    · next groups hget =>
      refine hc.answered rfl rfl rfl rfl fun a ha => ?_
      rcases List.mem_cons.mp ha with rfl | hold
      · exact .inr (hc.cache key groups hget)
      · exact .inl hold
    · exact hc.answered rfl rfl rfl rfl fun a ha => .inl ha
  · exact hc

theorem Coherent.fetch (hc : Coherent s) (i : ι) : Coherent (s.step (.fetch i)) := by
  unfold CacheSystem.step
  dsimp only
  split
  · exact hc.answered rfl rfl rfl rfl fun a ha => .inl ha
  · exact hc

theorem Coherent.publish (hc : Coherent s) (i : ι) : Coherent (s.step (.publish i)) := by
  unfold CacheSystem.step
  dsimp only
  split
  · exact hc.answered rfl rfl rfl rfl fun a ha => .inl ha
  · exact hc

/-- Histories only grow. -/
theorem Coherent.change (hc : Coherent s) (i : ι) (tenantId globalUserId : String) (c : GroupChange) :
    Coherent (s.step (.change i tenantId globalUserId c)) := by
  unfold CacheSystem.step
  dsimp only
  split
  · split
    · exact hc
    · next version acl hchange =>
      have hgrown : ∀ {n groups} key, groups ∈ (s.history key).drop n →
          groups ∈ (Function.update s.history (tenantId, globalUserId)
            (s.history (tenantId, globalUserId) ++ [acl.getUserGroups tenantId globalUserId]) key).drop n := by
        intro n groups key hold
        by_cases hkey : key = (tenantId, globalUserId)
        · rw [hkey] at hold ⊢
          rw [Function.update_self]
          exact ((List.prefix_append _ _).drop n).subset hold
        · rw [Function.update_of_ne hkey]
          exact hold
      exact ⟨fun key groups hget => hgrown key (hc.cache key groups hget), fun a ha => hgrown a.key (hc.answers a ha),
        hc.listener⟩
  · exact hc

theorem Coherent.subscribe (hc : Coherent s) : Coherent (s.step .subscribe) := by
  unfold CacheSystem.step
  dsimp only
  split
  · exact ⟨hc.cache, hc.answers, fun _ h => by cases h⟩
  · exact hc

theorem coherent_insert_iff (h : Consistent sent s) (hc : Coherent s) (i : ι) :
    Coherent (s.step (.insert i)) ↔
      ∀ key since groups, s.calls i = .fetched key since groups → UpToDate s key groups := by
  unfold CacheSystem.step
  dsimp only
  split
  · next key since groups hcall =>
    constructor
    · intro hc' key' since' groups' hcall'
      rw [hcall] at hcall'
      cases hcall'
      refine hc'.cache key groups ?_
      show (s.cache.put key groups).get key = some groups
      rw [KMap.get_put, if_pos rfl]
    · intro hdate
      refine ⟨fun key' groups' hget => ?_, fun a ha => ?_, hc.listener⟩
      · have hget' : (s.cache.put key groups).get key' = some groups' := hget
        rw [KMap.get_put] at hget'
        split_ifs at hget' with hkey
        · cases hget'
          rw [hkey]
          exact hdate key since groups hcall
        · exact hc.cache key' groups' hget'
      · rcases List.mem_cons.mp ha with rfl | hold
        · exact h.fetched i key since groups hcall
        · exact hc.answers a hold
  · next hcall => exact iff_of_true hc fun key since groups hcall' => absurd hcall' (hcall key since groups)

theorem coherent_listen_iff (hc : Coherent s) : Coherent (s.step .listen) ↔
    ∀ rx n rx', s.listener = .running rx → ch.recv s.tx rx ≠ some (.error (.lagged n), rx') := by
  unfold CacheSystem.step
  dsimp only
  split
  · next rx hlistener =>
    split
    · next x hrecv =>
      obtain ⟨r, rx₁⟩ := x
      rcases r with (n | _) | ⟨inv, place⟩
      · exact iff_of_false (fun hc' => hc'.listener n rfl) fun h => h rx n rx₁ hlistener hrecv
      · refine iff_of_true ⟨hc.cache, hc.answers, fun _ h => by cases h⟩ fun rx' n rx'' hlistener' hrecv' => ?_
        rw [hlistener] at hlistener'
        cases hlistener'
        rw [hrecv] at hrecv'
        cases hrecv'
      · refine iff_of_true ⟨fun key groups hget => ?_, hc.answers, fun _ h => by cases h⟩
          fun rx' n rx'' hlistener' hrecv' => ?_
        · have hget' : (s.cache.del inv.key).get key = some groups := hget
          rw [KMap.get_del] at hget'
          split_ifs at hget' with hkey
          have hold := hc.cache key groups hget'
          unfold UpToDate at hold ⊢
          show groups ∈ (s.history key).drop (Function.update s.processed inv.key (max (s.processed inv.key) place) key)
          rw [Function.update_of_ne hkey]
          exact hold
        · rw [hlistener] at hlistener'
          cases hlistener'
          rw [hrecv] at hrecv'
          cases hrecv'
    · next hrecv =>
      refine iff_of_true hc fun rx' n rx'' hlistener' hrecv' => ?_
      rw [hlistener] at hlistener'
      cases hlistener'
      rw [hrecv] at hrecv'
      cases hrecv'
  · next hlistener => exact iff_of_true hc fun rx n rx' hlistener' => absurd hlistener' (hlistener rx)

/-- **One step** breaks the coherence exactly if it does not come in time. -/
theorem coherent_step_iff (h : Consistent sent s) (hc : Coherent s) (x : CacheAct ι) :
    Coherent (s.step x) ↔ InTime s x := by
  cases x with
  | lookup i key => exact iff_of_true (hc.lookup i key) trivial
  | fetch i => exact iff_of_true (hc.fetch i) trivial
  | insert i => exact coherent_insert_iff h hc i
  | change i tenantId globalUserId c => exact iff_of_true (hc.change i tenantId globalUserId c) trivial
  | publish i => exact iff_of_true (hc.publish i) trivial
  | subscribe => exact iff_of_true hc.subscribe trivial
  | listen => exact coherent_listen_iff hc

end Coherent

theorem ended_step {e : RecvError} (h : s.listener = .ended e) (x : CacheAct ι) : (s.step x).listener = .ended e := by
  cases x with
  | lookup i key =>
    unfold CacheSystem.step
    dsimp only
    split
    · split
      · exact h
      · exact h
    · exact h
  | change i tenantId globalUserId c =>
    unfold CacheSystem.step
    dsimp only
    split
    · split
      · exact h
      · exact h
    · exact h
  | fetch i | insert i | publish i =>
    unfold CacheSystem.step
    dsimp only
    split
    · exact h
    · exact h
  | subscribe | listen =>
    unfold CacheSystem.step
    dsimp only
    rw [h]
    exact h

/-- An end of the listener is for good: no invalidation is processed any more. -/
theorem ended_run {e : RecvError} (h : s.listener = .ended e) (sched : List (CacheAct ι)) :
    (runFrom CacheSystem.step s sched).listener = .ended e := by
  induction sched generalizing s with
  | nil => exact h
  | cons x sched ih => exact ih (ended_step h x)

end Coherence

/-! ## Runs -/

/-- **Coherence.** In every state of a run lookups are answered with groups as of the last invalidation that was
processed, or later, and the listener has not ended for a lag, exactly if no lookup inserts older groups and the
listener receives nothing when it has lagged. -/
theorem cache_coherent_iff {ι : Type} [DecidableEq ι] {ch : BroadcastChannel (AclInvalidation × ℕ)}
    {sent : ch.Sender → List (AclInvalidation × ℕ)} (hsent : ch.Delivers sent) (acl : InMemoryAclStore)
    (sched : List (CacheAct ι)) :
    Throughout CacheSystem.step Coherent (CacheSystem.new ch acl) sched ↔
      EachStep CacheSystem.step InTime (CacheSystem.new ch acl) sched := by
  have hconsistent : Consistent sent (CacheSystem.new ch acl : CacheSystem ch ι) := by
    refine ⟨fun key => rfl, fun x hx => ?_, fun key => Nat.one_pos, fun _ _ _ h => (by cases h),
      fun _ _ _ _ h => (by cases h)⟩
    have hx' : x ∈ sent ch.channel := hx
    rw [hsent.channel] at hx'
    cases hx'
  have hcoherent : Coherent (CacheSystem.new ch acl : CacheSystem ch ι) :=
    ⟨fun _ _ h => (by cases h), fun _ h => (by cases h), fun _ h => (by cases h)⟩
  exact throughout_iff_of_invariant (fun s x h _ => h.step hsent x) (fun s x h hc => coherent_step_iff h hc x)
    hconsistent hcoherent

/-- A store with one user, of one group. -/
def aliceInEng : InMemoryAclStore :=
  ((InMemoryAclStore.new.ensureUser "1" "ten_1" "gh_1" "a@x.com" "Alice").2.addUserToGroup "ten_1" "gu_1" "grp_eng").2

/-- A lookup, a revocation whose invalidation is processed, and a lookup again. -/
def revocation : List (CacheAct (Fin 2)) :=
  [.subscribe, .lookup 0 ("ten_1", "gu_1"), .fetch 0, .insert 0,
    .change 1 "ten_1" "gu_1" (.removeUserFromGroup "grp_eng"), .publish 1, .listen,
    .lookup 0 ("ten_1", "gu_1"), .fetch 0, .insert 0]

theorem revocation_coherent_iff :
    Throughout CacheSystem.step Coherent (CacheSystem.new (ringChannel 4096 _) aliceInEng) revocation ↔
      EachStep CacheSystem.step InTime (CacheSystem.new (ringChannel 4096 _) aliceInEng) revocation :=
  cache_coherent_iff (ringChannel_delivers 4096 _) aliceInEng revocation

/-- The lookup reads the groups before the revocation, and inserts them after its invalidation. -/
def staleInsert : List (CacheAct (Fin 2)) :=
  [.subscribe, .lookup 0 ("ten_1", "gu_1"), .fetch 0,
    .change 1 "ten_1" "gu_1" (.removeUserFromGroup "grp_eng"), .publish 1, .listen, .insert 0]

theorem staleInsert_incoherent : ¬ ∀ acl (sched : List (CacheAct (Fin 2))),
    Throughout CacheSystem.step Coherent (CacheSystem.new (ringChannel 4096 _) acl) sched := by
  intro hall
  have hstale := (hall aliceInEng staleInsert).last.cache ("ten_1", "gu_1") {"grp_eng"} (by decide +kernel)
  unfold UpToDate at hstale
  revert hstale
  decide +kernel

end AiManager.Telemetry
