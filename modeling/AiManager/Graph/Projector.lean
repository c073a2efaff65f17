import AiManager.Graph.Project

/-! # The projector

Consumers of the ingestion's topics. A consumer hands every record to the engine and moves on if the
engine reports no error; it moves on from a record it cannot read, too. The consumers of all topics, and
requests over HTTP, share the engine's stores, and any call of a store can fail. -/

namespace AiManager.Graph

open Lib

/-- What a record can do to the stores. -/
inductive Effect where
  | mutation (m : GraphMutation)
  | member (c : MembershipChange)

/-- The stores, and the effects on them so far. -/
structure ProjectStores where
  graph : InMemoryGraphStore
  membership : InMemoryMembership
  effects : List Effect

/-- The stores, with no effects yet. -/
def ProjectStores.quiet (s : ProjectStores) : ProjectStores := { s with effects := [] }

/-- Which of the calls made for one record fail, and how. A call that fails leaves its store alone. -/
structure Faults where
  mark : Option GraphError := none
  membership : Option GraphError := none
  mutation : Option GraphError := none
  deriving DecidableEq

namespace ProjectStores

def faulty {α : Type} (fault : Option GraphError) (f : ProjectStores → α × ProjectStores) :
    StateM ProjectStores (GraphResult α) := fun s =>
  match fault with
  | some e => (.error e, s)
  | none => ((.ok (f s).1), (f s).2)

def markEventApplied (tenantId eventId : String) (s : ProjectStores) : Bool × ProjectStores :=
  ((s.graph.markEventApplied tenantId eventId).1,
    { s with graph := (s.graph.markEventApplied tenantId eventId).2 })

def applyMutation (m : GraphMutation) (s : ProjectStores) : Unit × ProjectStores :=
  ((), { s with graph := s.graph.applyMutation m, effects := .mutation m :: s.effects })

def addGroup (t u g : String) (s : ProjectStores) : Unit × ProjectStores :=
  ((), { s with
    membership := s.membership.addGroup t u g
    effects := .member ⟨t, u, g, "added_to_group"⟩ :: s.effects })

def removeGroup (t u g : String) (s : ProjectStores) : Unit × ProjectStores :=
  ((), { s with
    membership := s.membership.removeGroup t u g
    effects := .member ⟨t, u, g, "removed_from_group"⟩ :: s.effects })

def setGroups (t u : String) (groups : List String) (s : ProjectStores) : Unit × ProjectStores :=
  ((), { s with membership := s.membership.setGroups t u groups })

/-- The engine over the embedded stores. -/
def engine (faults : Faults) : ProjectEngine (StateM ProjectStores) where
  store := {
    markEventApplied := fun t e => faulty faults.mark (markEventApplied t e)
    applyMutation := fun m => faulty faults.mutation (applyMutation m) }
  membership := {
    setGroups := fun t u groups => faulty faults.membership (setGroups t u groups)
    addGroup := fun t u g => faulty faults.membership (addGroup t u g)
    removeGroup := fun t u g => faulty faults.membership (removeGroup t u g)
    getGroups := fun t u => faulty faults.membership fun s => (s.membership.getGroups t u, s) }

end ProjectStores

/-! ## What a record asks for -/

section Asks
variable (mapEvent : V1CanonicalEvent → GraphMutation)

/-- The change can be made. -/
def MembershipChange.Valid (c : MembershipChange) : Prop :=
  c.globalUserId ≠ "" ∧ c.groupId ≠ "" ∧
    (c.changeType = "removed_from_group" ∨ c.changeType = "added_to_group")

instance (c : MembershipChange) : Decidable c.Valid :=
  inferInstanceAs (Decidable (_ ∧ _ ∧ (_ ∨ _)))

def V1AclRevocation.change (rev : V1AclRevocation) : MembershipChange :=
  ⟨rev.tenantId, rev.globalUserId, rev.groupId, rev.changeType⟩

def changeOfRevocation (rev : V1AclRevocation) : Option MembershipChange :=
  if rev.change.Valid then some rev.change else none

def changeOfEvent (event : V1CanonicalEvent) : Option MembershipChange :=
  if isMembershipEvent event then membershipFromIdentityEvent event else none

namespace V1BusPayload

/-- Tenant and event, under which a record is marked. -/
def key : V1BusPayload → String × String
  | .event ev => (ev.tenantId, ev.eventId)
  | .acl rev => (rev.tenantId, rev.eventId)

def change : V1BusPayload → Option MembershipChange
  | .event ev => changeOfEvent ev
  | .acl rev => changeOfRevocation rev

def mutation : V1BusPayload → Option GraphMutation
  | .event ev => if (mapEvent ev).isEmpty then none else some (mapEvent ev)
  | .acl _ => none

/-- The effects that a record maps to. -/
def asks (p : V1BusPayload) : List Effect :=
  ((p.mutation mapEvent).map .mutation).toList ++ (p.change.map .member).toList

/-- The effects that the first handling of a record has: those whose calls do not fail. -/
def performed (faults : Faults) (p : V1BusPayload) : List Effect :=
  (if faults.mutation = none then ((p.mutation mapEvent).map .mutation).toList else []) ++
    if faults.membership = none then (p.change.map .member).toList else []

end V1BusPayload

end Asks

/-! ## One record -/

section Handle
variable (mapEvent : V1CanonicalEvent → GraphMutation)

/-- `handle_payload`, for a payload that can be read. -/
def handlePayload {m : Type → Type} [Monad m] (engine : ProjectEngine m) :
    V1BusPayload → ExceptT GraphError m Unit
  | .event ev => do
    let _ ← projectEvent mapEvent engine ev
  | .acl rev => do
    let _ ← projectAclRevocation engine rev

/-- The result of one record, and the stores after it. -/
def handle (faults : Faults) (p : V1BusPayload) (s : ProjectStores) :
    GraphResult Unit × ProjectStores :=
  (handlePayload mapEvent (ProjectStores.engine faults) p).run s

end Handle

/-! ### A record after its mark

A mark that fails ends the record, a mark that is there makes it a duplicate, and only after a new mark is
anything done. -/

section Run
variable {σ α β : Type}

theorem run_mk_bind (a : StateM σ (GraphResult α)) (f : α → ExceptT GraphError (StateM σ) β) (s : σ) :
    (ExceptT.mk a >>= f).run s =
      match a s with
      | (.ok x, s') => (f x).run s'
      | (.error e, s') => (.error e, s') := by
  show (match a s with | (r, s') => ExceptT.bindCont f r s') = _
  rcases a s with ⟨e | x, s'⟩ <;> rfl

theorem run_lift_bind (a : StateM σ α) (f : α → ExceptT GraphError (StateM σ) β) (s : σ) :
    (ExceptT.lift a >>= f).run s = (f (a s).1).run (a s).2 := rfl

theorem run_pure (x : α) (s : σ) : (pure x : ExceptT GraphError (StateM σ) α).run s = (.ok x, s) := rfl

end Run

section Handle
variable {mapEvent : V1CanonicalEvent → GraphMutation} {faults : Faults} {p : V1BusPayload}
  {s : ProjectStores} {c : MembershipChange}

open ProjectStores

theorem valid_of_identityEvent {event : V1CanonicalEvent} (h : membershipFromIdentityEvent event = some c) :
    c.Valid := by
  unfold membershipFromIdentityEvent at h
  dsimp only at h
  split at h
  · cases h
  · next hnamed =>
    obtain ⟨changeType, hchange, rfl⟩ := Option.map_eq_some_iff.mp h
    obtain ⟨hteam, hmember⟩ := not_or.mp hnamed
    refine ⟨?_, hteam, ?_⟩
    · dsimp only
      split
      · assumption
      · exact hmember
    · unfold membershipChangeOf at hchange
      dsimp only at hchange
      split at hchange
      · exact .inl (Option.some.inj hchange).symm
      · split at hchange
        · exact .inr (Option.some.inj hchange).symm
        · cases hchange

/-- The stores after a membership change that was made, and recorded. -/
def changedBy (c : MembershipChange) (s : ProjectStores) : ProjectStores :=
  { s with
    membership := s.membership.changed c.tenantId c.globalUserId c.groupId c.changeType
    effects := .member c :: s.effects }

variable (faults s) in
theorem applyMembershipChange_valid (h : c.Valid) :
    applyMembershipChange (engine faults).membership c.tenantId c.globalUserId c.groupId c.changeType s =
      match faults.membership with
      | some e => (.error e, s)
      | none => (.ok (), changedBy c s) := by
  obtain ⟨hu, hg, hchange⟩ := h
  have hnamed : ¬ (c.globalUserId = "" ∨ c.groupId = "") := not_or.mpr ⟨hu, hg⟩
  unfold applyMembershipChange changedBy
  rw [InMemoryMembership.changed_eq, if_neg hnamed, if_neg hnamed]
  rcases hchange with hremoved | hadded
  · rw [if_pos hremoved, if_pos hremoved]
    cases hfault : faults.membership <;> simp [engine, faulty, hfault, removeGroup, ← hremoved]
  · have hne : c.changeType ≠ "removed_from_group" := by
      rw [hadded]
      decide
    rw [if_neg hne, if_pos hadded, if_neg hne, if_pos hadded]
    cases hfault : faults.membership <;> simp [engine, faulty, hfault, addGroup, ← hadded]

variable (faults s) in
theorem applyMembershipChange_invalid (h : ¬ c.Valid) :
    ∃ e, applyMembershipChange (engine faults).membership c.tenantId c.globalUserId c.groupId
      c.changeType s = (.error e, s) := by
  unfold applyMembershipChange
  split
  · exact ⟨_, rfl⟩
  · next hnamed =>
    have hchange : ¬ (c.changeType = "removed_from_group" ∨ c.changeType = "added_to_group") :=
      fun hc => h ⟨(not_or.mp hnamed).1, (not_or.mp hnamed).2, hc⟩
    rw [if_neg (not_or.mp hchange).1, if_neg (not_or.mp hchange).2]
    exact ⟨_, rfl⟩

/-- The stores after a membership change that was asked for. -/
def afterChange (faults : Faults) (change : Option MembershipChange) (s : ProjectStores) :
    ProjectStores :=
  match change with
  | some c => if faults.membership = none then changedBy c s else s
  | none => s

theorem sideChannel_run {event : V1CanonicalEvent} :
    membershipSideChannel (engine faults).membership event s =
      ((), afterChange faults (changeOfEvent event) s) := by
  unfold membershipSideChannel changeOfEvent
  split
  · unfold tryMembershipFromIdentityEvent
    cases hchange : membershipFromIdentityEvent event with
    | none => rfl
    | some c =>
      show ((), (applyMembershipChange (engine faults).membership c.tenantId c.globalUserId c.groupId
        c.changeType s).2) = _
      rw [applyMembershipChange_valid faults s (valid_of_identityEvent hchange)]
      cases hfault : faults.membership <;> simp [afterChange, hfault]
  · rfl

/-- The stores with a mark set. -/
def marked (key : String × String) (s : ProjectStores) : ProjectStores :=
  { s with graph := { s.graph with applied := s.graph.applied.put key () } }

theorem afterChange_effects (change : Option MembershipChange) :
    (afterChange faults change s).effects =
      (if faults.membership = none then (change.map .member).toList else []) ++ s.effects := by
  cases change with
  | none => simp [afterChange]
  | some c =>
    unfold afterChange
    dsimp only
    split_ifs <;> rfl

theorem afterChange_graph (change : Option MembershipChange) :
    (afterChange faults change s).graph = s.graph := by
  unfold afterChange
  split
  · split_ifs <;> rfl
  · rfl

theorem afterChange_marked (change : Option MembershipChange) (key : String × String) :
    (afterChange faults change (marked key s)).membership = (afterChange faults change s).membership := by
  unfold afterChange
  split
  · split_ifs <;> rfl
  · rfl

variable (faults s) in
theorem revocation_run (rev : V1AclRevocation) :
    ∃ r, applyMembershipChange (engine faults).membership rev.tenantId rev.globalUserId rev.groupId
        rev.changeType s = (r, afterChange faults (changeOfRevocation rev) s) ∧
      (r = .ok () ↔ rev.change.Valid ∧ faults.membership = none) := by
  unfold changeOfRevocation
  by_cases hvalid : rev.change.Valid
  · have hrun := applyMembershipChange_valid faults s hvalid
    cases hfault : faults.membership with
    | none =>
      rw [hfault] at hrun
      refine ⟨.ok (), hrun.trans ?_, by simp [hvalid]⟩
      simp [afterChange, hvalid, hfault]
    | some e =>
      rw [hfault] at hrun
      refine ⟨.error e, hrun.trans ?_, by simp⟩
      simp [afterChange, hvalid, hfault]
  · obtain ⟨e, hrun⟩ := applyMembershipChange_invalid faults s hvalid
    refine ⟨.error e, hrun.trans ?_, by simp [hvalid]⟩
    simp [afterChange, hvalid]

theorem handle_fails {e : GraphError} (h : faults.mark = some e) :
    handle mapEvent faults p s = (.error e, s) := by
  cases p <;>
  simp [handle, handlePayload, projectEvent, projectAclRevocation, run_mk_bind, engine, faulty, h]

section Marked
variable (mapEvent) (hmark : faults.mark = none)
include hmark

theorem handle_duplicate (hold : s.graph.applied.has p.key = true) :
    handle mapEvent faults p s = (.ok (), s) := by
  cases p <;>
  · simp only [V1BusPayload.key] at hold
    simp [handle, handlePayload, projectEvent, projectAclRevocation, run_mk_bind, run_pure, engine,
      faulty, hmark, ProjectStores.markEventApplied, InMemoryGraphStore.markEventApplied, hold]

theorem mark_new {key : String × String} (hnew : s.graph.applied.has key = false) :
    (engine faults).store.markEventApplied key.1 key.2 s = (.ok true, marked key s) := by
  simp [engine, faulty, hmark, ProjectStores.markEventApplied, InMemoryGraphStore.markEventApplied, hnew,
    marked]

theorem handle_event_new {event : V1CanonicalEvent}
    (hnew : s.graph.applied.has (event.tenantId, event.eventId) = false) :
    handle mapEvent faults (.event event) s =
      let s' := afterChange faults (changeOfEvent event) (marked (event.tenantId, event.eventId) s)
      if (mapEvent event).isEmpty then (.ok (), s')
      else
        match faults.mutation with
        | some e => (.error e, s')
        | none => (.ok (), (applyMutation (mapEvent event) s').2) := by
  simp only [handle, handlePayload, projectEvent, bind_assoc, run_mk_bind, mark_new hmark hnew,
    Bool.not_true, Bool.false_eq_true, if_false, run_lift_bind, sideChannel_run]
  split
  · rfl
  · simp only [bind_assoc, run_mk_bind]
    cases hfault : faults.mutation <;> simp [engine, faulty, hfault, run_pure]

theorem handle_acl_new {rev : V1AclRevocation}
    (hnew : s.graph.applied.has (rev.tenantId, rev.eventId) = false) :
    ∃ r, handle mapEvent faults (.acl rev) s =
        (r, afterChange faults (changeOfRevocation rev) (marked (rev.tenantId, rev.eventId) s)) ∧
      (r = .ok () ↔ rev.change.Valid ∧ faults.membership = none) := by
  simp only [handle, handlePayload, projectAclRevocation, bind_assoc, run_mk_bind, mark_new hmark hnew,
    Bool.not_true, Bool.false_eq_true, if_false]
  obtain ⟨r, hrun, hok⟩ := revocation_run faults (marked (rev.tenantId, rev.eventId) s) rev
  refine ⟨r, ?_, hok⟩
  rw [hrun]
  cases r <;> rfl

/-- **A new mark.** The first handling of a record sets its mark, and has the effects whose calls do not
fail. -/
theorem handle_new (hnew : s.graph.applied.has p.key = false) :
    (handle mapEvent faults p s).2.graph.applied = s.graph.applied.put p.key () ∧
    (handle mapEvent faults p s).2.effects = p.performed mapEvent faults ++ s.effects ∧
    (handle mapEvent faults p s).2.membership = (afterChange faults p.change s).membership := by
  cases p with
  | acl rev =>
    obtain ⟨r, hrun, -⟩ :=
      handle_acl_new mapEvent hmark (hnew : s.graph.applied.has (rev.tenantId, rev.eventId) = false)
    rw [hrun]
    refine ⟨?_, ?_, afterChange_marked (changeOfRevocation rev) _⟩
    · rw [afterChange_graph]
      rfl
    · rw [afterChange_effects]
      simp [V1BusPayload.performed, V1BusPayload.mutation, V1BusPayload.change, marked]
  | event event =>
    rw [handle_event_new mapEvent hmark hnew]
    dsimp only
    split
    · next hempty =>
      refine ⟨?_, ?_, afterChange_marked (changeOfEvent event) _⟩
      · rw [afterChange_graph]
        rfl
      · rw [afterChange_effects]
        simp [V1BusPayload.performed, V1BusPayload.mutation, V1BusPayload.change, marked, hempty]
    · next hasks =>
      cases hfault : faults.mutation with
      | some e =>
        refine ⟨?_, ?_, afterChange_marked (changeOfEvent event) _⟩
        · rw [afterChange_graph]
          rfl
        · rw [afterChange_effects]
          simp [V1BusPayload.performed, V1BusPayload.change, marked, hfault]
      | none =>
        refine ⟨?_, ?_, afterChange_marked (changeOfEvent event) _⟩
        · simp [applyMutation, afterChange_graph, marked, V1BusPayload.key]
        · simp [applyMutation, afterChange_effects, V1BusPayload.performed, V1BusPayload.mutation,
            V1BusPayload.change, marked, hfault, hasks]

end Marked

/-- Where no call fails, the engine reports an error only for a record that asks for nothing. -/
theorem handle_without_faults (mapEvent : V1CanonicalEvent → GraphMutation) (p : V1BusPayload)
    (s : ProjectStores) : (handle mapEvent {} p s).1 = .ok () ∨ p.asks mapEvent = [] := by
  have hmark : ({} : Faults).mark = none := rfl
  cases hkey : s.graph.applied.has p.key with
  | true =>
    left
    rw [handle_duplicate mapEvent hmark hkey]
  | false =>
    cases p with
    | event event =>
      left
      rw [handle_event_new mapEvent hmark hkey]
      dsimp only
      split <;> rfl
    | acl rev =>
      obtain ⟨r, hrun, hok⟩ := handle_acl_new mapEvent hmark hkey
      by_cases hvalid : rev.change.Valid
      · left
        rw [hrun]
        exact hok.mpr ⟨hvalid, rfl⟩
      · right
        simp [V1BusPayload.asks, V1BusPayload.mutation, V1BusPayload.change, changeOfRevocation, hvalid]

/-- Everything the projection of an access record can do: it is applied, and its change is made, or it is
not, and the memberships stay. -/
theorem projectAclRevocation_cases (faults : Faults) (rev : V1AclRevocation) (s : ProjectStores) :
    (∃ r s', (projectAclRevocation (engine faults) rev).run s = (r, s') ∧
      s'.membership = s.membership ∧ ∀ o, r = .ok o → o.status ≠ .applied) ∨
    ∃ o, (projectAclRevocation (engine faults) rev).run s =
        (.ok o, changedBy rev.change (marked (rev.tenantId, rev.eventId) s)) ∧
      o.status = .applied ∧ rev.change.Valid := by
  cases hmark : faults.mark with
  | some e =>
    left
    refine ⟨.error e, s, ?_, rfl, nofun⟩
    simp [projectAclRevocation, run_mk_bind, engine, faulty, hmark]
  | none =>
    cases hkey : s.graph.applied.has (rev.tenantId, rev.eventId) with
    | true =>
      left
      refine ⟨.ok { eventId := rev.eventId, tenantId := rev.tenantId, status := .duplicate }, s, ?_, rfl, ?_⟩
      · simp [projectAclRevocation, run_mk_bind, run_pure, engine, faulty, hmark,
          ProjectStores.markEventApplied, InMemoryGraphStore.markEventApplied, hkey]
      · intro o ho
        cases ho
        nofun
    | false =>
      obtain ⟨r, hrun, hok⟩ := revocation_run faults (marked (rev.tenantId, rev.eventId) s) rev
      simp only [projectAclRevocation, run_mk_bind, mark_new hmark hkey, Bool.not_true,
        Bool.false_eq_true, if_false, hrun]
      cases r with
      | error e =>
        left
        refine ⟨.error e, _, rfl, ?_, nofun⟩
        rw [afterChange_marked]
        unfold afterChange changeOfRevocation
        by_cases hvalid : rev.change.Valid
        · have hfault : ¬ faults.membership = none := fun h => absurd (hok.mpr ⟨hvalid, h⟩) nofun
          simp [hvalid, hfault]
        · simp [hvalid]
      | ok u =>
        right
        obtain ⟨hvalid, hfault⟩ := hok.mp rfl
        refine ⟨{ eventId := rev.eventId, tenantId := rev.tenantId, status := .applied }, ?_, rfl, hvalid⟩
        simp [afterChange, changeOfRevocation, hvalid, hfault, run_pure]

end Handle

end AiManager.Graph
