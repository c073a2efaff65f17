import AiManager.Telemetry.Model
import AiManager.Lib.KMap
import AiManager.Lib.Lock
import Mathlib.Data.List.Sort

/-! # The embedded event store and its locks

`InMemoryEventStore` holds every event twice, by id and by resource, in maps of maps; the outer maps
are sharded by tenant. `upsert` binds the entry of the tenant at its top, so the exclusive lock of
that shard lives to the end of the function, across the snapshot that `maybe_persist` takes when a
persist path is set. -/

namespace AiManager.Telemetry

open Lib

structure InMemoryEventStore where
  /-- tenant → event → record -/
  byId : KMap String (KMap String CanonicalEventRecord)
  /-- tenant → resource → events ordered by time -/
  byResource : KMap String (KMap String (List CanonicalEventRecord))
  persistPath : Option String
  /-- writes since the last successful save -/
  dirty : Nat

structure EventPersistSnapshot where
  version : Nat
  savedAt : Option String
  events : List CanonicalEventRecord

namespace InMemoryEventStore

def new : InMemoryEventStore := ⟨∅, ∅, none, 0⟩

def setPersistPath (st : InMemoryEventStore) (path : Option String) : InMemoryEventStore :=
  { st with persistPath := path }

/-- `tenant_events.entry(event_id)`: the record is replaced or inserted. The comparison of versions
in the source is computed and not used. -/
def insertById (st : InMemoryEventStore) (e : CanonicalEventRecord) : InMemoryEventStore :=
  { st with byId := st.byId.put e.tenantId (((st.byId.get e.tenantId).getD ∅).put e.eventId e) }

/-- Replace the event with this id in place, or append it. -/
def placeEvent (e : CanonicalEventRecord) : List CanonicalEventRecord → List CanonicalEventRecord
  | [] => [e]
  | x :: xs => if x.eventId = e.eventId then e :: xs else x :: placeEvent e xs

def sortByTimestamp (es : List CanonicalEventRecord) : List CanonicalEventRecord :=
  es.insertionSort fun a b => a.eventTimestamp ≤ b.eventTimestamp

def insertByResource (st : InMemoryEventStore) (e : CanonicalEventRecord) : InMemoryEventStore :=
  let resources := (st.byResource.get e.tenantId).getD ∅
  let list := sortByTimestamp (placeEvent e ((resources.get e.resourceId).getD []))
  { st with byResource := st.byResource.put e.tenantId (resources.put e.resourceId list) }

/-- What an upsert does to the data. -/
def upsertData (st : InMemoryEventStore) (e : CanonicalEventRecord) : InMemoryEventStore :=
  (st.insertById e).insertByResource e

end InMemoryEventStore

/-! ## Locks -/

inductive EventStoreLock where
  | byId (shard : ℕ)
  /-- a shard of the map of one tenant -/
  | events (tenantId : String) (shard : ℕ)
  | byResource (shard : ℕ)
  | resources (tenantId : String) (shard : ℕ)
  /-- the lock around the list of one resource -/
  | resourceList (tenantId resourceId : String)
  | persistPath
  deriving DecidableEq

/-- How the maps spread their keys; every map has its own hasher. -/
structure EventStoreShards where
  byId : Sharding String
  events : String → Sharding String
  byResource : Sharding String
  resources : String → Sharding String

abbrev EventStoreTask (α : Type) := Task EventStoreLock InMemoryEventStore α

/-- The outside of a persist: the clock, and how writing the file ends. -/
structure EventPersistIo where
  now : DateTime
  write : String → EventPersistSnapshot → CoreResult Unit

namespace EventStoreLocks

open Task
variable (sh : EventStoreShards) (io : EventPersistIo)

/-- Both maps are read shard by shard, the inner one under the guard of the outer shard. -/
def exportSnapshot : EventStoreTask EventPersistSnapshot := do
  let events ← iterShards .byId sh.byId.count fun i => do
    let tenants ← look fun st => (st.byId.items.map Prod.fst).filter fun t => sh.byId.shard t = i
    collect (fun t => iterShards (.events t) (sh.events t).count fun j =>
      look fun st => ((st.byId.get t).getD ∅).values.filter fun e =>
        (sh.events t).shard e.eventId = j) tenants
  return { version := 1, savedAt := some (DateTime.toRfc3339 io.now), events }

def saveToPath (path : String) : EventStoreTask (CoreResult Unit) := do
  let snap ← exportSnapshot sh io
  match io.write path snap with
  | .error e => return .error e
  | .ok () =>
    change fun st => { st with dirty := 0 }
    return .ok ()

/-- A failed save is logged, not returned. -/
def forcePersist : EventStoreTask Unit := do
  match ← held .persistPath .shared (look fun st => st.persistPath) with
  | none => return ()
  | some path =>
    let _ ← saveToPath sh io path
    return ()

def maybePersist : EventStoreTask Unit := do
  change fun st => { st with dirty := st.dirty + 1 }
  forcePersist sh io

/-- `tenant_events`, `by_res` and `list` are bound in the body of the function: their guards are
dropped when it returns. -/
def upsertInner (event : CanonicalEventRecord) (persist : Bool) : EventStoreTask (CoreResult Unit) :=
  let tenant := event.tenantId
  held (.byId (sh.byId.shard tenant)) .exclusive do
    held (.events tenant ((sh.events tenant).shard event.eventId)) .exclusive
      (change fun st => st.insertById event)
    held (.byResource (sh.byResource.shard tenant)) .exclusive do
      held (.resources tenant ((sh.resources tenant).shard event.resourceId)) .exclusive do
        held (.resourceList tenant event.resourceId) .exclusive
          (change fun st => st.insertByResource event)
        if persist then
          maybePersist sh io
        return .ok ()

def upsert (event : CanonicalEventRecord) : EventStoreTask (CoreResult Unit) :=
  upsertInner sh io event true

def upsertAll (events : List CanonicalEventRecord) : EventStoreTask Unit :=
  events.forM fun e => do let _ ← upsert sh io e

/-- The guards alive when an upsert comes to its persist. -/
def liveGuards (event : CanonicalEventRecord) : Guards EventStoreLock :=
  [(.resources event.tenantId ((sh.resources event.tenantId).shard event.resourceId), .exclusive),
    (.byResource (sh.byResource.shard event.tenantId), .exclusive),
    (.byId (sh.byId.shard event.tenantId), .exclusive)]

section Prefix
variable (event : CanonicalEventRecord) (st : InMemoryEventStore)

private theorem insertById_eq :
    held (.events event.tenantId ((sh.events event.tenantId).shard event.eventId)) .exclusive
      (change fun st => st.insertById event)
      ([(EventStoreLock.byId (sh.byId.shard event.tenantId), Mode.exclusive)], st) =
    .ok ((), ([(EventStoreLock.byId (sh.byId.shard event.tenantId), Mode.exclusive)],
      st.insertById event)) :=
  held_ok (by simp [excludes_cons]) (change_apply _ _ _)

private theorem insertByResource_eq :
    held (.resourceList event.tenantId event.resourceId) .exclusive
      (change fun st => st.insertByResource event) (liveGuards sh event, st) =
    .ok ((), (liveGuards sh event, st.insertByResource event)) :=
  held_ok (by simp [excludes_cons, liveGuards]) (change_apply _ _ _)

/-- An upsert returns when its persist does. -/
theorem upsert_ok {st' : InMemoryEventStore}
    (h : maybePersist sh io (liveGuards sh event, st.upsertData event) =
      .ok ((), (liveGuards sh event, st'))) :
    upsert sh io event ([], st) = .ok (.ok (), ([], st')) := by
  refine held_ok (excludes_nil _ _) ?_
  rw [bind_ok (insertById_eq sh event st)]
  refine held_ok (by simp [excludes_cons]) (held_ok (by simp [excludes_cons]) ?_)
  have hlist := insertByResource_eq sh event (st.insertById event)
  rw [liveGuards] at hlist h
  rw [bind_ok hlist, if_pos rfl]
  exact (bind_ok h).trans rfl

/-- An upsert blocks when its persist does. -/
theorem upsert_error {e : EventStoreLock × Mode}
    (h : maybePersist sh io (liveGuards sh event, st.upsertData event) = .error e) :
    upsert sh io event ([], st) = .error e := by
  refine held_error (excludes_nil _ _) ?_
  rw [bind_ok (insertById_eq sh event st)]
  refine held_error (by simp [excludes_cons]) (held_error (by simp [excludes_cons]) ?_)
  have hlist := insertByResource_eq sh event (st.insertById event)
  rw [liveGuards] at hlist h
  rw [bind_ok hlist, if_pos rfl]
  exact bind_error h

end Prefix

/-! ## The persist -/

/-- The snapshot needs the shard of the event's tenant, which the upsert has locked. -/
theorem exportSnapshot_blocks (event : CanonicalEventRecord) (st : InMemoryEventStore) :
    ∃ e, exportSnapshot sh io (liveGuards sh event, st) = .error e := by
  have hshards : ∃ e, (iterShards .byId sh.byId.count fun i => do
      let tenants ← look fun st => (st.byId.items.map Prod.fst).filter fun t => sh.byId.shard t = i
      collect (fun t => iterShards (.events t) (sh.events t).count fun j =>
        look fun st => ((st.byId.get t).getD ∅).values.filter fun e =>
          (sh.events t).shard e.eventId = j) tenants)
      (liveGuards sh event, st) = .error e := by
    refine iterShards_blocked (I := fun _ => True) (sh.byId.shard_lt event.tenantId)
      (by simp [excludes_cons, liveGuards]) (fun i _ => ?_) trivial
    -- the shards before it are read without trouble
    refine quiet_bind (quiet_look _) fun tenants => quiet_collect fun t _ => ?_
    refine quiet_iterShards (fun j _ => ?_) fun j _ => quiet_look _
    simp [excludes_cons, liveGuards]
  obtain ⟨e, he⟩ := hshards
  exact ⟨e, bind_error he⟩

/-- Without a path there is nothing to export. -/
theorem maybePersist_no_path (g : Guards EventStoreLock) {st : InMemoryEventStore}
    (hfree : g.excludes .persistPath .shared = false) (hpath : st.persistPath = none) :
    maybePersist sh io (g, st) = .ok ((), (g, { st with dirty := st.dirty + 1 })) := by
  unfold maybePersist forcePersist
  rw [bind_ok (change_apply _ _ _), bind_ok (held_ok hfree (look_apply _ _ _))]
  simp [hpath]

theorem maybePersist_path_blocks (event : CanonicalEventRecord) {st : InMemoryEventStore}
    {path : String} (hpath : st.persistPath = some path) :
    ∃ e, maybePersist sh io (liveGuards sh event, st) = .error e := by
  obtain ⟨byId, byResource, persistPath, dirty⟩ := st
  obtain rfl : persistPath = some path := hpath
  obtain ⟨e, he⟩ := exportSnapshot_blocks sh io event
    ⟨byId, byResource, some path, dirty + 1⟩
  refine ⟨e, ?_⟩
  unfold maybePersist forcePersist
  rw [bind_ok (change_apply _ _ _),
    bind_ok (held_ok (by simp [excludes_cons, liveGuards]) (look_apply _ _ _))]
  exact bind_error (bind_error he)

@[simp] theorem upsertData_persistPath (st : InMemoryEventStore) (event : CanonicalEventRecord) :
    (st.upsertData event).persistPath = st.persistPath := rfl

theorem upsert_no_path (event : CanonicalEventRecord) {st : InMemoryEventStore}
    (hpath : st.persistPath = none) :
    upsert sh io event ([], st) = .ok (.ok (), ([],
      { st.upsertData event with dirty := (st.upsertData event).dirty + 1 })) :=
  upsert_ok sh io event st (maybePersist_no_path sh io _ (by simp [excludes_cons, liveGuards]) hpath)

theorem upsert_path_blocks (event : CanonicalEventRecord) {st : InMemoryEventStore} {path : String}
    (hpath : st.persistPath = some path) : ∃ e, upsert sh io event ([], st) = .error e := by
  obtain ⟨e, he⟩ := maybePersist_path_blocks sh io event
    (show (st.upsertData event).persistPath = some path from hpath)
  exact ⟨e, upsert_error sh io event st he⟩

theorem upsert_completes (event : CanonicalEventRecord) (st : InMemoryEventStore) :
    (upsert sh io event).Completes st ↔ st.persistPath = none := by
  constructor
  · rintro ⟨a, p, h⟩
    by_contra hpath
    obtain ⟨path, hpath⟩ := Option.ne_none_iff_exists'.mp hpath
    obtain ⟨e, he⟩ := upsert_path_blocks sh io event hpath
    rw [he] at h
    cases h
  · intro hpath
    exact ⟨_, _, upsert_no_path sh io event hpath⟩

theorem upsertAll_completes (events : List CanonicalEventRecord) (st : InMemoryEventStore) :
    (upsertAll sh io events).Completes st ↔ events = [] ∨ st.persistPath = none := by
  induction events generalizing st with
  | nil => exact iff_of_true ⟨(), ([], st), rfl⟩ (.inl rfl)
  | cons event events ih =>
    simp only [reduceCtorEq, false_or]
    constructor
    · rintro ⟨a, p, h⟩
      by_contra hpath
      obtain ⟨path, hpath⟩ := Option.ne_none_iff_exists'.mp hpath
      obtain ⟨e, he⟩ := upsert_path_blocks sh io event hpath
      have hloop : upsertAll sh io (event :: events) ([], st) = .error e :=
        bind_error (bind_error he)
      rw [hloop] at h
      cases h
    · intro hpath
      obtain ⟨a, p, h⟩ := ih
        { st.upsertData event with dirty := (st.upsertData event).dirty + 1 } |>.mpr (.inr hpath)
      refine ⟨a, p, ?_⟩
      unfold upsertAll at h ⊢
      rw [forM_cons, bind_ok (bind_ok (upsert_no_path sh io event hpath))]
      exact h

/-- **Completion.** An upsert returns exactly when no persist path is set, and a sequence of upserts
when it is empty or no path is set. -/
theorem upsert_completes_iff_no_path (st : InMemoryEventStore) :
    (∀ event, (upsert sh io event).Completes st ↔ st.persistPath = none) ∧
    ∀ events, (upsertAll sh io events).Completes st ↔ events = [] ∨ st.persistPath = none :=
  ⟨fun event => upsert_completes sh io event st, fun events => upsertAll_completes sh io events st⟩

/-- One event into an empty store with a state path. -/
theorem upsert_with_path_blocks :
    let one : {K : Type} → Sharding K := ⟨1, fun _ => 0, fun _ => Nat.one_pos⟩
    let sh : EventStoreShards := ⟨one, fun _ => one, one, fun _ => one⟩
    let io : EventPersistIo := ⟨0, fun _ _ => .ok ()⟩
    let event : CanonicalEventRecord :=
      { (default : CanonicalEventRecord) with eventId := "e1", tenantId := "t", resourceId := "r" }
    ¬ (upsert sh io event).Completes (InMemoryEventStore.new.setPersistPath (some "state.json")) := by
  decide

end EventStoreLocks

end AiManager.Telemetry
