import AiManager.Lib.Place
import AiManager.Lib.Run
import AiManager.Lib.Sorting
import AiManager.Telemetry.Acl
import AiManager.Telemetry.Upsert

/-! # Events by resource

The store holds a record by its id and once more in the list of its resource, and the state of a
resource is read from that list. An upsert replaces the record in the list of the resource that the
new version names; it does not look for it elsewhere. So the lists hold what the ids hold as long as
no event changes its resource, and only then (`coherent_iff_resource_kept`). -/

namespace AiManager.Telemetry

open Lib

/-- When an event happened, and its place among those of one time. -/
def CanonicalEventRecord.moment (e : CanonicalEventRecord) : DateTime ×ₗ ℕ :=
  toLex (e.eventTimestamp, e.eventSequenceNumber)

def visibleEvent (ctx : QueryContext) (e : CanonicalEventRecord) : Bool :=
  aclAllows ctx e.acl.isPrivate e.acl.allowedGroupIds

namespace InMemoryEventStore

/-- The list of a resource. -/
def listed (st : InMemoryEventStore) (tenantId resourceId : String) : List CanonicalEventRecord :=
  ((st.byResource.get tenantId).bind fun resources => resources.get resourceId).getD []

/-- The last event by origin time among those the context may see. -/
def latestStateForResource (st : InMemoryEventStore) (ctx : QueryContext) (resourceId : String) :
    Option CanonicalEventRecord :=
  maxByKey CanonicalEventRecord.moment ((st.listed ctx.tenantId resourceId).filter (visibleEvent ctx))

/-! ## Snapshots -/

/-- All records, tenant after tenant. -/
def allEvents (st : InMemoryEventStore) : List CanonicalEventRecord :=
  st.byId.values.flatMap KMap.values

def exportSnapshot (st : InMemoryEventStore) (now : DateTime) : EventPersistSnapshot :=
  { version := 1, savedAt := some now.toRfc3339, events := st.allEvents }

/-- Every event is upserted, without a persist. -/
def importSnapshot (st : InMemoryEventStore) (snap : EventPersistSnapshot) : InMemoryEventStore :=
  snap.events.foldl upsertData st

inductive Operation where
  | upsert (event : CanonicalEventRecord)
  | exportSnapshot (now : DateTime)
  | importSnapshot (snap : EventPersistSnapshot)

def operate (st : InMemoryEventStore) : Operation → InMemoryEventStore
  | .upsert event => st.upsertData event
  | .exportSnapshot _ => st
  | .importSnapshot snap => st.importSnapshot snap

/-- The records an operation writes. -/
def Operation.written : Operation → List CanonicalEventRecord
  | .upsert event => [event]
  | .exportSnapshot _ => []
  | .importSnapshot snap => snap.events

/-- A run does what upserting its records one after the other does. -/
theorem run_eq_upserts (ops : List Operation) :
    runFrom operate new ops = upserts (ops.flatMap Operation.written) := by
  have hfold : ∀ st : InMemoryEventStore,
      runFrom operate st ops = (ops.flatMap Operation.written).foldl upsertData st := by
    induction ops with
    | nil => intro st; rfl
    | cons op ops ih =>
      intro st
      rw [List.flatMap_cons, List.foldl_append]
      cases op with
      | upsert event => exact ih _
      | exportSnapshot now => exact ih _
      | importSnapshot snap => exact ih _
  exact hfold new

/-! ## Coherence -/

/-- The lists of the resources are the records by id, grouped. -/
structure Coherent (st : InMemoryEventStore) : Prop where
  exact : ∀ tenantId resourceId e, e ∈ st.listed tenantId resourceId ↔
    st.getRaw tenantId e.eventId = some e ∧ e.tenantId = tenantId ∧ e.resourceId = resourceId
  once : ∀ tenantId resourceId,
    ((st.listed tenantId resourceId).map CanonicalEventRecord.eventId).Nodup

/-- No answer is a version that was replaced. -/
def AnswersCurrent (st : InMemoryEventStore) : Prop :=
  ∀ ctx resourceId e, st.latestStateForResource ctx resourceId = some e →
    st.getRaw e.tenantId e.eventId = some e

/-- All versions of an event name one resource. -/
def ResourceKept (events : List CanonicalEventRecord) : Prop :=
  ∀ a ∈ events, ∀ b ∈ events, a.key = b.key → a.resourceId = b.resourceId

section Lists
variable {st : InMemoryEventStore} {e x : CanonicalEventRecord} {es : List CanonicalEventRecord}

theorem placeEvent_eq (es : List CanonicalEventRecord) :
    placeEvent e es = placeBy CanonicalEventRecord.eventId e es := by
  induction es with
  | nil => rfl
  | cons y ys ih =>
    show (if y.eventId = e.eventId then e :: ys else y :: placeEvent e ys) = _
    rw [ih]
    rfl

/-- An upsert writes one list. -/
theorem listed_upsertData (tenantId resourceId : String) :
    (st.upsertData e).listed tenantId resourceId =
      if tenantId = e.tenantId ∧ resourceId = e.resourceId then
        sortByTimestamp (placeEvent e (st.listed tenantId resourceId))
      else st.listed tenantId resourceId := by
  show ((st.byResource.put e.tenantId (((st.byResource.get e.tenantId).getD ∅).put e.resourceId
    (sortByTimestamp (placeEvent e ((((st.byResource.get e.tenantId).getD ∅).get
      e.resourceId).getD []))))).get tenantId |>.bind fun resources =>
        resources.get resourceId).getD [] = _
  rw [KMap.get_put]
  by_cases htenant : tenantId = e.tenantId
  · subst htenant
    simp only [if_true, Option.bind_some, KMap.get_put, true_and]
    unfold listed
    cases st.byResource.get e.tenantId with
    | none => split_ifs <;> simp_all
    | some resources => split_ifs <;> simp_all
  · rw [if_neg htenant, if_neg fun h => htenant h.1]
    rfl

theorem mem_sortByTimestamp : x ∈ sortByTimestamp es ↔ x ∈ es :=
  List.mem_insertionSort _

theorem map_sortByTimestamp_nodup :
    ((sortByTimestamp es).map CanonicalEventRecord.eventId).Nodup ↔
      (es.map CanonicalEventRecord.eventId).Nodup :=
  ((List.perm_insertionSort _ es).map _).nodup_iff

/-- What the lists of a run of upserts hold, whatever the events are. -/
structure Filed (es : List CanonicalEventRecord) : Prop where
  mem : ∀ tenantId resourceId x, x ∈ (upserts es).listed tenantId resourceId →
    x ∈ es ∧ x.tenantId = tenantId ∧ x.resourceId = resourceId
  once : ∀ tenantId resourceId,
    (((upserts es).listed tenantId resourceId).map CanonicalEventRecord.eventId).Nodup
  sorted : ∀ tenantId resourceId,
    ((upserts es).listed tenantId resourceId).Pairwise fun a b => a.eventTimestamp ≤ b.eventTimestamp
  /-- an event stays where a version of it was filed -/
  stays : ∀ e ∈ es, ∃ x ∈ (upserts es).listed e.tenantId e.resourceId, x.eventId = e.eventId

theorem mem_listed_upsertData (hfiled : ((st.listed e.tenantId e.resourceId).map
    CanonicalEventRecord.eventId).Nodup) :
    x ∈ (st.upsertData e).listed e.tenantId e.resourceId ↔
      x = e ∨ (x ∈ st.listed e.tenantId e.resourceId ∧ x.eventId ≠ e.eventId) := by
  rw [listed_upsertData, if_pos ⟨rfl, rfl⟩, mem_sortByTimestamp, placeEvent_eq]
  exact mem_placeBy hfiled

theorem self_mem_listed_upsertData (st : InMemoryEventStore) (e : CanonicalEventRecord) :
    e ∈ (st.upsertData e).listed e.tenantId e.resourceId := by
  rw [listed_upsertData, if_pos ⟨rfl, rfl⟩, mem_sortByTimestamp, placeEvent_eq]
  exact self_mem_placeBy

theorem pairwise_sortByTimestamp :
    (sortByTimestamp es).Pairwise fun a b => a.eventTimestamp ≤ b.eventTimestamp :=
  List.pairwise_insertionSort _ _

theorem filed_append (h : Filed es) (e : CanonicalEventRecord) : Filed (es ++ [e]) := by
  refine ⟨?_, ?_, ?_, ?_⟩
  · intro tenantId resourceId x hx
    rw [upserts_append] at hx
    -- only the list of the new event's own resource is touched
    by_cases hlist : tenantId = e.tenantId ∧ resourceId = e.resourceId
    · obtain ⟨rfl, rfl⟩ := hlist
      rcases (mem_listed_upsertData (h.once _ _)).mp hx with rfl | ⟨hold, -⟩
      · exact ⟨by simp, rfl, rfl⟩
      · obtain ⟨hes, hkeys⟩ := h.mem _ _ x hold
        exact ⟨List.mem_append_left _ hes, hkeys⟩
    · rw [listed_upsertData, if_neg hlist] at hx
      obtain ⟨hes, hkeys⟩ := h.mem _ _ x hx
      exact ⟨List.mem_append_left _ hes, hkeys⟩
  · intro tenantId resourceId
    rw [upserts_append, listed_upsertData]
    split_ifs
    · rw [map_sortByTimestamp_nodup, placeEvent_eq]
      exact nodup_placeBy (h.once _ _)
    · exact h.once _ _
  · intro tenantId resourceId
    rw [upserts_append, listed_upsertData]
    split_ifs
    · exact pairwise_sortByTimestamp
    · exact h.sorted _ _
  · intro a ha
    rw [upserts_append]
    by_cases hlist : a.tenantId = e.tenantId ∧ a.resourceId = e.resourceId
    · rw [hlist.1, hlist.2]
      by_cases hid : a.eventId = e.eventId
      · exact ⟨e, (mem_listed_upsertData (h.once _ _)).mpr (.inl rfl), hid.symm⟩
      · have hes : a ∈ es := by
          rcases List.mem_append.mp ha with hold | hnew
          · exact hold
          · exact absurd (congrArg _ (List.mem_singleton.mp hnew)) hid
        obtain ⟨x, hx, hxa⟩ := h.stays a hes
        rw [hlist.1, hlist.2] at hx
        refine ⟨x, (mem_listed_upsertData (h.once _ _)).mpr (.inr ⟨hx, ?_⟩), hxa⟩
        rw [hxa]
        exact hid
    · rw [listed_upsertData, if_neg hlist]
      refine h.stays a ?_
      rcases List.mem_append.mp ha with hold | hnew
      · exact hold
      · obtain rfl := List.mem_singleton.mp hnew
        exact absurd ⟨rfl, rfl⟩ hlist

theorem filed_upserts (es : List CanonicalEventRecord) : Filed es := by
  induction es using List.reverseRecOn with
  | nil =>
    have hempty : ∀ tenantId resourceId, (upserts []).listed tenantId resourceId = [] := by
      simp [upserts, new, listed]
    exact ⟨by simp [hempty], by simp [hempty], by simp [hempty], by simp⟩
  | append_singleton es e ih => exact filed_append ih e

end Lists

section Coherence
variable {es : List CanonicalEventRecord}

/-- An upsert of a version that names the resource of the others keeps the maps coherent. -/
theorem coherent_append {e : CanonicalEventRecord} (h : Coherent (upserts es))
    (hkept : ∀ a ∈ es, a.key = e.key → a.resourceId = e.resourceId) :
    Coherent (upserts (es ++ [e])) := by
  refine ⟨?_, (filed_upserts (es ++ [e])).once⟩
  intro tenantId resourceId x
  rw [upserts_append, getRaw_upsertData]
  by_cases hlist : tenantId = e.tenantId ∧ resourceId = e.resourceId
  · obtain ⟨rfl, rfl⟩ := hlist
    rw [mem_listed_upsertData (h.once _ _), h.exact]
    by_cases hid : x.eventId = e.eventId
    · rw [if_pos (by rw [hid]; rfl), Option.some.injEq]
      constructor
      · rintro (rfl | ⟨-, hne⟩)
        · exact ⟨rfl, rfl, rfl⟩
        · exact absurd hid hne
      · rintro ⟨rfl, -⟩
        exact .inl rfl
    · have hkey : ¬ (e.tenantId, x.eventId) = e.key := fun hk => hid (Prod.mk.inj hk).2
      rw [if_neg hkey]
      constructor
      · rintro (rfl | ⟨hx, -⟩)
        · exact absurd rfl hid
        · exact hx
      · intro hx
        exact .inr ⟨hx, hid⟩
  · rw [listed_upsertData, if_neg hlist, h.exact]
    by_cases hkey : (tenantId, x.eventId) = e.key
    · -- the event is filed under its own resource, so not here
      obtain ⟨rfl, hid⟩ := Prod.mk.inj hkey
      rw [if_pos hkey, Option.some.injEq]
      constructor
      · intro hx
        obtain ⟨hes, htenant, hres⟩ := (filed_upserts es).mem _ _ x ((h.exact _ _ x).mpr hx)
        have hsame := hkept x hes (Prod.ext htenant hid)
        exact absurd ⟨rfl, hres.symm.trans hsame⟩ hlist
      · rintro ⟨rfl, -, hres⟩
        exact absurd ⟨rfl, hres.symm⟩ hlist
    · rw [if_neg hkey]

theorem coherent_of_resource_kept (h : ResourceKept es) : Coherent (upserts es) := by
  induction es using List.reverseRecOn with
  | nil =>
    refine ⟨?_, (filed_upserts []).once⟩
    intro tenantId resourceId x
    simp [upserts, new, listed, getRaw]
  | append_singleton es e ih =>
    refine coherent_append (ih ?_) ?_
    · intro a ha b hb
      exact h a (List.mem_append_left _ ha) b (List.mem_append_left _ hb)
    · intro a ha
      exact h a (List.mem_append_left _ ha) e (by simp)

/-- An event in two lists would have to be its current version in both. -/
theorem resource_kept_of_coherent (h : Coherent (upserts es)) : ResourceKept es := by
  intro a ha b hb hkey
  obtain ⟨htenant, hid⟩ := Prod.mk.inj hkey
  obtain ⟨x, hx, hxa⟩ := (filed_upserts es).stays a ha
  obtain ⟨y, hy, hyb⟩ := (filed_upserts es).stays b hb
  obtain ⟨hgetx, -, hresx⟩ := (h.exact _ _ x).mp hx
  obtain ⟨hgety, -, hresy⟩ := (h.exact _ _ y).mp hy
  rw [hyb, ← htenant, ← hid, ← hxa, hgetx] at hgety
  obtain rfl := Option.some.inj hgety
  exact hresx.symm.trans hresy

theorem answersCurrent_of_coherent {st : InMemoryEventStore} (h : Coherent st) :
    AnswersCurrent st := by
  intro ctx resourceId e he
  have hmem := (List.mem_filter.mp (mem_of_maxByKey he)).1
  obtain ⟨hget, htenant, -⟩ := (h.exact _ _ e).mp hmem
  rw [htenant]
  exact hget

end Coherence

/-- **The two maps agree, and no answer is out of date, exactly when no event changes its resource.** -/
theorem coherent_iff_resource_kept (ops : List Operation) :
    (Coherent (runFrom operate new ops) ∧ AnswersCurrent (runFrom operate new ops)) ↔
      ResourceKept (ops.flatMap Operation.written) := by
  rw [run_eq_upserts]
  constructor
  · intro h
    exact resource_kept_of_coherent h.1
  · intro h
    have hcoherent := coherent_of_resource_kept h
    exact ⟨hcoherent, answersCurrent_of_coherent hcoherent⟩

/-- An event that moved is still answered for its old resource, in its old version. -/
theorem moved_event_is_answered :
    let here : CanonicalEventRecord :=
      { (default : CanonicalEventRecord) with tenantId := "t", eventId := "e", resourceId := "a" }
    let there : CanonicalEventRecord := { here with resourceId := "b", eventSequenceNumber := 1 }
    ¬ (Coherent (runFrom operate new [.upsert here, .upsert there]) ∧
      AnswersCurrent (runFrom operate new [.upsert here, .upsert there])) := by
  intro here there h
  have hanswer := h.2 { tenantId := "t" } "a" here rfl
  have hcurrent : (runFrom operate new [.upsert here, .upsert there]).getRaw "t" "e" = some there := rfl
  rw [show here.tenantId = "t" from rfl, show here.eventId = "e" from rfl, hcurrent] at hanswer
  have hres := congrArg (Option.map CanonicalEventRecord.resourceId) hanswer
  exact absurd hres (by decide)

end InMemoryEventStore

end AiManager.Telemetry
