import AiManager.Telemetry.ByResource

/-! # The state of a resource and the order of ingestion

The state of a resource is documented to follow the time in the origin system, not the order in which
the events came in. The list of a resource is sorted by time, and stably: of two events of one moment
the one that came in later is answered. So the order does not matter exactly when no two events share
the latest moment of a resource (`latest_ingest_order_iff`). -/

namespace AiManager.Telemetry

open Lib

namespace InMemoryEventStore

/-- What a store can be that was given these events in this order: at any point the events may have
been exported and imported again, in whatever order, into a new store or on top of the old one. -/
inductive Session : List CanonicalEventRecord → InMemoryEventStore → Prop
  | new : Session [] new
  | upsert {es st} (e : CanonicalEventRecord) : Session es st → Session (es ++ [e]) (st.upsertData e)
  | restart {es st now snap} : Session es st → snap.events.Perm (st.exportSnapshot now).events →
      Session es (InMemoryEventStore.new.importSnapshot snap)
  | reimport {es st now snap} : Session es st → snap.events.Perm (st.exportSnapshot now).events →
      Session es (st.importSnapshot snap)

/-- The answers for every tenant, resource and reader. -/
def SameStates (st st' : InMemoryEventStore) : Prop :=
  ∀ ctx resourceId, st.latestStateForResource ctx resourceId = st'.latestStateForResource ctx resourceId

/-- An event of the resource that the context may see. -/
structure Seen (ctx : QueryContext) (resourceId : String) (e : CanonicalEventRecord) : Prop where
  tenant : e.tenantId = ctx.tenantId
  resource : e.resourceId = resourceId
  visible : visibleEvent ctx e = true

/-- Of what a reader sees of a resource, one event is the latest. -/
def OneLatest (es : List CanonicalEventRecord) : Prop :=
  ∀ ctx resourceId, ∀ a ∈ es, ∀ b ∈ es, Seen ctx resourceId a → Seen ctx resourceId b →
    a.moment = b.moment → (∀ c ∈ es, Seen ctx resourceId c → c.moment ≤ a.moment) → a = b

def DistinctIds (es : List CanonicalEventRecord) : Prop :=
  (es.map CanonicalEventRecord.eventId).Nodup

section Records
variable {es es' : List CanonicalEventRecord} {e x : CanonicalEventRecord} {st : InMemoryEventStore}

theorem DistinctIds.eq_of_eventId (h : DistinctIds es) {a b : CanonicalEventRecord} (ha : a ∈ es)
    (hb : b ∈ es) (hid : a.eventId = b.eventId) : a = b :=
  List.inj_on_of_nodup_map h ha hb hid

/-! ### Records by id -/

theorem getRaw_upserts_mem {tenantId eventId : String}
    (h : (upserts es).getRaw tenantId eventId = some x) :
    x ∈ es ∧ x.tenantId = tenantId ∧ x.eventId = eventId := by
  induction es using List.reverseRecOn with
  | nil => simp [upserts, new, getRaw] at h
  | append_singleton es e ih =>
    rw [upserts_append, getRaw_upsertData] at h
    split_ifs at h with hkey
    · obtain rfl := Option.some.inj h
      obtain ⟨rfl, rfl⟩ := Prod.mk.inj hkey
      exact ⟨by simp, rfl, rfl⟩
    · obtain ⟨hmem, hkeys⟩ := ih h
      exact ⟨List.mem_append_left _ hmem, hkeys⟩

theorem getRaw_upserts_isSome (h : e ∈ es) :
    ∃ x, (upserts es).getRaw e.tenantId e.eventId = some x := by
  induction es using List.reverseRecOn with
  | nil => cases h
  | append_singleton es e' ih =>
    rw [upserts_append, getRaw_upsertData]
    split_ifs with hkey
    · exact ⟨e', rfl⟩
    · rcases List.mem_append.mp h with hold | hnew
      · exact ih hold
      · obtain rfl := List.mem_singleton.mp hnew
        exact absurd rfl hkey

/-- The last version that came in is the one that is answered. -/
theorem getRaw_upserts_last {xs ys : List CanonicalEventRecord} (hlast : ∀ y ∈ ys, y.key ≠ e.key) :
    (upserts (xs ++ e :: ys)).getRaw e.tenantId e.eventId = some e := by
  induction ys using List.reverseRecOn with
  | nil => rw [getRaw_upserts_append, if_pos rfl]
  | append_singleton ys y ih =>
    have hy := hlast y (by simp)
    rw [← List.cons_append, ← List.append_assoc, getRaw_upserts_append, if_neg hy.symm]
    exact ih fun z hz => hlast z (List.mem_append_left _ hz)

theorem exists_last {tenantId eventId : String} (h : (upserts es).getRaw tenantId eventId = some x) :
    ∃ xs ys, es = xs ++ x :: ys ∧ ∀ y ∈ ys, y.key ≠ x.key := by
  induction es using List.reverseRecOn with
  | nil => simp [upserts, new, getRaw] at h
  | append_singleton es e ih =>
    obtain ⟨-, htenant, hid⟩ := getRaw_upserts_mem h
    rw [upserts_append, getRaw_upsertData] at h
    split_ifs at h with hkey
    · obtain rfl := Option.some.inj h
      exact ⟨es, [], rfl, List.forall_mem_nil _⟩
    · obtain ⟨xs, ys, rfl, hlast⟩ := ih h
      refine ⟨xs, ys ++ [e], by simp, ?_⟩
      intro y hy
      rcases List.mem_append.mp hy with hy | hy
      · exact hlast y hy
      · rw [List.mem_singleton.mp hy]
        have hx : x.key = (tenantId, eventId) := Prod.ext htenant hid
        exact fun hex => hkey (hx.symm.trans hex.symm)

theorem mem_allEvents : x ∈ st.allEvents ↔ ∃ tenantId eventId, st.getRaw tenantId eventId = some x := by
  simp only [allEvents, List.mem_flatMap, KMap.mem_values, getRaw, Option.bind_eq_some_iff]
  constructor
  · rintro ⟨events, ⟨tenantId, htenant⟩, eventId, hevent⟩
    exact ⟨tenantId, eventId, events, htenant, hevent⟩
  · rintro ⟨tenantId, eventId, events, htenant, hevent⟩
    exact ⟨events, ⟨tenantId, htenant⟩, eventId, hevent⟩

/-- A store exports the records it was given. -/
theorem mem_allEvents_upserts (hinj : ∀ a ∈ es, ∀ b ∈ es, a.eventId = b.eventId → a = b) :
    x ∈ (upserts es).allEvents ↔ x ∈ es := by
  rw [mem_allEvents]
  constructor
  · rintro ⟨tenantId, eventId, hget⟩
    exact (getRaw_upserts_mem hget).1
  · intro hx
    obtain ⟨y, hget⟩ := getRaw_upserts_isSome hx
    obtain ⟨hy, -, hid⟩ := getRaw_upserts_mem hget
    rw [hinj y hy x hx hid] at hget
    exact ⟨_, _, hget⟩

/-! ### Records by resource -/

theorem mem_listed_upserts (hinj : ∀ a ∈ es, ∀ b ∈ es, a.eventId = b.eventId → a = b)
    (tenantId resourceId : String) : x ∈ (upserts es).listed tenantId resourceId ↔
      x ∈ es ∧ x.tenantId = tenantId ∧ x.resourceId = resourceId := by
  constructor
  · exact (filed_upserts es).mem _ _ x
  · rintro ⟨hx, rfl, rfl⟩
    obtain ⟨y, hy, hid⟩ := (filed_upserts es).stays x hx
    rwa [hinj y ((filed_upserts es).mem _ _ y hy).1 x hx hid] at hy

/-- Stores that were given the same records list the same. -/
theorem listed_perm (hinj : ∀ a ∈ es, ∀ b ∈ es, a.eventId = b.eventId → a = b)
    (hsame : ∀ x, x ∈ es' ↔ x ∈ es) (tenantId resourceId : String) :
    ((upserts es').listed tenantId resourceId).Perm ((upserts es).listed tenantId resourceId) := by
  have hinj' : ∀ a ∈ es', ∀ b ∈ es', a.eventId = b.eventId → a = b := by
    intro a ha b hb
    exact hinj a ((hsame a).mp ha) b ((hsame b).mp hb)
  refine (List.perm_ext_iff_of_nodup ?_ ?_).mpr fun x => ?_
  · exact ((filed_upserts es').once tenantId resourceId).of_map _
  · exact ((filed_upserts es).once tenantId resourceId).of_map _
  · rw [mem_listed_upserts hinj', mem_listed_upserts hinj, hsame]

end Records

/-! ## Sessions -/

section Sessions
variable {es es' : List CanonicalEventRecord} {st : InMemoryEventStore}

theorem importSnapshot_upserts (log : List CanonicalEventRecord) (snap : EventPersistSnapshot) :
    (upserts log).importSnapshot snap = upserts (log ++ snap.events) := by
  unfold importSnapshot upserts
  rw [List.foldl_append]

/-- Whatever happened in between, the store was given these records and no others. -/
theorem Session.log (h : Session es st) (hids : DistinctIds es) :
    ∃ log, st = upserts log ∧ ∀ x, x ∈ log ↔ x ∈ es := by
  induction h with
  | new => exact ⟨[], rfl, fun x => Iff.rfl⟩
  | @upsert es st e _ ih =>
    have hes : DistinctIds es := by
      unfold DistinctIds at hids ⊢
      rw [List.map_append] at hids
      exact (List.nodup_append.mp hids).1
    obtain ⟨log, rfl, hlog⟩ := ih hes
    refine ⟨log ++ [e], upserts_append.symm, fun x => ?_⟩
    rw [List.mem_append, List.mem_append, hlog]
  -- what is exported are the events themselves: with ids of their own none replaces another
  | restart hst hperm ih =>
    obtain ⟨log, rfl, hlog⟩ := ih hids
    refine ⟨_, importSnapshot_upserts [] _, fun x => ?_⟩
    rw [List.nil_append, hperm.mem_iff, ← hlog]
    refine mem_allEvents_upserts ?_
    intro a ha b hb
    exact hids.eq_of_eventId ((hlog a).mp ha) ((hlog b).mp hb)
  | reimport hst hperm ih =>
    obtain ⟨log, rfl, hlog⟩ := ih hids
    refine ⟨_, importSnapshot_upserts log _, fun x => ?_⟩
    rw [List.mem_append, hperm.mem_iff, ← hlog]
    refine or_iff_left_of_imp fun hx => (mem_allEvents_upserts ?_).mp hx
    intro a ha b hb
    exact hids.eq_of_eventId ((hlog a).mp ha) ((hlog b).mp hb)

/-- What is listed and visible is what the reader sees of the resource. -/
theorem mem_visible_listed (hids : DistinctIds es) {ctx : QueryContext} {resourceId : String}
    {x : CanonicalEventRecord} :
    x ∈ ((upserts es).listed ctx.tenantId resourceId).filter (visibleEvent ctx) ↔
      x ∈ es ∧ Seen ctx resourceId x := by
  rw [List.mem_filter, mem_listed_upserts fun a ha b hb => hids.eq_of_eventId ha hb]
  constructor
  · rintro ⟨⟨hx, htenant, hres⟩, hvis⟩
    exact ⟨hx, htenant, hres, hvis⟩
  · rintro ⟨hx, hseen⟩
    exact ⟨⟨hx, hseen.tenant, hseen.resource⟩, hseen.visible⟩

theorem same_states_of_one_latest (hids : DistinctIds es) (hone : OneLatest es)
    (hperm : es'.Perm es) (h : Session es' st) : SameStates st (upserts es) := by
  have hids' : DistinctIds es' := (hperm.map _).nodup_iff.mpr hids
  obtain ⟨log, rfl, hlog⟩ := h.log hids'
  intro ctx resourceId
  have hlisted := listed_perm (fun a ha b hb => hids.eq_of_eventId ha hb)
    (fun x => (hlog x).trans hperm.mem_iff) ctx.tenantId resourceId
  refine (maxByKey_congr (hlisted.filter _).symm ?_).symm
  intro a ha b hb hab hmax
  obtain ⟨hae, hsa⟩ := (mem_visible_listed hids).mp ha
  obtain ⟨hbe, hsb⟩ := (mem_visible_listed hids).mp hb
  refine hone ctx resourceId a hae b hbe hsa hsb hab ?_
  intro c hc hsc
  exact hmax c ((mem_visible_listed hids).mpr ⟨hc, hsc⟩)

/-- Of several latest events the one that came in last is answered. -/
theorem latest_append {e : CanonicalEventRecord} (hids : DistinctIds (es ++ [e]))
    {ctx : QueryContext} {resourceId : String} (he : Seen ctx resourceId e)
    (hmax : ∀ c ∈ es, Seen ctx resourceId c → c.moment ≤ e.moment) :
    (upserts (es ++ [e])).latestStateForResource ctx resourceId = some e := by
  have hsplit := hids
  unfold DistinctIds at hsplit
  rw [List.map_append, List.map_singleton] at hsplit
  obtain ⟨hes, -, hnew⟩ := List.nodup_append.mp hsplit
  have hlist : (upserts (es ++ [e])).listed ctx.tenantId resourceId =
      sortByTimestamp ((upserts es).listed ctx.tenantId resourceId ++ [e]) := by
    rw [upserts_append, listed_upsertData, if_pos ⟨he.tenant.symm, he.resource.symm⟩, placeEvent_eq,
      placeBy_of_notMem]
    intro hmem
    obtain ⟨y, hy, hid⟩ := List.mem_map.mp hmem
    have hyes := ((filed_upserts es).mem _ _ y hy).1
    exact hnew _ (List.mem_map.mpr ⟨y, hyes, rfl⟩) _ (List.mem_singleton_self _) hid
  have hle : ∀ c ∈ ((upserts es).listed ctx.tenantId resourceId).filter (visibleEvent ctx),
      c.moment ≤ e.moment := by
    intro c hc
    obtain ⟨hces, hseen⟩ := (mem_visible_listed hes).mp hc
    exact hmax c hces hseen
  unfold latestStateForResource
  rw [hlist, sortByTimestamp, insertionSort_append_singleton ((filed_upserts es).sorted _ _),
    List.filter_append, List.filter_cons_of_pos he.visible]
  refine maxByKey_eq_some.mpr ⟨_, _, rfl, ?_, ?_⟩
  · intro c hc
    obtain ⟨hc, hvis⟩ := List.mem_filter.mp hc
    exact hle c (List.mem_filter.mpr ⟨List.takeWhile_subset _ hc, hvis⟩)
  · -- what comes behind `e` is later, so the reader does not see it
    intro c hc
    obtain ⟨hc, hvis⟩ := List.mem_filter.mp hc
    have hle' := hle c (List.mem_filter.mpr ⟨List.dropWhile_subset _ hc, hvis⟩)
    have hlater := not_rel_of_mem_dropWhile ((filed_upserts es).sorted _ _) e hc
    have hlt : e.moment < c.moment := Prod.Lex.toLex_lt_toLex.mpr (.inl (not_le.mp hlater))
    exact absurd hle' hlt.not_ge

theorem session_upserts (es : List CanonicalEventRecord) : Session es (upserts es) := by
  induction es using List.reverseRecOn with
  | nil => exact .new
  | append_singleton es e ih =>
    rw [upserts_append]
    exact .upsert e ih

/-- An order that ends with two given events. -/
theorem exists_order_ending {a b : CanonicalEventRecord} (ha : a ∈ es) (hb : b ∈ es) (hne : a ≠ b) :
    ∃ rest, (rest ++ [a] ++ [b]).Perm es := by
  obtain ⟨xs, ys, rfl⟩ := List.append_of_mem ha
  have hb' : b ∈ xs ++ ys := by
    rcases List.mem_append.mp hb with hb | hb
    · exact List.mem_append_left _ hb
    · exact List.mem_append_right _ ((List.mem_cons.mp hb).resolve_left hne.symm)
  obtain ⟨us, vs, hrest⟩ := List.append_of_mem hb'
  refine ⟨us ++ vs, ?_⟩
  have hbs : ((us ++ vs) ++ [b]).Perm (xs ++ ys) := by
    rw [hrest]
    exact (List.perm_append_singleton _ _).trans List.perm_middle.symm
  have hab : (us ++ vs ++ [a] ++ [b]).Perm (a :: (us ++ vs ++ [b])) := by
    rw [List.append_assoc]
    exact List.perm_middle
  exact hab.trans ((hbs.cons a).trans List.perm_middle.symm)

/-- The order may be such that any one of several latest events is answered. -/
theorem latest_of_same_states (hids : DistinctIds es)
    (h : ∀ es' st, es'.Perm es → Session es' st → SameStates st (upserts es))
    {ctx : QueryContext} {resourceId : String} {a b : CanonicalEventRecord} (ha : a ∈ es) (hb : b ∈ es)
    (hne : a ≠ b) (hsb : Seen ctx resourceId b)
    (hmax : ∀ c ∈ es, Seen ctx resourceId c → c.moment ≤ b.moment) :
    (upserts es).latestStateForResource ctx resourceId = some b := by
  obtain ⟨rest, hperm⟩ := exists_order_ending ha hb hne
  rw [← h _ _ hperm (session_upserts _) ctx resourceId]
  refine latest_append ((hperm.map _).nodup_iff.mpr hids) hsb ?_
  intro c hc hsc
  exact hmax c (hperm.mem_iff.mp (List.mem_append_left _ hc)) hsc

theorem one_latest_of_same_states (hids : DistinctIds es)
    (h : ∀ es' st, es'.Perm es → Session es' st → SameStates st (upserts es)) : OneLatest es := by
  intro ctx resourceId a ha b hb hsa hsb hab hmax
  by_contra hne
  have hanswer_b := latest_of_same_states hids h ha hb hne hsb fun c hc hsc => hab ▸ hmax c hc hsc
  have hanswer_a := latest_of_same_states hids h hb ha (Ne.symm hne) hsa hmax
  rw [hanswer_b] at hanswer_a
  exact hne (Option.some.inj hanswer_a).symm

end Sessions

/-- **The order of ingestion, restarts included, makes no difference exactly when no two events share
the latest moment that somebody sees of a resource.** -/
theorem latest_ingest_order_iff (es : List CanonicalEventRecord) (hids : DistinctIds es) :
    (∀ es' st, es'.Perm es → Session es' st → SameStates st (upserts es)) ↔ OneLatest es :=
  ⟨one_latest_of_same_states hids,
    fun hone _ _ hperm hsession => same_states_of_one_latest hids hone hperm hsession⟩

/-- Two events of one millisecond, with the sequence number that it gives both of them. -/
def openedAndClosed : List CanonicalEventRecord :=
  let opened : CanonicalEventRecord :=
    { (default : CanonicalEventRecord) with
      tenantId := "t", eventId := "opened", resourceId := "pr", eventType := "pull_request.opened",
      eventTimestamp := 1784160000000000000, eventSequenceNumber := 1784160000000 }
  [opened, { opened with eventId := "closed", eventType := "pull_request.closed" }]

theorem latest_ingest_order_iff_opened_and_closed :
    (∀ es' st, es'.Perm openedAndClosed → Session es' st →
      SameStates st (upserts openedAndClosed)) ↔ OneLatest openedAndClosed :=
  latest_ingest_order_iff openedAndClosed (by simp [DistinctIds, openedAndClosed])

theorem same_moment_follows_ingest_order :
    ¬ ∀ es' st, es'.Perm openedAndClosed → Session es' st →
      SameStates st (upserts openedAndClosed) := by
  intro h
  have hanswer := h _ _ (List.Perm.swap _ _ []) (session_upserts _) { tenantId := "t" } "pr"
  have htype := congrArg (Option.map CanonicalEventRecord.eventType) hanswer
  exact absurd htype (by decide +kernel)

end InMemoryEventStore

end AiManager.Telemetry
