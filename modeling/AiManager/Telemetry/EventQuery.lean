import AiManager.Lib.OrderLimit
import AiManager.Telemetry.LatestState
import Mathlib.Data.Set.Card

/-! # Reading the event store

A query filters the records of a tenant by what the reader may see and by the filters that are given,
puts the newest first and cuts off. It answers exactly the matches, and what the reader may not see
leaves no trace in it. The state of a resource is read from the other map; there the copy of an event
that has moved to another resource can be answered, unless a current event outranks it
(`read_law_iff`). -/

namespace AiManager.Telemetry

open Lib

namespace InMemoryEventStore

/-- The filters of a query, as they are tried one after the other. -/
def selects (ctx : QueryContext) (filter : EventQuery) (e : CanonicalEventRecord) : Bool :=
  if !visibleEvent ctx e then false
  else if !filter.categories.isEmpty && !(filter.categories.any fun c => c = e.category)
      -- compare via the labels for safety
      && !(filter.categories.map EventCategory.clickhouseLabel).contains e.category.clickhouseLabel then
    false
  else if !filter.providers.isEmpty
      && !(filter.providers.map SourceProvider.clickhouseLabel).contains e.provider.clickhouseLabel then
    false
  else if filter.resourceId.any fun rid => e.resourceId ≠ rid then false
  else if filter.parentResourceId.any fun prid => e.parentResourceId ≠ prid then false
  else if filter.eventType.any fun et => e.eventType ≠ et then false
  else if filter.since.any fun since => e.eventTimestamp < since then false
  else if filter.until.any fun bound => e.eventTimestamp > bound then false
  else true

/-- Newest first. -/
def newerFirst (a b : CanonicalEventRecord) : Prop := b.eventTimestamp ≤ a.eventTimestamp

instance : DecidableRel newerFirst := fun a b =>
  inferInstanceAs (Decidable ((b.eventTimestamp : Int) ≤ a.eventTimestamp))

instance : Std.Total newerFirst := ⟨fun a b => Int.le_total b.eventTimestamp a.eventTimestamp⟩

instance : IsTrans CanonicalEventRecord newerFirst := ⟨fun _ _ _ hab hbc => Int.le_trans hbc hab⟩

def query (st : InMemoryEventStore) (ctx : QueryContext) (filter : EventQuery) :
    CoreResult (List CanonicalEventRecord) :=
  if ctx.tenantId ≠ filter.tenantId then
    .error (.aclDenied "query tenant_id does not match context")
  else
    match st.byId.get filter.tenantId with
    | none => .ok []
    | some events =>
      let results := events.values.filter (selects ctx filter)
      .ok ((results.insertionSort newerFirst).take (max filter.limit 1))

/-! ## What a query is to answer -/

/-- The store has this record as an event of the tenant. -/
def Holds (st : InMemoryEventStore) (tenantId : String) (e : CanonicalEventRecord) : Prop :=
  ∃ eventId, st.getRaw tenantId eventId = some e

/-- A stored event that the reader may see and that meets every filter that is given. A category or a
provider is met by its label, the name it is stored under. -/
structure Match (st : InMemoryEventStore) (ctx : QueryContext) (filter : EventQuery)
    (e : CanonicalEventRecord) : Prop where
  stored : st.Holds filter.tenantId e
  visible : visibleEvent ctx e = true
  category : filter.categories = [] ∨
    ∃ c ∈ filter.categories, c.clickhouseLabel = e.category.clickhouseLabel
  provider : filter.providers = [] ∨
    ∃ p ∈ filter.providers, p.clickhouseLabel = e.provider.clickhouseLabel
  resource : ∀ rid ∈ filter.resourceId, e.resourceId = rid
  parent : ∀ prid ∈ filter.parentResourceId, e.parentResourceId = prid
  type : ∀ et ∈ filter.eventType, e.eventType = et
  notBefore : ∀ since ∈ filter.since, since ≤ e.eventTimestamp
  notAfter : ∀ bound ∈ filter.until, e.eventTimestamp ≤ bound

/-- The answer is the newest of the matches, each once. -/
structure Exact (st : InMemoryEventStore) (ctx : QueryContext) (filter : EventQuery)
    (answer : List CanonicalEventRecord) : Prop where
  count : answer.length = min (max filter.limit 1) {e | Match st ctx filter e}.ncard
  distinct : (answer.map CanonicalEventRecord.eventId).Nodup
  sound : ∀ e ∈ answer, Match st ctx filter e
  newestFirst : answer.Pairwise fun a b => b.eventTimestamp ≤ a.eventTimestamp
  nothingNewer : ∀ e, Match st ctx filter e → e ∉ answer →
    ∀ a ∈ answer, e.eventTimestamp ≤ a.eventTimestamp

/-- Two answers show the same times, and where one has an event that the other has not, it is tied
with the oldest of the other. -/
structure UpToTies (answer answer' : List CanonicalEventRecord) : Prop where
  times : answer.map CanonicalEventRecord.eventTimestamp =
    answer'.map CanonicalEventRecord.eventTimestamp
  left : ∀ e ∈ answer, e ∈ answer' ∨ ∀ x ∈ answer', e.eventTimestamp ≤ x.eventTimestamp
  right : ∀ e ∈ answer', e ∈ answer ∨ ∀ x ∈ answer, e.eventTimestamp ≤ x.eventTimestamp

/-- What a reader may see of a store. -/
def visibleEvents (st : InMemoryEventStore) (ctx : QueryContext) : Set CanonicalEventRecord :=
  {e | st.Holds ctx.tenantId e ∧ visibleEvent ctx e = true}

/-- A newest event of a set, or nothing where the set is empty. -/
def NewestOf (events : Set CanonicalEventRecord) : Option CanonicalEventRecord → Prop
  | none => events = ∅
  | some e => e ∈ events ∧ ∀ x ∈ events, x.eventTimestamp ≤ e.eventTimestamp

/-- The states of a resource that the reader is told are up to date: they depend on nothing but what
the reader may see, and two of them differ by a tie at most. -/
def StatesOfVisible (st : InMemoryEventStore) (ctx : QueryContext) : Prop :=
  ∀ resourceId, NewestOf {e ∈ st.visibleEvents ctx | e.resourceId = resourceId}
    (st.latestStateForResource ctx resourceId)

/-- **The law of reading**: queries are exact, and of two stores that show the reader the same, queries
and states are the same up to ties. -/
structure ReadLaw (st st' : InMemoryEventStore) (ctx : QueryContext) : Prop where
  denied : ∀ filter, (∃ err, st.query ctx filter = .error err) ↔ ctx.tenantId ≠ filter.tenantId
  exact : ∀ filter answer, st.query ctx filter = .ok answer → Exact st ctx filter answer
  queries : st.visibleEvents ctx = st'.visibleEvents ctx → ∀ filter answer answer',
    st.query ctx filter = .ok answer → st'.query ctx filter = .ok answer' → UpToTies answer answer'
  states : st.visibleEvents ctx = st'.visibleEvents ctx →
    st.StatesOfVisible ctx ∧ st'.StatesOfVisible ctx

/-- Whoever sees a copy that is out of date also sees a current event of the resource that goes before
it: a later one, or one of the same moment further down the list. -/
def CopiesOutranked (st : InMemoryEventStore) (ctx : QueryContext) : Prop :=
  ∀ resourceId xs copy ys, st.listed ctx.tenantId resourceId = xs ++ copy :: ys →
    visibleEvent ctx copy = true → ¬ st.Holds ctx.tenantId copy →
    (∃ e ∈ xs, st.Holds ctx.tenantId e ∧ visibleEvent ctx e = true ∧ copy.moment < e.moment) ∨
    ∃ e ∈ ys, st.Holds ctx.tenantId e ∧ visibleEvent ctx e = true ∧ copy.moment ≤ e.moment

/-! ## Queries -/

section Query
variable {st st' : InMemoryEventStore} {ctx : QueryContext} {filter : EventQuery}
  {es : List CanonicalEventRecord} {e : CanonicalEventRecord}

/-- The records of a tenant. -/
def tenantEvents (st : InMemoryEventStore) (tenantId : String) : List CanonicalEventRecord :=
  ((st.byId.get tenantId).getD ∅).values

theorem mem_tenantEvents {tenantId : String} : e ∈ st.tenantEvents tenantId ↔ st.Holds tenantId e := by
  unfold tenantEvents Holds getRaw
  rw [KMap.mem_values]
  cases st.byId.get tenantId <;> simp

theorem tenantEvents_nodup (es : List CanonicalEventRecord) (tenantId : String) :
    (((upserts es).tenantEvents tenantId).map CanonicalEventRecord.eventId).Nodup := by
  refine KMap.values_map_nodup fun eventId x hx => ?_
  have hget : (upserts es).getRaw tenantId eventId = some x := by
    unfold getRaw
    cases htenant : (upserts es).byId.get tenantId with
    | none =>
      rw [htenant] at hx
      simp at hx
    | some events =>
      rw [htenant] at hx
      exact hx
  exact (getRaw_upserts_mem hget).2.2

/-- The records that a query cuts its answer from. -/
def results (st : InMemoryEventStore) (ctx : QueryContext) (filter : EventQuery) :
    List CanonicalEventRecord :=
  (st.tenantEvents filter.tenantId).filter (selects ctx filter)

theorem query_denied (h : ctx.tenantId ≠ filter.tenantId) :
    st.query ctx filter = .error (.aclDenied "query tenant_id does not match context") := by
  unfold query
  rw [if_pos h]

theorem query_ok (h : ctx.tenantId = filter.tenantId) : st.query ctx filter =
    .ok (((results st ctx filter).insertionSort newerFirst).take (max filter.limit 1)) := by
  unfold query results tenantEvents
  rw [if_neg (not_not.mpr h)]
  cases st.byId.get filter.tenantId with
  | none =>
    have hempty : (∅ : KMap String CanonicalEventRecord).values = [] := rfl
    simp [hempty]
  | some events => rfl

theorem query_orderLimit {answer : List CanonicalEventRecord} (h : st.query ctx filter = .ok answer) :
    ctx.tenantId = filter.tenantId ∧
      OrderLimit newerFirst (max filter.limit 1) (results st ctx filter) answer := by
  have htenant : ctx.tenantId = filter.tenantId := by
    by_contra hne
    rw [query_denied hne] at h
    cases h
  rw [query_ok htenant] at h
  cases h
  exact ⟨htenant, OrderLimit.insertionSort _ _⟩

theorem any_eq_false {α : Type} {p : α → Bool} {o : Option α} :
    o.any p = false ↔ ∀ a ∈ o, p a = false := by
  cases o <;> simp

theorem label_filter_iff {α : Type} {label : α → String} {wanted : List α} {a : α} :
    (!wanted.isEmpty && !(wanted.map label).contains (label a)) = false ↔
      wanted = [] ∨ ∃ c ∈ wanted, label c = label a := by
  cases wanted with
  | nil => simp
  | cons w ws =>
    have hcomm : label a = label w ↔ label w = label a := eq_comm
    simp only [List.isEmpty_cons, Bool.not_false, Bool.true_and, Bool.not_eq_false',
      List.contains_iff_mem, List.map_cons, List.mem_cons, List.mem_map, reduceCtorEq, false_or,
      exists_eq_or_imp, hcomm]

/-- The comparison of the values themselves adds nothing to the one of their labels. -/
theorem double_label_filter_iff {α : Type} [DecidableEq α] {label : α → String} {wanted : List α}
    {a : α} : (!wanted.isEmpty && !(wanted.any fun c => c = a)
        && !(wanted.map label).contains (label a)) = false ↔
      wanted = [] ∨ ∃ c ∈ wanted, label c = label a := by
  cases hany : wanted.any fun c => c = a with
  | false =>
    rw [Bool.not_false, Bool.and_true]
    exact label_filter_iff
  | true =>
    obtain ⟨c, hc, hca⟩ := List.any_eq_true.mp hany
    rw [Bool.not_true, Bool.and_false, Bool.false_and]
    exact iff_of_true rfl (.inr ⟨c, hc, congrArg label (of_decide_eq_true hca)⟩)

theorem selects_iff : selects ctx filter e = true ↔
    visibleEvent ctx e = true ∧
    (filter.categories = [] ∨
      ∃ c ∈ filter.categories, c.clickhouseLabel = e.category.clickhouseLabel) ∧
    (filter.providers = [] ∨
      ∃ p ∈ filter.providers, p.clickhouseLabel = e.provider.clickhouseLabel) ∧
    (∀ rid ∈ filter.resourceId, e.resourceId = rid) ∧
    (∀ prid ∈ filter.parentResourceId, e.parentResourceId = prid) ∧
    (∀ et ∈ filter.eventType, e.eventType = et) ∧
    (∀ since ∈ filter.since, since ≤ e.eventTimestamp) ∧
    ∀ bound ∈ filter.until, e.eventTimestamp ≤ bound := by
  have hstep : ∀ {c r : Bool}, (if c = true then false else r) = true ↔ c = false ∧ r = true := by
    intro c r
    cases c <;> simp
  unfold selects
  simp only [hstep, double_label_filter_iff, label_filter_iff, any_eq_false, Bool.not_eq_false',
    decide_eq_false_iff_not, ne_eq, not_not, not_lt, gt_iff_lt, and_true]

theorem mem_results : e ∈ results st ctx filter ↔ Match st ctx filter e := by
  unfold results
  rw [List.mem_filter, mem_tenantEvents, selects_iff]
  constructor
  · rintro ⟨hst, hvis, hcat, hprov, hres, hpar, htype, hsince, huntil⟩
    exact ⟨hst, hvis, hcat, hprov, hres, hpar, htype, hsince, huntil⟩
  · intro h
    exact ⟨h.stored, h.visible, h.category, h.provider, h.resource, h.parent, h.type, h.notBefore,
      h.notAfter⟩

theorem results_nodup (es : List CanonicalEventRecord) :
    ((results (upserts es) ctx filter).map CanonicalEventRecord.eventId).Nodup :=
  (tenantEvents_nodup es filter.tenantId).sublist (List.filter_sublist.map _)

theorem query_exact {answer : List CanonicalEventRecord}
    (h : (upserts es).query ctx filter = .ok answer) : Exact (upserts es) ctx filter answer := by
  obtain ⟨-, hlimit⟩ := query_orderLimit h
  refine ⟨?_, hlimit.nodup_map (results_nodup es), ?_, hlimit.pairwise, ?_⟩
  · have hcount : {e | Match (upserts es) ctx filter e}.ncard =
        (results (upserts es) ctx filter).length := by
      classical
      have hset : {e | Match (upserts es) ctx filter e} =
          ((results (upserts es) ctx filter).toFinset : Set CanonicalEventRecord) := by
        ext e
        simp [mem_results]
      rw [hset, Set.ncard_coe_finset, List.toFinset_card_of_nodup]
      exact (results_nodup es).of_map _
    rw [hcount]
    exact hlimit.length
  · intro e he
    exact mem_results.mp (hlimit.subset he)
  · intro e he hout a ha
    exact hlimit.left_out ha (mem_results.mpr he) hout

/-- What the reader may not see makes no difference to the matches. -/
theorem results_perm {es' : List CanonicalEventRecord} (htenant : ctx.tenantId = filter.tenantId)
    (h : (upserts es).visibleEvents ctx = (upserts es').visibleEvents ctx) :
    (results (upserts es) ctx filter).Perm (results (upserts es') ctx filter) := by
  refine (List.perm_ext_iff_of_nodup ((results_nodup es).of_map _)
    ((results_nodup es').of_map _)).mpr fun e => ?_
  have hvisible : ∀ e, visibleEvent ctx e = true →
      ((upserts es).Holds ctx.tenantId e ↔ (upserts es').Holds ctx.tenantId e) := by
    intro e he
    have hmem : e ∈ (upserts es).visibleEvents ctx ↔ e ∈ (upserts es').visibleEvents ctx := by rw [h]
    constructor
    · intro hst
      exact (hmem.mp ⟨hst, he⟩).1
    · intro hst
      exact (hmem.mpr ⟨hst, he⟩).1
  unfold results
  rw [List.mem_filter, List.mem_filter, mem_tenantEvents, mem_tenantEvents, ← htenant]
  refine and_congr_left fun hsel => hvisible e ?_
  exact (selects_iff.mp hsel).1

theorem queries_upToTies {es' : List CanonicalEventRecord}
    (hsame : (upserts es).visibleEvents ctx = (upserts es').visibleEvents ctx)
    {answer answer' : List CanonicalEventRecord} (h : (upserts es).query ctx filter = .ok answer)
    (h' : (upserts es').query ctx filter = .ok answer') : UpToTies answer answer' := by
  obtain ⟨htenant, hlimit⟩ := query_orderLimit h
  have hlimit' := (query_orderLimit h').2.congr_rows (results_perm htenant hsame).symm
  refine ⟨?_, ?_, ?_⟩
  · exact hlimit.map_eq (fun a b hab => hab) hlimit'
  · intro e he
    exact hlimit.tied hlimit' he
  · intro e he
    exact hlimit'.tied hlimit he

end Query

/-! ## States of resources -/

section States
variable {es : List CanonicalEventRecord} {ctx : QueryContext} {resourceId : String}
  {e : CanonicalEventRecord}

/-- The current version of an event is in the list of its resource. -/
theorem current_mem_listed {tenantId eventId : String}
    (h : (upserts es).getRaw tenantId eventId = some e) :
    e ∈ (upserts es).listed tenantId e.resourceId := by
  induction es using List.reverseRecOn with
  | nil => simp [upserts, new, getRaw] at h
  | append_singleton es a ih =>
    obtain ⟨-, htenant, hid⟩ := getRaw_upserts_mem h
    rw [upserts_append, getRaw_upsertData] at h
    rw [upserts_append]
    have hself := self_mem_listed_upsertData (upserts es) a
    split_ifs at h with hkey
    · obtain rfl := Option.some.inj h
      rw [← htenant]
      exact hself
    · by_cases hlist : tenantId = a.tenantId ∧ e.resourceId = a.resourceId
      · have hold := ih h
        rw [hlist.1, hlist.2] at hold ⊢
        refine (mem_listed_upsertData ((filed_upserts es).once _ _)).mpr (.inr ⟨hold, ?_⟩)
        intro hida
        exact hkey (Prod.ext hlist.1 (hid.symm.trans hida))
      · rw [listed_upsertData, if_neg hlist]
        exact ih h

theorem visible_mem_listed (h : (upserts es).Holds ctx.tenantId e) (hvis : visibleEvent ctx e = true) :
    e ∈ ((upserts es).listed ctx.tenantId e.resourceId).filter (visibleEvent ctx) := by
  obtain ⟨eventId, hget⟩ := h
  exact List.mem_filter.mpr ⟨current_mem_listed hget, hvis⟩

/-- What is answered is current: then it is a newest of the visible events. -/
theorem newestOf_iff_current : NewestOf {e ∈ (upserts es).visibleEvents ctx | e.resourceId = resourceId}
      ((upserts es).latestStateForResource ctx resourceId) ↔
    ∀ e, (upserts es).latestStateForResource ctx resourceId = some e →
      (upserts es).Holds ctx.tenantId e := by
  cases h : (upserts es).latestStateForResource ctx resourceId with
  | none =>
    have hempty := maxByKey_eq_none.mp h
    refine iff_of_true ?_ (by simp)
    refine Set.eq_empty_of_forall_notMem ?_
    rintro e ⟨⟨hst, hvis⟩, rfl⟩
    have hmem := visible_mem_listed hst hvis
    rw [hempty] at hmem
    cases hmem
  | some e =>
    constructor
    · rintro ⟨⟨⟨hst, -⟩, -⟩, -⟩ x hx
      obtain rfl := Option.some.inj hx
      exact hst
    -- the newest of the list is the newest of the visible, if it is current itself
    · intro hcurrent
      obtain ⟨hlisted, hvis⟩ := List.mem_filter.mp (mem_of_maxByKey h)
      refine ⟨⟨⟨hcurrent e rfl, hvis⟩, ((filed_upserts es).mem _ _ e hlisted).2.2⟩, ?_⟩
      rintro x ⟨⟨hst, hvisx⟩, rfl⟩
      have hle := le_of_maxByKey h (visible_mem_listed hst hvisx)
      rcases Prod.Lex.toLex_le_toLex.mp hle with hlt | ⟨heq, -⟩
      · exact le_of_lt hlt
      · exact le_of_eq heq

/-- What is answered is current exactly when every copy has a current event before it. -/
theorem current_iff_copies_outranked :
    (∀ resourceId e, (upserts es).latestStateForResource ctx resourceId = some e →
      (upserts es).Holds ctx.tenantId e) ↔ (upserts es).CopiesOutranked ctx := by
  constructor
  · intro h resourceId xs copy ys hlist hvis hcopy
    have hmem : copy ∈ ((upserts es).listed ctx.tenantId resourceId).filter (visibleEvent ctx) := by
      rw [hlist]
      exact List.mem_filter.mpr ⟨by simp, hvis⟩
    obtain ⟨e, he⟩ : ∃ e, (upserts es).latestStateForResource ctx resourceId = some e := by
      refine Option.ne_none_iff_exists'.mp fun hnone => ?_
      rw [maxByKey_eq_none.mp hnone] at hmem
      cases hmem
    have hcurrent := h resourceId e he
    obtain ⟨us, vs, hsplit, hvise, hus, hvs⟩ := maxByKey_filter_eq_some.mp he
    -- the answer is not the copy, so it stands before or behind it
    rw [hlist] at hsplit
    rcases List.append_eq_append_iff.mp hsplit with ⟨between, rfl, hbehind⟩ | ⟨between, rfl, hbefore⟩
    · cases between with
      | nil =>
        obtain ⟨rfl, -⟩ := List.cons.inj hbehind
        exact absurd hcurrent hcopy
      | cons c between =>
        obtain ⟨rfl, rfl⟩ := List.cons.inj hbehind
        exact .inr ⟨e, by simp, hcurrent, hvise, hus copy (by simp) hvis⟩
    · cases between with
      | nil =>
        obtain ⟨rfl, -⟩ := List.cons.inj hbefore
        exact absurd hcurrent hcopy
      | cons c between =>
        obtain ⟨rfl, rfl⟩ := List.cons.inj hbefore
        exact .inl ⟨e, by simp, hcurrent, hvise, hvs copy (by simp) hvis⟩
  · intro h resourceId e he
    by_contra hcopy
    obtain ⟨xs, ys, hsplit, hvis, hxs, hys⟩ := maxByKey_filter_eq_some.mp he
    rcases h resourceId xs e ys hsplit hvis hcopy with ⟨c, hc, -, hvisc, hlt⟩ | ⟨c, hc, -, hvisc, hle⟩
    · exact absurd (hxs c hc hvisc) hlt.not_ge
    · exact absurd (hys c hc hvisc) hle.not_gt

theorem statesOfVisible_iff : (upserts es).StatesOfVisible ctx ↔ (upserts es).CopiesOutranked ctx := by
  rw [← current_iff_copies_outranked]
  exact forall_congr' fun _ => newestOf_iff_current

/-- A store whose events keep their resources has no copies. -/
theorem copiesOutranked_of_coherent {st : InMemoryEventStore} (h : Coherent st) :
    st.CopiesOutranked ctx := by
  intro resourceId xs copy ys hlist _ hcopy
  have hmem : copy ∈ st.listed ctx.tenantId resourceId := by simp [hlist]
  exact absurd ⟨_, ((h.exact _ _ copy).mp hmem).1⟩ hcopy

end States

/-- **Queries are exact and show nothing of what is hidden; states do so exactly as long as the copies
that moved events leave behind are outranked.** -/
theorem read_law_iff (ops ops' : List Operation) (ctx : QueryContext) :
    let st := runFrom operate new ops
    let st' := runFrom operate new ops'
    ReadLaw st st' ctx ↔ (st.visibleEvents ctx = st'.visibleEvents ctx →
      st.CopiesOutranked ctx ∧ st'.CopiesOutranked ctx) := by
  intro st st'
  have hst : st = upserts _ := run_eq_upserts ops
  have hst' : st' = upserts _ := run_eq_upserts ops'
  rw [hst, hst']
  constructor
  · intro h hsame
    obtain ⟨hstates, hstates'⟩ := h.states hsame
    exact ⟨statesOfVisible_iff.mp hstates, statesOfVisible_iff.mp hstates'⟩
  · intro h
    refine ⟨?_, fun filter answer => query_exact, ?_, ?_⟩
    · intro filter
      constructor
      · rintro ⟨err, herr⟩ htenant
        rw [query_ok htenant] at herr
        cases herr
      · intro htenant
        exact ⟨_, query_denied htenant⟩
    · intro hsame filter answer answer' hanswer hanswer'
      exact queries_upToTies hsame hanswer hanswer'
    · intro hsame
      exact ⟨statesOfVisible_iff.mpr (h hsame).1, statesOfVisible_iff.mpr (h hsame).2⟩

/-- A public event becomes private as it moves: a stranger still reads the public version, and nothing
where only the private one came in. -/
theorem hidden_event_is_read :
    let wide : CanonicalEventRecord :=
      { (default : CanonicalEventRecord) with tenantId := "t", eventId := "e", resourceId := "a" }
    let narrow : CanonicalEventRecord :=
      { wide with resourceId := "b", acl := { isPrivate := true, aclVersion := 1 } }
    ¬ ReadLaw (runFrom operate new [.upsert wide, .upsert narrow]) (runFrom operate new [.upsert narrow])
      { tenantId := "t" } := by
  intro wide narrow h
  have hsame : ∀ tenantId eventId, (upserts [wide, narrow]).getRaw tenantId eventId =
      (upserts [narrow]).getRaw tenantId eventId := by
    intro tenantId eventId
    show ((upserts [wide]).upsertData narrow).getRaw tenantId eventId =
      ((upserts []).upsertData narrow).getRaw tenantId eventId
    rw [getRaw_upsertData, getRaw_upsertData]
    split_ifs with hkey
    · rfl
    · show ((upserts []).upsertData wide).getRaw tenantId eventId = _
      have hwide : ¬ (tenantId, eventId) = wide.key := hkey
      rw [getRaw_upsertData, if_neg hwide]
  have hvisible : (upserts [wide, narrow]).visibleEvents { tenantId := "t" } =
      (upserts [narrow]).visibleEvents { tenantId := "t" } := by
    unfold visibleEvents Holds
    simp only [hsame]
  obtain ⟨⟨⟨⟨eventId, hget⟩, -⟩, -⟩, -⟩ := (h.states hvisible).1 "a"
  have hst : runFrom operate new [.upsert wide, .upsert narrow] = upserts [wide, narrow] := rfl
  rw [hst] at hget
  obtain ⟨-, -, rfl⟩ := getRaw_upserts_mem hget
  have hres := congrArg (Option.map CanonicalEventRecord.resourceId) hget
  exact absurd hres (by decide)

end InMemoryEventStore

end AiManager.Telemetry
