import AiManager.Lib.MergeTree
import AiManager.Telemetry.EventQuery

/-! # The analytical event store

`ClickHouseEventStore` inserts a row for every upsert into a table that replaces rows when it is merged,
and its query is a text: what stands in the text is selected from the rows that happen to be there.
`agrees_iff` says for which events the answers are those of the embedded store. -/

namespace AiManager.Telemetry

open Lib Lib.MergeTree

/-- A row of `canonical_events_local`. -/
structure ChEventRow where
  eventId : String
  tenantId : String
  provider : String
  category : String
  eventType : String
  /-- whole milliseconds, as `ingestedAt` -/
  eventTimestamp : DateTime
  ingestedAt : DateTime
  actorGlobalUserId : String
  actorProviderUserId : String
  actorEmail : String
  isPrivate : Nat
  allowedGroupIds : List String
  aclVersion : Nat
  resourceId : String
  parentResourceId : String
  attributesJson : String
  rawPayloadS3Uri : String
  eventSequenceNumber : Nat

/-- `to_string` and `from_str` of a JSON library. -/
structure JsonText where
  print : Json → String
  parse : String → Option Json

namespace ClickHouseEventStore
variable (json : JsonText)

/-- The values of an `INSERT`. -/
def insertJson (event : CanonicalEventRecord) : ChEventRow :=
  { eventId := event.eventId
    tenantId := event.tenantId
    provider := event.provider.clickhouseLabel
    category := event.category.clickhouseLabel
    eventType := event.eventType
    eventTimestamp := event.eventTimestamp.truncMillis
    ingestedAt := event.ingestedAt.truncMillis
    actorGlobalUserId := event.actor.globalUserId
    actorProviderUserId := event.actor.providerUserId
    actorEmail := event.actor.email
    isPrivate := if event.acl.isPrivate then 1 else 0
    allowedGroupIds := event.acl.allowedGroupIds
    aclVersion := event.acl.aclVersion
    resourceId := event.resourceId
    parentResourceId := event.parentResourceId
    attributesJson := json.print event.attributes
    rawPayloadS3Uri := event.rawPayloadS3Uri
    eventSequenceNumber := event.eventSequenceNumber }

def providerOf : String → SourceProvider
  | "GITHUB" => .github
  | "GITLAB" => .gitlab
  | "JIRA" => .jira
  | "LINEAR" => .linear
  | "SLACK" => .slack
  | "TEAMS" => .teams
  | "ZENDESK" => .zendesk
  | _ => .unspecified

def categoryOf : String → EventCategory
  | "CODE" => .code
  | "WORK_ITEM" => .workItem
  | "COMMUNICATION" => .communication
  | "IDENTITY" => .identity
  | _ => .unspecified

def fromRow (row : ChEventRow) : CanonicalEventRecord :=
  { eventId := row.eventId
    tenantId := row.tenantId
    provider := providerOf row.provider
    category := categoryOf row.category
    eventType := row.eventType
    eventTimestamp := row.eventTimestamp
    ingestedAt := row.ingestedAt
    actor :=
      { globalUserId := row.actorGlobalUserId
        providerUserId := row.actorProviderUserId
        email := row.actorEmail
        displayName := "" }
    acl :=
      { tenantId := row.tenantId
        allowedGroupIds := row.allowedGroupIds
        isPrivate := row.isPrivate = 1
        aclVersion := row.aclVersion }
    resourceId := row.resourceId
    parentResourceId := row.parentResourceId
    attributes := (json.parse row.attributesJson).getD (.obj [])
    rawPayloadS3Uri := row.rawPayloadS3Uri
    eventSequenceNumber := row.eventSequenceNumber }

/-! ## The table

`ReplacingMergeTree(acl_version)`, partitioned by the month of the event. -/

/-- Rows of one sorting key and one partition replace each other. -/
structure RowKey where
  tenantId : String
  category : String
  provider : String
  eventType : String
  resourceId : String
  eventId : String
  partition : Int × Nat
  deriving DecidableEq

def rowKey (row : ChEventRow) : RowKey :=
  { tenantId := row.tenantId
    category := row.category
    provider := row.provider
    eventType := row.eventType
    resourceId := row.resourceId
    eventId := row.eventId
    partition := row.eventTimestamp.yearMonth }

/-- A table after upserts of these events, in any state of its merges. -/
def TableOf (events : List CanonicalEventRecord) (table : List (StoredRow ChEventRow)) : Prop :=
  MergeState rowKey ChEventRow.aclVersion (events.map (insertJson json)) table

/-! ## The query -/

/-- The `WHERE` clause: the tenant, the access rule, and the two filters that the text has. -/
def whereClause (ctx : QueryContext) (filter : EventQuery) (row : ChEventRow) : Bool :=
  decide (row.tenantId = filter.tenantId)
    && (decide (row.isPrivate = 0) || row.allowedGroupIds.any fun g => ctx.groupIds.contains g)
    && (match filter.resourceId with
      | some rid => decide (row.resourceId = rid)
      | none => true)
    && (match filter.eventType with
      | some et => decide (row.eventType = et)
      | none => true)

/-- `ORDER BY event_timestamp DESC` -/
def newerRow (a b : ChEventRow) : Prop := b.eventTimestamp ≤ a.eventTimestamp

instance : Std.Total newerRow := ⟨fun a b => Int.le_total b.eventTimestamp a.eventTimestamp⟩

instance : IsTrans ChEventRow newerRow := ⟨fun _ _ _ hab hbc => Int.le_trans hbc hab⟩

/-- The rows selected. -/
def picked (ctx : QueryContext) (filter : EventQuery) (table : List (StoredRow ChEventRow)) :
    List ChEventRow :=
  (table.map StoredRow.row).filter (whereClause ctx filter)

/-- What the query may answer on a table. -/
def Query (ctx : QueryContext) (filter : EventQuery) (table : List (StoredRow ChEventRow))
    (answer : CoreResult (List CanonicalEventRecord)) : Prop :=
  if ctx.tenantId ≠ filter.tenantId then
    answer = .error (.aclDenied "query tenant_id does not match context")
  else ∃ rows, OrderLimit newerRow (max filter.limit 1) (picked ctx filter table) rows ∧
    answer = .ok (rows.map (fromRow json))

end ClickHouseEventStore

/-- What the query of the embedded store may answer: its map lists the records in an order of its own. -/
def InMemoryEventStore.Query (st : InMemoryEventStore) (ctx : QueryContext) (filter : EventQuery)
    (answer : CoreResult (List CanonicalEventRecord)) : Prop :=
  if ctx.tenantId ≠ filter.tenantId then
    answer = .error (.aclDenied "query tenant_id does not match context")
  else ∃ es, OrderLimit InMemoryEventStore.newerFirst (max filter.limit 1)
    (InMemoryEventStore.results st ctx filter) es ∧ answer = .ok es

namespace ClickHouseEventStore
variable (json : JsonText)

/-- On a table of these events, in whatever state, a query with any limit answers what the embedded store
may answer after the same upserts. -/
def Agrees (events : List CanonicalEventRecord) (ctx : QueryContext) (filter : EventQuery) : Prop :=
  ∀ table, TableOf json events table → ∀ limit answer,
    Query json ctx { filter with limit } table answer →
    (InMemoryEventStore.upserts events).Query ctx { filter with limit } answer

/-- The row holds all of the record. -/
structure Fits (e : CanonicalEventRecord) : Prop where
  provider : e.provider ≠ .unspecified
  category : e.category ≠ .unspecified
  eventTimestamp : e.eventTimestamp.truncMillis = e.eventTimestamp
  ingestedAt : e.ingestedAt.truncMillis = e.ingestedAt
  displayName : e.actor.displayName = ""
  aclTenant : e.acl.tenantId = e.tenantId
  attributes : (json.parse (json.print e.attributes)).getD (.obj []) = e.attributes

/-- The text selects current versions only, which meet the filters that it leaves out and fit their
rows, and no match is outranked by an older version of it. -/
structure Selective (events : List CanonicalEventRecord) (ctx : QueryContext) (filter : EventQuery) :
    Prop where
  current : ∀ xs e ys, events = xs ++ e :: ys → whereClause ctx filter (insertJson json e) = true →
    (∀ y ∈ ys, y.key ≠ e.key) ∧ InMemoryEventStore.selects ctx filter e = true ∧ Fits json e
  kept : ∀ xs e ys, events = xs ++ e :: ys → (∀ y ∈ ys, y.key ≠ e.key) →
    e.tenantId = filter.tenantId → InMemoryEventStore.selects ctx filter e = true →
    ∀ x ∈ xs, rowKey (insertJson json x) = rowKey (insertJson json e) →
      x.acl.aclVersion ≤ e.acl.aclVersion

section Rows
variable {json} {e x : CanonicalEventRecord} {events xs ys : List CanonicalEventRecord}
  {ctx : QueryContext} {filter : EventQuery}

theorem providerOf_label_iff {p : SourceProvider} : providerOf p.clickhouseLabel = p ↔ p ≠ .unspecified := by
  cases p <;> simp [SourceProvider.clickhouseLabel, providerOf]

theorem categoryOf_label_iff {c : EventCategory} : categoryOf c.clickhouseLabel = c ↔ c ≠ .unspecified := by
  cases c <;> simp [EventCategory.clickhouseLabel, categoryOf]

theorem fromRow_insertJson_iff : fromRow json (insertJson json e) = e ↔ Fits json e := by
  obtain ⟨eventId, tenantId, provider, category, eventType, eventTimestamp, ingestedAt, actor, acl,
    resourceId, parentResourceId, attributes, rawPayloadS3Uri, eventSequenceNumber⟩ := e
  obtain ⟨globalUserId, providerUserId, email, displayName⟩ := actor
  obtain ⟨aclTenantId, allowedGroupIds, isPrivate, aclVersion⟩ := acl
  simp only [fromRow, insertJson, CanonicalEventRecord.mk.injEq, ActorIdentity.mk.injEq,
    AclSnapshot.mk.injEq, providerOf_label_iff, categoryOf_label_iff, true_and, and_true]
  constructor
  · rintro ⟨hprovider, hcategory, htime, hingested, hname, ⟨htenant, -⟩, hattributes⟩
    exact ⟨hprovider, hcategory, htime, hingested, hname.symm, htenant.symm, hattributes⟩
  · intro h
    have hprivate : decide ((if isPrivate = true then 1 else 0) = 1) = isPrivate := by
      cases isPrivate <;> rfl
    exact ⟨h.provider, h.category, h.eventTimestamp, h.ingestedAt, h.displayName.symm,
      ⟨h.aclTenant.symm, hprivate⟩, h.attributes⟩

theorem key_eq_of_rowKey (h : rowKey (insertJson json x) = rowKey (insertJson json e)) :
    x.key = e.key := by
  have htenant := congrArg RowKey.tenantId h
  have hid := congrArg RowKey.eventId h
  exact Prod.ext htenant hid

theorem whereClause_iff : whereClause ctx filter (insertJson json e) = true ↔
    e.tenantId = filter.tenantId ∧
    (e.acl.isPrivate = false ∨ ∃ g ∈ e.acl.allowedGroupIds, g ∈ ctx.groupIds) ∧
    (∀ rid ∈ filter.resourceId, e.resourceId = rid) ∧ ∀ et ∈ filter.eventType, e.eventType = et := by
  have hprivate : (if e.acl.isPrivate = true then 1 else 0) = 0 ↔ e.acl.isPrivate = false := by
    cases e.acl.isPrivate <;> simp
  unfold whereClause insertJson
  simp only [Bool.and_eq_true, Bool.or_eq_true, decide_eq_true_eq, hprivate, List.any_eq_true,
    List.contains_iff_mem, and_assoc]
  cases filter.resourceId <;> cases filter.eventType <;> simp

/-- The text leaves out filters only: it selects every match of the tenant. -/
theorem whereClause_of_selects (htenant : e.tenantId = filter.tenantId)
    (h : InMemoryEventStore.selects ctx filter e = true) :
    whereClause ctx filter (insertJson json e) = true := by
  obtain ⟨hvis, -, -, hres, -, htype, -, -⟩ := InMemoryEventStore.selects_iff.mp h
  exact whereClause_iff.mpr ⟨htenant, (aclAllows_iff.mp hvis).2, hres, htype⟩

end Rows

/-! ## Agreement -/

section Agreement
variable {json} {events : List CanonicalEventRecord} {ctx : QueryContext} {filter : EventQuery}

/-- With every limit, the answers agree if the rows selected are the matches. -/
theorem agrees_iff_perm (htenant : ctx.tenantId = filter.tenantId) : Agrees json events ctx filter ↔
    ∀ table, TableOf json events table → ((picked ctx filter table).map (fromRow json)).Perm
      (InMemoryEventStore.results (InMemoryEventStore.upserts events) ctx filter) := by
  constructor
  · intro h table htable
    -- a limit that does not bite
    let limit := max (picked ctx filter table).length
      (InMemoryEventStore.results (InMemoryEventStore.upserts events) ctx filter).length
    obtain ⟨rows, hrows⟩ := OrderLimit.exists_answer (r := newerRow) (max limit 1)
      (picked ctx filter table)
    have hquery : Query json ctx { filter with limit } table (.ok (rows.map (fromRow json))) := by
      unfold Query
      rw [if_neg (not_not.mpr htenant)]
      exact ⟨rows, hrows, rfl⟩
    have hanswer := h table htable limit _ hquery
    unfold InMemoryEventStore.Query at hanswer
    rw [if_neg (not_not.mpr htenant)] at hanswer
    obtain ⟨es, hes, heq⟩ := hanswer
    obtain rfl := Except.ok.inj heq
    have hpicked := hrows.perm ((le_max_left _ _).trans (le_max_left limit 1))
    have hmatches := hes.perm ((le_max_right _ _).trans (le_max_left limit 1))
    exact (hpicked.map _).symm.trans hmatches
  · intro h table htable limit answer hanswer
    unfold Query at hanswer
    rw [if_neg (not_not.mpr htenant)] at hanswer
    obtain ⟨rows, hrows, rfl⟩ := hanswer
    unfold InMemoryEventStore.Query
    rw [if_neg (not_not.mpr htenant)]
    refine ⟨_, OrderLimit.congr_rows ?_ (h table htable), rfl⟩
    exact hrows.map fun a _ b _ hab => hab

/-- A row that is selected is of a current version. -/
theorem mem_results_of_picked (h : Selective json events ctx filter)
    {xs ys : List CanonicalEventRecord} {e : CanonicalEventRecord} (hsplit : events = xs ++ e :: ys)
    (hwhere : whereClause ctx filter (insertJson json e) = true) :
    fromRow json (insertJson json e) = e ∧
      e ∈ InMemoryEventStore.results (InMemoryEventStore.upserts events) ctx filter := by
  obtain ⟨hlast, hsel, hfits⟩ := h.current xs e ys hsplit hwhere
  refine ⟨fromRow_insertJson_iff.mpr hfits, List.mem_filter.mpr ⟨?_, hsel⟩⟩
  rw [InMemoryEventStore.mem_tenantEvents, ← (whereClause_iff.mp hwhere).1, hsplit]
  exact ⟨_, InMemoryEventStore.getRaw_upserts_last hlast⟩

/-- A match is still in the table. -/
theorem mem_picked_of_results (h : Selective json events ctx filter)
    {table : List (StoredRow ChEventRow)} (htable : TableOf json events table)
    {e : CanonicalEventRecord}
    (he : e ∈ InMemoryEventStore.results (InMemoryEventStore.upserts events) ctx filter) :
    insertJson json e ∈ picked ctx filter table ∧ fromRow json (insertJson json e) = e := by
  obtain ⟨hst, hsel⟩ := List.mem_filter.mp he
  obtain ⟨eventId, hget⟩ := InMemoryEventStore.mem_tenantEvents.mp hst
  have htenant := (InMemoryEventStore.getRaw_upserts_mem hget).2.1
  obtain ⟨xs, ys, hsplit, hlast⟩ := InMemoryEventStore.exists_last hget
  have hwhere : whereClause ctx filter (insertJson json e) = true :=
    whereClause_of_selects htenant hsel
  have hfits := (h.current xs e ys hsplit hwhere).2.2
  refine ⟨List.mem_filter.mpr ⟨?_, hwhere⟩, fromRow_insertJson_iff.mpr hfits⟩
  unfold TableOf at htable
  rw [hsplit, List.map_append, List.map_cons] at htable
  refine List.mem_map.mpr ⟨_, htable.kept ?_ ?_, rfl⟩
  · intro row hrow hkey
    obtain ⟨x, hx, rfl⟩ := List.mem_map.mp hrow
    exact h.kept xs e ys hsplit hlast htenant hsel x hx hkey
  · intro row hrow hkey
    obtain ⟨y, hy, rfl⟩ := List.mem_map.mp hrow
    exact absurd (key_eq_of_rowKey hkey) (hlast y hy)

/-- A stored row is the row of the event at its place. -/
theorem TableOf.origin {table : List (StoredRow ChEventRow)} (htable : TableOf json events table)
    {s : StoredRow ChEventRow} (hs : s ∈ table) :
    ∃ xs e ys, events = xs ++ e :: ys ∧ xs.length = s.number ∧ s.row = insertJson json e := by
  obtain ⟨rows, rows', hsplit, hlength⟩ := MergeState.split htable hs
  obtain ⟨xs, rest, rfl, rfl, hrest⟩ := List.map_eq_append_iff.mp hsplit
  obtain ⟨e, ys, rfl, hrow, -⟩ := List.map_eq_cons_iff.mp hrest
  exact ⟨xs, e, ys, rfl, by rw [← hlength, List.length_map], hrow.symm⟩

theorem mem_of_split_lt {α : Type} {xs ys xs' ys' : List α} {a b : α}
    (h : xs ++ a :: ys = xs' ++ b :: ys') (hlt : xs.length < xs'.length) : b ∈ ys := by
  rcases List.append_eq_append_iff.mp h with ⟨between, rfl, hrest⟩ | ⟨between, rfl, -⟩
  · cases between with
    | nil => simp at hlt
    | cons c between =>
      obtain ⟨-, rfl⟩ := List.cons.inj hrest
      simp
  · simp at hlt

theorem picked_nodup (h : Selective json events ctx filter) {table : List (StoredRow ChEventRow)}
    (htable : TableOf json events table) : ((picked ctx filter table).map (fromRow json)).Nodup := by
  unfold picked
  rw [List.filter_map, List.map_map]
  have htable_nodup : table.Nodup := (MergeState.nodup htable).of_map _
  refine List.Nodup.map_on ?_ (htable_nodup.filter _)
  intro s hs s' hs' heq
  obtain ⟨hmem, hwhere⟩ := List.mem_filter.mp hs
  obtain ⟨hmem', hwhere'⟩ := List.mem_filter.mp hs'
  obtain ⟨xs, e, ys, hsplit, hnumber, hrow⟩ := htable.origin hmem
  obtain ⟨xs', e', ys', hsplit', hnumber', hrow'⟩ := htable.origin hmem'
  simp only [Function.comp_apply, hrow, hrow'] at heq hwhere hwhere'
  have hkey : e.key = e'.key := by
    have hdecoded := congrArg CanonicalEventRecord.key heq
    exact hdecoded
  -- one of two rows of an event would not be its last
  have hnumbers : s.number = s'.number := by
    rcases lt_trichotomy s.number s'.number with hlt | heq | hlt
    · rw [← hnumber, ← hnumber'] at hlt
      have hlater := mem_of_split_lt (hsplit.symm.trans hsplit') hlt
      exact absurd hkey.symm ((h.current xs e ys hsplit hwhere).1 e' hlater)
    · exact heq
    · rw [← hnumber, ← hnumber'] at hlt
      have hlater := mem_of_split_lt (hsplit'.symm.trans hsplit) hlt
      exact absurd hkey ((h.current xs' e' ys' hsplit' hwhere').1 e hlater)
  exact List.inj_on_of_nodup_map (MergeState.nodup htable) hmem hmem' hnumbers

theorem picked_perm_of_selective (h : Selective json events ctx filter)
    {table : List (StoredRow ChEventRow)} (htable : TableOf json events table) :
    ((picked ctx filter table).map (fromRow json)).Perm
      (InMemoryEventStore.results (InMemoryEventStore.upserts events) ctx filter) := by
  refine (List.perm_ext_iff_of_nodup (picked_nodup h htable)
    ((InMemoryEventStore.results_nodup events).of_map _)).mpr fun e => ?_
  constructor
  · intro he
    obtain ⟨row, hrow, rfl⟩ := List.mem_map.mp he
    obtain ⟨hmem, hwhere⟩ := List.mem_filter.mp hrow
    obtain ⟨s, hs, rfl⟩ := List.mem_map.mp hmem
    obtain ⟨xs, e, ys, hsplit, -, hs⟩ := htable.origin hs
    rw [hs] at hwhere ⊢
    obtain ⟨hfits, hmatch⟩ := mem_results_of_picked h hsplit hwhere
    rwa [hfits]
  · intro he
    obtain ⟨hrow, hfits⟩ := mem_picked_of_results h htable he
    exact List.mem_map.mpr ⟨_, hrow, hfits⟩

/-! ### Necessity -/

/-- The records whose rows are selected before any merge. -/
theorem picked_unmerged : picked ctx filter (unmerged (events.map (insertJson json))) =
    (events.filter fun e => whereClause ctx filter (insertJson json e)).map (insertJson json) := by
  unfold picked
  rw [map_row_unmerged, List.filter_map]
  rfl

/-- Where no event is selected twice, the others are not the event of a row that is selected. -/
theorem others_differ {xs ys : List CanonicalEventRecord} {e : CanonicalEventRecord}
    (honce : (((xs ++ e :: ys).filter fun e => whereClause ctx filter (insertJson json e)).map
      CanonicalEventRecord.eventId).Nodup)
    (hwhere : whereClause ctx filter (insertJson json e) = true) :
    ∀ a ∈ xs ++ ys, whereClause ctx filter (insertJson json a) = true → a.eventId ≠ e.eventId := by
  intro a ha hwherea hid
  have hhead : (e :: ys).filter (fun e => whereClause ctx filter (insertJson json e)) =
      e :: ys.filter fun e => whereClause ctx filter (insertJson json e) :=
    List.filter_cons_of_pos hwhere
  rw [List.filter_append, hhead, List.map_append, List.map_cons,
    List.nodup_middle, List.nodup_cons, ← List.map_append, ← List.filter_append] at honce
  exact honce.1 (List.mem_map.mpr ⟨a, List.mem_filter.mpr ⟨ha, hwherea⟩, hid⟩)

section Answers
variable (h : ∀ table, TableOf json events table →
  ((picked ctx filter table).map (fromRow json)).Perm
    (InMemoryEventStore.results (InMemoryEventStore.upserts events) ctx filter))
include h

/-- Before any merge, what is selected is what the embedded store answers. -/
theorem unmerged_perm :
    ((events.filter fun e => whereClause ctx filter (insertJson json e)).map
      (fromRow json ∘ insertJson json)).Perm
      (InMemoryEventStore.results (InMemoryEventStore.upserts events) ctx filter) := by
  have hperm := h _ (mergeState_unmerged _)
  rwa [picked_unmerged, List.map_map] at hperm

/-- No event is selected twice. -/
theorem selected_once : ((events.filter fun e => whereClause ctx filter (insertJson json e)).map
    CanonicalEventRecord.eventId).Nodup := by
  have hids := (((unmerged_perm h).map CanonicalEventRecord.eventId).nodup_iff).mpr
    (InMemoryEventStore.results_nodup events)
  rwa [List.map_map] at hids

theorem current_of_perm {xs ys : List CanonicalEventRecord} {e : CanonicalEventRecord}
    (hsplit : events = xs ++ e :: ys) (hwhere : whereClause ctx filter (insertJson json e) = true) :
    (∀ y ∈ ys, y.key ≠ e.key) ∧ InMemoryEventStore.selects ctx filter e = true ∧ Fits json e := by
  have honce := selected_once h
  have he : e ∈ events.filter fun e => whereClause ctx filter (insertJson json e) :=
    List.mem_filter.mpr ⟨by simp [hsplit], hwhere⟩
  obtain ⟨hst, hsel⟩ :=
    List.mem_filter.mp ((unmerged_perm h).mem_iff.mp (List.mem_map.mpr ⟨e, he, rfl⟩))
  obtain ⟨eventId, hget⟩ := InMemoryEventStore.mem_tenantEvents.mp hst
  obtain ⟨hmem, htenant, -⟩ := InMemoryEventStore.getRaw_upserts_mem hget
  -- what the row decodes to is selected too, so it is the record itself
  have hdecoded : fromRow json (insertJson json e) = e := by
    refine List.inj_on_of_nodup_map honce (List.mem_filter.mpr ⟨hmem, ?_⟩) he rfl
    exact whereClause_of_selects htenant hsel
  rw [Function.comp_apply, hdecoded] at hsel hget
  refine ⟨?_, hsel, fromRow_insertJson_iff.mp hdecoded⟩
  obtain ⟨xs', ys', hsplit', hlast⟩ := InMemoryEventStore.exists_last hget
  have hdiffer := others_differ (hsplit ▸ honce) hwhere
  have hdiffer' := others_differ (hsplit' ▸ honce) hwhere
  have hplace : xs.length = xs'.length := by
    rcases lt_trichotomy xs.length xs'.length with hlt | heq | hlt
    · have hlater := mem_of_split_lt (hsplit.symm.trans hsplit') hlt
      exact absurd rfl (hdiffer e (List.mem_append_right _ hlater) hwhere)
    · exact heq
    · have hlater := mem_of_split_lt (hsplit'.symm.trans hsplit) hlt
      exact absurd rfl (hdiffer' e (List.mem_append_right _ hlater) hwhere)
  obtain ⟨-, hrest⟩ := List.append_inj (hsplit.symm.trans hsplit') hplace
  rw [(List.cons.inj hrest).2]
  exact hlast

theorem kept_of_perm {xs ys : List CanonicalEventRecord} {e x : CanonicalEventRecord}
    (hsplit : events = xs ++ e :: ys) (hlast : ∀ y ∈ ys, y.key ≠ e.key)
    (htenant : e.tenantId = filter.tenantId) (hsel : InMemoryEventStore.selects ctx filter e = true)
    (hx : x ∈ xs) (hkey : rowKey (insertJson json x) = rowKey (insertJson json e)) :
    x.acl.aclVersion ≤ e.acl.aclVersion := by
  by_contra hlt
  have hwhere : whereClause ctx filter (insertJson json e) = true :=
    whereClause_of_selects htenant hsel
  -- then a merge may drop the row of `e`
  obtain ⟨table, htable, hrows⟩ : ∃ table, MergeState rowKey ChEventRow.aclVersion
      (xs.map (insertJson json) ++ insertJson json e :: ys.map (insertJson json)) table ∧
      table.map StoredRow.row = xs.map (insertJson json) ++ ys.map (insertJson json) :=
    exists_mergeState_without (List.mem_map.mpr ⟨x, hx, rfl⟩) hkey (not_le.mp hlt)
  have hstate : TableOf json events table := by
    unfold TableOf
    rw [hsplit, List.map_append, List.map_cons]
    exact htable
  have hmatch : e ∈ InMemoryEventStore.results (InMemoryEventStore.upserts events) ctx filter := by
    refine List.mem_filter.mpr ⟨InMemoryEventStore.mem_tenantEvents.mpr ⟨e.eventId, ?_⟩, hsel⟩
    rw [← htenant, hsplit]
    exact InMemoryEventStore.getRaw_upserts_last hlast
  obtain ⟨row, hrow, hdecoded⟩ := List.mem_map.mp ((h table hstate).mem_iff.mpr hmatch)
  obtain ⟨hmem, hwhere'⟩ := List.mem_filter.mp hrow
  rw [hrows, ← List.map_append] at hmem
  obtain ⟨a, ha, rfl⟩ := List.mem_map.mp hmem
  have hid := congrArg CanonicalEventRecord.eventId hdecoded
  exact others_differ (hsplit ▸ selected_once h) hwhere a ha hwhere' hid

theorem selective_of_perm : Selective json events ctx filter :=
  ⟨fun _ _ _ hsplit hwhere => current_of_perm h hsplit hwhere,
    fun _ _ _ hsplit hlast htenant hsel _ hx hkey =>
      kept_of_perm h hsplit hlast htenant hsel hx hkey⟩

end Answers

end Agreement

/-- **The two stores answer the same, in any state of the merges and with any limit, exactly when the
tenants differ or the text selects nothing but matches in their current versions.** The text is read with its values in
their places; where the client puts them is said in `statements_bound_iff`. -/
theorem agrees_iff (events : List CanonicalEventRecord) (ctx : QueryContext) (filter : EventQuery) :
    Agrees json events ctx filter ↔
      (ctx.tenantId = filter.tenantId → Selective json events ctx filter) := by
  by_cases htenant : ctx.tenantId = filter.tenantId
  · rw [agrees_iff_perm htenant]
    constructor
    · intro h _
      exact selective_of_perm h
    · intro h table htable
      exact picked_perm_of_selective (h htenant) htable
  · refine iff_of_true ?_ (fun h => absurd h htenant)
    intro table _ limit answer hanswer
    unfold Query at hanswer
    unfold InMemoryEventStore.Query
    rw [if_pos htenant] at hanswer ⊢
    exact hanswer

/-- An event of code, asked for by category: work items only. -/
theorem category_is_not_in_the_text :
    let json : JsonText := ⟨fun _ => "\x7b\x7d", fun _ => some (.obj [])⟩
    let event : CanonicalEventRecord :=
      { (default : CanonicalEventRecord) with
        tenantId := "t", eventId := "e", provider := .github, category := .code, attributes := .obj [] }
    ¬ Agrees json [event] { tenantId := "t" } { tenantId := "t", categories := [.workItem] } := by
  intro json event h
  have hperm := (agrees_iff_perm rfl).mp h _ (mergeState_unmerged _)
  have hlength := hperm.length_eq
  rw [picked_unmerged, List.length_map, List.length_map] at hlength
  exact absurd hlength (by decide)

end ClickHouseEventStore

end AiManager.Telemetry
