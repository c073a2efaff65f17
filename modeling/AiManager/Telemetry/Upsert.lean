import AiManager.Telemetry.Store
import Mathlib.Data.List.Induction
import Mathlib.Data.Prod.Lex

/-! # Versions of an event

An upsert is documented to replace an event only by a higher version, its access version first and its
sequence number second. `insertById` replaces it by whatever comes last. So what `getRaw` answers is a
newest version as long as the versions of an event arrive in order, and only then
(`newest_iff_in_order`). -/

namespace AiManager.Telemetry

open Lib

def CanonicalEventRecord.key (e : CanonicalEventRecord) : String × String := (e.tenantId, e.eventId)

/-- What a newer event is newer by. -/
def CanonicalEventRecord.version (e : CanonicalEventRecord) : ℕ ×ₗ ℕ :=
  toLex (e.acl.aclVersion, e.eventSequenceNumber)

namespace InMemoryEventStore

/-- Fetch by event id without access control. -/
def getRaw (st : InMemoryEventStore) (tenantId eventId : String) : Option CanonicalEventRecord :=
  (st.byId.get tenantId).bind fun events => events.get eventId

/-- A fresh store after a sequence of upserts. -/
def upserts (events : List CanonicalEventRecord) : InMemoryEventStore := events.foldl upsertData new

/-- For every event that was upserted the store answers a version of it, and none of the others is
newer. -/
def Newest (events : List CanonicalEventRecord) : Prop :=
  ∀ e ∈ events, ∃ x ∈ events, (upserts events).getRaw e.tenantId e.eventId = some x ∧
    x.key = e.key ∧ ∀ e' ∈ events, e'.key = e.key → e'.version ≤ x.version

/-- No version of an event comes after a newer one. -/
def InOrder (events : List CanonicalEventRecord) : Prop :=
  events.Pairwise fun a b => a.key = b.key → a.version ≤ b.version

section Specs
variable {st : InMemoryEventStore} {e : CanonicalEventRecord} {es : List CanonicalEventRecord}

theorem getRaw_upsertData (tenantId eventId : String) :
    (st.upsertData e).getRaw tenantId eventId =
      if (tenantId, eventId) = e.key then some e else st.getRaw tenantId eventId := by
  show ((st.byId.put e.tenantId (((st.byId.get e.tenantId).getD ∅).put e.eventId e)).get
    tenantId).bind (fun events => events.get eventId) = _
  rw [KMap.get_put]
  by_cases htenant : tenantId = e.tenantId
  · subst htenant
    simp only [if_true, Option.bind_some, KMap.get_put, CanonicalEventRecord.key, Prod.mk.injEq,
      true_and]
    split_ifs
    · rfl
    · unfold getRaw
      cases st.byId.get e.tenantId <;> simp
  · have hkey : (tenantId, eventId) ≠ e.key := fun h => htenant (Prod.mk.inj h).1
    rw [if_neg htenant, if_neg hkey]
    rfl

theorem upserts_append : upserts (es ++ [e]) = (upserts es).upsertData e := by
  simp [upserts]

/-- The last event of its key is the one that is answered. -/
theorem getRaw_upserts_append (x : CanonicalEventRecord) :
    (upserts (es ++ [e])).getRaw x.tenantId x.eventId =
      if x.key = e.key then some e else (upserts es).getRaw x.tenantId x.eventId := by
  rw [upserts_append, getRaw_upsertData]
  rfl

/-- The event that arrives last is a newest version if none before it is newer. -/
theorem newest_append (hes : Newest es) (he : ∀ a ∈ es, a.key = e.key → a.version ≤ e.version) :
    Newest (es ++ [e]) := by
  intro x hx
  by_cases hkey : x.key = e.key
  · refine ⟨e, by simp, ?_, hkey.symm, ?_⟩
    · rw [getRaw_upserts_append, if_pos hkey]
    · intro a ha hak
      rcases List.mem_append.mp ha with hold | hnew
      · exact he a hold (hak.trans hkey)
      · rw [List.mem_singleton.mp hnew]
  · -- the other events are answered as before
    have hxs : x ∈ es := by
      rcases List.mem_append.mp hx with hold | hnew
      · exact hold
      · exact absurd (congrArg _ (List.mem_singleton.mp hnew)) hkey
    obtain ⟨y, hy, hget, hyk, hmax⟩ := hes x hxs
    refine ⟨y, List.mem_append_left _ hy, ?_, hyk, ?_⟩
    · rw [getRaw_upserts_append, if_neg hkey, hget]
    · intro a ha hak
      rcases List.mem_append.mp ha with hold | hnew
      · exact hmax a hold hak
      · rw [List.mem_singleton.mp hnew] at hak
        exact absurd hak.symm hkey

theorem newest_of_inOrder (h : InOrder es) : Newest es := by
  induction es using List.reverseRecOn with
  | nil => exact List.forall_mem_nil _
  | append_singleton es e ih =>
    obtain ⟨hes, -, hlast⟩ := List.pairwise_append.mp h
    exact newest_append (ih hes) fun a ha => hlast a ha e (List.mem_singleton_self e)

/-- A newest version that has just arrived is not older than those before it. -/
theorem le_last_of_newest (h : Newest (es ++ [e])) : ∀ a ∈ es, a.key = e.key → a.version ≤ e.version := by
  intro a ha hak
  obtain ⟨x, -, hget, -, hmax⟩ := h e (by simp)
  rw [getRaw_upserts_append, if_pos rfl] at hget
  obtain rfl := Option.some.inj hget
  exact hmax a (List.mem_append_left _ ha) hak

theorem inOrder_of_newest (h : ∀ n, Newest (es.take n)) : InOrder es := by
  induction es using List.reverseRecOn with
  | nil => exact List.Pairwise.nil
  | append_singleton es e ih =>
    have hall : Newest (es ++ [e]) := by
      have htake := h (es ++ [e]).length
      rwa [List.take_length] at htake
    have hstart : ∀ n, Newest (es.take n) := by
      intro n
      have htake := h (min n es.length)
      rwa [List.take_append_of_le_length (min_le_right _ _), ← List.take_take,
        List.take_of_length_le (le_refl es.length)] at htake
    refine List.pairwise_append.mpr ⟨ih hstart, List.pairwise_singleton _ _, ?_⟩
    intro a ha b hb
    rw [List.mem_singleton.mp hb]
    exact le_last_of_newest hall a ha

end Specs

/-- **A store answers newest versions, in every state of a run of upserts, exactly when the versions of
each event arrive in order.** -/
theorem newest_iff_in_order (events : List CanonicalEventRecord) :
    (∀ n, Newest (events.take n)) ↔ InOrder events :=
  ⟨inOrder_of_newest, fun h n => newest_of_inOrder (List.Pairwise.sublist (List.take_sublist n _) h)⟩

/-- A redelivered older version restores the access that the newer one took away. -/
theorem redelivery_restores_old_version :
    let wide : CanonicalEventRecord :=
      { (default : CanonicalEventRecord) with
        tenantId := "t", eventId := "e", acl := { isPrivate := false, aclVersion := 1 } }
    let narrow : CanonicalEventRecord :=
      { wide with acl := { isPrivate := true, aclVersion := 2 } }
    ¬ Newest [narrow, wide] := by
  intro wide narrow h
  have hall : ∀ a ∈ [narrow], a.key = wide.key → a.version ≤ wide.version := le_last_of_newest h
  exact absurd (hall narrow List.mem_cons_self rfl) (by decide)

end InMemoryEventStore

end AiManager.Telemetry
