import AiManager.Graph.Consumers
import AiManager.Platform.Wire
import AiManager.Telemetry.Acl

/-! # One event on two topics

The ingestion publishes an identity event twice: as an access record on one topic and as an event on the
other, both with the event's identifier. The projector keeps one set of marks for both topics, so
whichever it takes first suppresses the other. -/

namespace AiManager.Platform

open Lib Telemetry AiManager.Graph

inductive Topic where
  | acl
  | raw
  deriving DecidableEq

/-- What the ingestion publishes for one event, on each topic. -/
def publishedAcl (event : CanonicalEventRecord) (now : DateTime) : Option V1BusPayload :=
  if event.category = .identity then
    (extractAclRevocation event now).map fun rev => .acl (wireRevocation rev)
  else none

def publishedRaw (event : CanonicalEventRecord) : V1BusPayload := .event (wireEvent event)

/-- The two topics after a list of events was ingested. -/
def topics (ingested : List (CanonicalEventRecord × DateTime)) : Topic → List TopicRecord
  | .acl => (ingested.filterMap fun x => publishedAcl x.1 x.2).map .payload
  | .raw => ingested.map fun x => .payload (publishedRaw x.1)

/-- The consumer of a topic takes its next record, or goes back to one it has taken before. -/
inductive Delivery where
  | consume (t : Topic)
  | again (t : Topic) (saved : Nat)

/-- What a topic is for: the membership changes of the access records, the mutations of the events. -/
def Topic.wants : Topic → Effect → Bool
  | .acl, .member _ => true
  | .raw, .mutation _ => true
  | _, _ => false

section Machine
variable (mapEvent : V1CanonicalEvent → GraphMutation)
  (ingested : List (CanonicalEventRecord × DateTime))

def deliver (s : Projector Topic) : Delivery → Projector Topic
  | .consume t => s.step mapEvent (topics ingested) (.consume t {})
  | .again t saved => s.step mapEvent (topics ingested) (.restart t saved)

/-- What record `k` of a topic has done, of what the topic is for. -/
def doneFor (s : Projector Topic) (t : Topic) (k : Nat) : List Effect :=
  ((s.log.filter fun x => x.1 = .record t k).map Prod.snd).filter t.wants

/-- What a record of a topic is for. -/
def wanted (t : Topic) (p : V1BusPayload) : List Effect := (p.asks mapEvent).filter t.wants

/-- Every record that was moved past has done what it is for, once. -/
def AppliedOnce (s : Projector Topic) : Prop :=
  ∀ t k p, (topics ingested t)[k]? = some (.payload p) → k < s.passed t →
    doneFor s t k = wanted mapEvent t p

/-- The consumer takes, for the first time, a record that is for something and whose event was marked
before, by another record. -/
def Suppresses (s : Projector Topic) : Delivery → Prop
  | .consume t =>
    match (topics ingested t)[s.offsets t]? with
    | some (.payload p) => s.passed t ≤ s.offsets t ∧ s.stores.graph.applied.has p.key = true ∧
        wanted mapEvent t p ≠ []
    | _ => False
  | .again _ _ => False

/-- Records that were moved past are marked, and no others have done anything. -/
structure Steady (s : Projector Topic) : Prop where
  behind : ∀ t, s.offsets t ≤ s.passed t
  marked : ∀ t k p, (topics ingested t)[k]? = some (.payload p) → k < s.passed t →
    s.stores.graph.applied.has p.key = true
  untaken : ∀ t k, s.passed t ≤ k → doneFor s t k = []

end Machine

section Log
variable {s s' : Projector Topic}

theorem doneFor_of_log (h : s'.log = s.log) (t : Topic) (k : Nat) : doneFor s' t k = doneFor s t k := by
  unfold doneFor
  rw [h]

theorem doneFor_append {t : Topic} {k : Nat} {new : List Effect}
    (h : s'.log = new.map (fun e => (Source.record t k, e)) ++ s.log) (t' : Topic) (k' : Nat) :
    doneFor s' t' k' =
      if t = t' ∧ k = k' then new.filter t.wants ++ doneFor s t k else doneFor s t' k' := by
  unfold doneFor
  rw [h, List.filter_append, List.map_append, List.filter_append]
  split_ifs with heq
  · obtain ⟨rfl, rfl⟩ := heq
    clear h
    congr 2
    induction new with
    | nil => rfl
    | cons e es ih => simpa using ih
  · have hnone : (new.map fun e => (Source.record t k, e)).filter
        (fun x => decide (x.1 = .record t' k')) = [] := by
      rw [List.filter_eq_nil_iff]
      intro x hx
      obtain ⟨e, -, rfl⟩ := List.mem_map.mp hx
      simpa using fun ht hk => heq ⟨ht, hk⟩
    rw [hnone]
    rfl

end Log

theorem payload_of_topics {ingested : List (CanonicalEventRecord × DateTime)} {t : Topic} {k : Nat}
    {r : TopicRecord} (h : (topics ingested t)[k]? = some r) : ∃ p, r = .payload p := by
  have hmem := List.mem_of_getElem? h
  cases t with
  | acl =>
    obtain ⟨p, -, rfl⟩ := List.mem_map.mp hmem
    exact ⟨p, rfl⟩
  | raw =>
    obtain ⟨x, -, rfl⟩ := List.mem_map.mp hmem
    exact ⟨_, rfl⟩

section Step
variable {mapEvent : V1CanonicalEvent → GraphMutation}
  {ingested : List (CanonicalEventRecord × DateTime)} {s : Projector Topic} {t : Topic} {p : V1BusPayload}

variable (mapEvent) in
/-- A record whose event is new: it does what it asks for, and the consumer moves on unless that is
nothing. -/
theorem consume_new (hrecord : (topics ingested t)[s.offsets t]? = some (.payload p))
    (hnew : s.stores.graph.applied.has p.key = false) :
    ∃ s' : Projector Topic,
      (deliver mapEvent ingested s (.consume t) = s'.advance t ∨
        p.asks mapEvent = [] ∧ deliver mapEvent ingested s (.consume t) = s') ∧
      s'.log = (p.asks mapEvent).map (fun e => (Source.record t (s.offsets t), e)) ++ s.log ∧
      s'.stores.graph.applied = s.stores.graph.applied.put p.key () ∧
      s'.offsets = s.offsets ∧ s'.passed = s.passed := by
  obtain ⟨hlog, -, happlied⟩ :
      (s.take mapEvent (.record t (s.offsets t)) {} p).2.log =
          (p.asks mapEvent).map (fun e => (Source.record t (s.offsets t), e)) ++ s.log ∧ _ ∧ _ :=
    Projector.take_new mapEvent _ rfl hnew
  refine ⟨(s.take mapEvent (.record t (s.offsets t)) {} p).2, ?_, hlog, happlied, rfl, rfl⟩
  rcases Projector.step_consume_payload mapEvent {} hrecord with ⟨-, heq⟩ | ⟨err, herror, heq⟩
  · exact .inl heq
  · refine .inr ⟨(handle_without_faults mapEvent p s.stores.quiet).resolve_left ?_, heq⟩
    intro hok
    have hok' : (s.take mapEvent (.record t (s.offsets t)) {} p).1 = .ok () := hok
    rw [hok'] at herror
    cases herror

/-- What a consumer has passed after it moved on: what it had passed before, and the record it was at. -/
theorem lt_passed_advance {t' : Topic} {k : Nat} (hbehind : s.offsets t ≤ s.passed t)
    (h : k < (s.advance t).passed t') : k < s.passed t' ∨ t = t' ∧ s.offsets t = k := by
  by_cases ht : t' = t
  · subst ht
    have hk : k < max (s.passed t') (s.offsets t' + 1) := by simpa [Projector.advance] using h
    by_cases hold : k < s.passed t'
    · exact .inl hold
    · exact .inr ⟨rfl, by omega⟩
  · left
    simpa [Projector.advance, Function.update_of_ne ht] using h

theorem passed_le_advance (t' : Topic) : s.passed t' ≤ (s.advance t).passed t' := by
  by_cases ht : t' = t
  · subst ht
    simp [Projector.advance]
  · simp [Projector.advance, Function.update_of_ne ht]

theorem offsets_lt_passed_advance : s.offsets t < (s.advance t).passed t := by
  simp [Projector.advance]

theorem behind_advance (h : ∀ t, s.offsets t ≤ s.passed t) (t' : Topic) :
    (s.advance t).offsets t' ≤ (s.advance t).passed t' := by
  by_cases ht : t' = t
  · subst ht
    simp [Projector.advance]
  · simpa [Projector.advance, Function.update_of_ne ht] using h t'

theorem not_passed_of_new (hs : Steady ingested s)
    (hrecord : (topics ingested t)[s.offsets t]? = some (.payload p))
    (hnew : s.stores.graph.applied.has p.key = false) : s.passed t ≤ s.offsets t := by
  by_contra hlt
  have hmarked := hs.marked t _ p hrecord (by omega)
  rw [hnew] at hmarked
  cases hmarked

/-- Moving on from a marked record. -/
theorem steady_advance (hs : Steady ingested s)
    (hmarked : ∀ p, (topics ingested t)[s.offsets t]? = some (.payload p) →
      s.stores.graph.applied.has p.key = true) : Steady ingested (s.advance t) := by
  refine ⟨behind_advance hs.behind, ?_, ?_⟩
  · intro t' k p hp hk
    rcases lt_passed_advance (hs.behind t) hk with hold | ⟨rfl, rfl⟩
    · exact hs.marked t' k p hp hold
    · exact hmarked p hp
  · intro t' k hk
    exact hs.untaken t' k ((passed_le_advance t').trans hk)

/-- Moving on from a record applies everything once, exactly if that record was passed before, or has done
what it is for. -/
theorem appliedOnce_advance_iff (hs : Steady ingested s) (h : AppliedOnce mapEvent ingested s)
    (hrecord : (topics ingested t)[s.offsets t]? = some (.payload p)) :
    AppliedOnce mapEvent ingested (s.advance t) ↔
      (s.passed t ≤ s.offsets t → doneFor s t (s.offsets t) = wanted mapEvent t p) := by
  constructor
  · intro hafter _
    exact hafter t _ p hrecord offsets_lt_passed_advance
  · intro hdone t' k q hq hk
    by_cases hold : k < s.passed t'
    · exact h t' k q hq hold
    · obtain ⟨rfl, rfl⟩ := (lt_passed_advance (hs.behind t) hk).resolve_left hold
      obtain rfl := TopicRecord.payload.inj (Option.some.inj (hrecord.symm.trans hq))
      exact hdone (not_lt.mp hold)

/-- Nothing was done, and no mark was lost. -/
theorem steady_of_log {s' : Projector Topic} (hlog : s'.log = s.log)
    (hmarks : ∀ key, s.stores.graph.applied.has key = true → s'.stores.graph.applied.has key = true)
    (hoffsets : s'.offsets = s.offsets) (hpassed : s'.passed = s.passed) (hs : Steady ingested s) :
    Steady ingested s' := by
  refine ⟨?_, ?_, ?_⟩
  · intro t
    rw [hoffsets, hpassed]
    exact hs.behind t
  · intro t k p hp hk
    rw [hpassed] at hk
    exact hmarks _ (hs.marked t k p hp hk)
  · intro t k hk
    rw [hpassed] at hk
    rw [doneFor_of_log hlog]
    exact hs.untaken t k hk

theorem appliedOnce_of_log {s' : Projector Topic} (hlog : s'.log = s.log)
    (hpassed : s'.passed = s.passed) (h : AppliedOnce mapEvent ingested s) :
    AppliedOnce mapEvent ingested s' := by
  intro t k q hq hk
  rw [hpassed] at hk
  rw [doneFor_of_log hlog]
  exact h t k q hq hk

theorem has_put_of_has {marks : KMap (String × String) Unit} {key key' : String × String}
    (h : marks.has key = true) : (marks.put key' ()).has key = true := by
  rw [KMap.has, KMap.get_put]
  split_ifs
  · rfl
  · exact h

/-- The first record of an event does what it asks for, once. -/
theorem deliver_new (hs : Steady ingested s) (h : AppliedOnce mapEvent ingested s)
    (hrecord : (topics ingested t)[s.offsets t]? = some (.payload p))
    (hnew : s.stores.graph.applied.has p.key = false) :
    Steady ingested (deliver mapEvent ingested s (.consume t)) ∧
      AppliedOnce mapEvent ingested (deliver mapEvent ingested s (.consume t)) := by
  obtain ⟨s', heq, hlog, happlied, hoffsets, hpassed⟩ := consume_new mapEvent hrecord hnew
  have hfirst := not_passed_of_new hs hrecord hnew
  have hmarks : ∀ key, s.stores.graph.applied.has key = true →
      s'.stores.graph.applied.has key = true := by
    intro key hkey
    rw [happlied]
    exact has_put_of_has hkey
  -- records other than this one have done what they had done
  have hothers : ∀ t' k, ¬ (t = t' ∧ s.offsets t = k) → doneFor s' t' k = doneFor s t' k := by
    intro t' k hne
    rw [doneFor_append hlog, if_neg hne]
  have hthis : doneFor s' t (s.offsets t) = wanted mapEvent t p := by
    rw [doneFor_append hlog, if_pos ⟨rfl, rfl⟩, hs.untaken t _ hfirst, List.append_nil]
    rfl
  rcases heq with heq | ⟨hnothing, heq⟩
  · have hadvance : ∀ {t' k}, k < (s'.advance t).passed t' →
        k < s.passed t' ∨ t = t' ∧ s.offsets t = k := by
      intro t' k hk
      rw [← hpassed, ← hoffsets]
      exact lt_passed_advance (hoffsets ▸ hpassed ▸ hs.behind t) hk
    rw [heq]
    refine ⟨⟨?_, ?_, ?_⟩, ?_⟩
    · exact behind_advance fun t' => hoffsets ▸ hpassed ▸ hs.behind t'
    · intro t' k q hq hk
      rcases hadvance hk with hold | ⟨rfl, rfl⟩
      · exact hmarks _ (hs.marked t' k q hq hold)
      · obtain rfl := TopicRecord.payload.inj (Option.some.inj (hrecord.symm.trans hq))
        show s'.stores.graph.applied.has p.key = true
        rw [happlied]
        simp [KMap.has]
    · intro t' k hk
      have hne : ¬ (t = t' ∧ s.offsets t = k) := by
        rintro ⟨rfl, rfl⟩
        have hlt := offsets_lt_passed_advance (s := s') (t := t)
        rw [hoffsets] at hlt
        omega
      show doneFor s' t' k = []
      rw [hothers t' k hne]
      exact hs.untaken t' k (hpassed ▸ (passed_le_advance t').trans hk)
    · intro t' k q hq hk
      show doneFor s' t' k = _
      by_cases hat : t = t' ∧ s.offsets t = k
      · obtain ⟨rfl, rfl⟩ := hat
        obtain rfl := TopicRecord.payload.inj (Option.some.inj (hrecord.symm.trans hq))
        exact hthis
      · rw [hothers t' k hat]
        exact h t' k q hq ((hadvance hk).resolve_right hat)
  · have hlog' : s'.log = s.log := by
      rw [hlog, hnothing]
      rfl
    rw [heq]
    exact ⟨steady_of_log hlog' hmarks hoffsets hpassed hs, appliedOnce_of_log hlog' hpassed h⟩

/-- **One delivery** keeps every record applied once exactly if it suppresses nothing. -/
theorem deliver_iff (hs : Steady ingested s) (h : AppliedOnce mapEvent ingested s) (x : Delivery) :
    Steady ingested (deliver mapEvent ingested s x) ∧
      (AppliedOnce mapEvent ingested (deliver mapEvent ingested s x) ↔
        ¬ Suppresses mapEvent ingested s x) := by
  cases x with
  | again t saved =>
    refine ⟨⟨?_, hs.marked, hs.untaken⟩, iff_of_true h id⟩
    intro t'
    show Function.update s.offsets t (min saved (s.offsets t)) t' ≤ s.passed t'
    by_cases ht : t' = t
    · subst ht
      rw [Function.update_self]
      exact (min_le_right _ _).trans (hs.behind t')
    · rw [Function.update_of_ne ht]
      exact hs.behind t'
  | consume t =>
    cases hrecord : (topics ingested t)[s.offsets t]? with
    | none =>
      have heq : deliver mapEvent ingested s (.consume t) = s := by
        simp [deliver, Projector.step, hrecord]
      rw [heq]
      refine ⟨hs, iff_of_true h ?_⟩
      simp [Suppresses, hrecord]
    | some r =>
      obtain ⟨p, rfl⟩ := payload_of_topics hrecord
      cases hkey : s.stores.graph.applied.has p.key with
      | true =>
        obtain ⟨s', heq, hidle, hoffsets, hpassed⟩ := Projector.step_of_marked mapEvent hrecord hkey
        replace heq : deliver mapEvent ingested s (.consume t) = s'.advance t := heq
        have hs' := steady_of_log hidle.log (fun key hkey => by rwa [hidle.applied]) hoffsets hpassed hs
        have h' := appliedOnce_of_log hidle.log hpassed h
        have hrecord' : (topics ingested t)[s'.offsets t]? = some (.payload p) := hoffsets ▸ hrecord
        rw [heq, appliedOnce_advance_iff hs' h' hrecord', doneFor_of_log hidle.log, hoffsets, hpassed]
        constructor
        · apply steady_advance hs'
          intro q hq
          obtain rfl := TopicRecord.payload.inj (Option.some.inj (hrecord'.symm.trans hq))
          rw [hidle.applied]
          exact hkey
        · simp only [Suppresses, hrecord, hkey, true_and, not_and, not_not]
          constructor
          · intro hdone hfirst
            rw [← hdone hfirst]
            exact hs.untaken t _ hfirst
          · intro hnothing hfirst
            rw [hnothing hfirst]
            exact hs.untaken t _ hfirst
      | false =>
        obtain ⟨hs', h'⟩ := deliver_new hs h hrecord hkey
        refine ⟨hs', iff_of_true h' ?_⟩
        simp [Suppresses, hrecord, hkey]

end Step

/-- **Two topics.** For whatever was ingested and however the two topics are consumed: in every state,
every record that was moved past has been applied once, exactly if at no step the consumer takes, for the
first time, a record with something to do whose event was marked by another record. -/
theorem applied_once_iff (mapEvent : V1CanonicalEvent → GraphMutation)
    (ingested : List (CanonicalEventRecord × DateTime)) (stores : ProjectStores) (xs : List Delivery) :
    Throughout (deliver mapEvent ingested) (AppliedOnce mapEvent ingested)
        (Projector.start (Projector.unmarked stores)) xs ↔
      EachStep (deliver mapEvent ingested) (fun s x => ¬ Suppresses mapEvent ingested s x)
        (Projector.start (Projector.unmarked stores)) xs := by
  apply throughout_iff_of_invariant
  · intro s x hs h
    exact (deliver_iff hs h x).1
  · intro s x hs h
    exact (deliver_iff hs h x).2
  · exact ⟨fun _ => le_rfl, nofun, fun _ _ _ => rfl⟩
  · nofun

/-! ### A deleted user -/

/-- The access record takes the user out of the group `unknown`; the event maps to no mutation. -/
def userDeleted : CanonicalEventRecord :=
  { (default : CanonicalEventRecord) with
    eventId := "e", tenantId := "t", provider := .jira, category := .identity
    eventType := "user_deleted", actor := { globalUserId := "gu_1" }
    attributes := .obj [("event", .str "user_deleted")] }

theorem record_suppressed :
    ¬ Throughout (deliver (fun _ => {}) [(userDeleted, 0)])
      (AppliedOnce (fun _ => {}) [(userDeleted, 0)])
      (Projector.start (Projector.unmarked Projector.emptyStores)) [.consume .raw, .consume .acl] := by
  intro h
  have hrecord : (topics [(userDeleted, 0)] .acl)[0]? = some (.payload (.acl
      { eventId := "e", tenantId := "t", globalUserId := "gu_1", groupId := "unknown"
        provider := "jira", changeType := "removed_from_group", timestamp := 0 })) := by
    rfl
  have hdone := congrArg List.length (h.last .acl 0 _ hrecord (by decide +kernel))
  revert hdone
  decide +kernel

end AiManager.Platform
