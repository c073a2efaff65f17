import AiManager.Graph.MapEvent
import AiManager.Graph.ProjectAll
import Mathlib.Data.Prod.Lex

/-! # Lifecycle states

The rule by which a state is merged looks at the stored state only. Of events that tell different stories
about one entity it keeps the latest, and among those of one time the most final, whatever order they come
in (`lifecycle_convergence`). -/

namespace AiManager.Graph

open Lib

def lifecycleValues : List String := ["OPEN", "CLOSED", "MERGED"]

/-- When a state holds, and among the states of one time how final it is. -/
def stateRank (s : EntityState) : Int ×ₗ Nat :=
  toLex (s.asOf, InMemoryGraphStore.prio s.stateValue)

/-- Events with ids of their own that report a lifecycle value of one entity. -/
structure LifecycleEvents (isAlphanumeric : Char → Bool) (key : String × String × String)
    (events : List V1CanonicalEvent) : Prop where
  ids : (events.map V1CanonicalEvent.eventId).Nodup
  states : ∀ e ∈ events, ∃ s ∈ (mapEvent isAlphanumeric e).states,
    s.key = key ∧ s.stateValue ∈ lifecycleValues

theorem stateRank_le_iff {s t : EntityState} : stateRank s ≤ stateRank t ↔ s.asOf < t.asOf ∨
    s.asOf = t.asOf ∧ InMemoryGraphStore.prio s.stateValue ≤ InMemoryGraphStore.prio t.stateValue :=
  Prod.Lex.toLex_le_toLex

theorem stateValue_inj {s t : EntityState} (hs : s.stateValue ∈ lifecycleValues)
    (ht : t.stateValue ∈ lifecycleValues) (hrank : stateRank s = stateRank t) :
    s.stateValue = t.stateValue := by
  have hprio : InMemoryGraphStore.prio s.stateValue = InMemoryGraphStore.prio t.stateValue :=
    congrArg (fun r => (ofLex r).2) hrank
  have hinj : ∀ v ∈ lifecycleValues, ∀ w ∈ lifecycleValues,
      InMemoryGraphStore.prio v = InMemoryGraphStore.prio w → v = w := by decide
  exact hinj _ hs _ ht hprio

namespace InMemoryGraphStore

/-- Of the states of two events the rule keeps one that the other does not outrank. -/
theorem greatest_settle {a s : EntityState} (hid : a.eventId ≠ s.eventId) :
    Greatest stateRank [a, s] (settle (some a) s) := by
  have hkeep : ∀ {m}, m ∈ [a, s] → stateRank a ≤ stateRank m → stateRank s ≤ stateRank m →
      Greatest stateRank [a, s] m := by
    intro m hmem ha hs
    refine ⟨hmem, fun x hx => ?_⟩
    rcases List.mem_pair.mp hx with rfl | rfl
    · exact ha
    · exact hs
  have hnew : s ∈ [a, s] := List.mem_cons_of_mem _ (List.mem_singleton_self s)
  unfold settle
  dsimp only
  split_ifs with hlater htie hprio
  · exact hkeep List.mem_cons_self le_rfl (stateRank_le_iff.mpr (.inl hlater))
  · simp only [ties, Bool.and_eq_true, decide_eq_true_eq] at htie
    exact hkeep hnew (stateRank_le_iff.mpr (.inr ⟨htie.1.1, hprio⟩)) le_rfl
  · simp only [ties, Bool.and_eq_true, decide_eq_true_eq] at htie
    refine hkeep List.mem_cons_self le_rfl (stateRank_le_iff.mpr (.inr ⟨htie.1.1.symm, ?_⟩))
    exact (not_le.mp hprio).le
  · refine hkeep hnew (stateRank_le_iff.mpr ?_) le_rfl
    rcases (not_lt.mp hlater).lt_or_eq with hlt | heq
    · exact .inl hlt
    · -- two events of one time that agree
      have hvalue : a.stateValue = s.stateValue := by
        by_contra hne
        exact htie (by simp [ties, heq, hid, hne])
      exact .inr ⟨heq, by rw [hvalue]⟩

end InMemoryGraphStore

section Convergence
variable {isAlphanumeric : Char → Bool} {key : String × String × String}
  {events order : List V1CanonicalEvent}

/-- The states that these events write under a key, in their order. -/
def statesOf (isAlphanumeric : Char → Bool) (key : String × String × String)
    (events : List V1CanonicalEvent) : List EntityState :=
  events.flatMap fun e => (mapEvent isAlphanumeric e).statesAt key

theorem mem_statesOf {s : EntityState} : s ∈ statesOf isAlphanumeric key events ↔
    ∃ e ∈ events, s ∈ (mapEvent isAlphanumeric e).states ∧ s.key = key := by
  simp [statesOf, GraphMutation.statesAt, List.mem_flatMap, List.mem_filter]

/-- States of different events. -/
theorem statesOf_pairwise (hids : (events.map V1CanonicalEvent.eventId).Nodup) :
    (statesOf isAlphanumeric key events).Pairwise fun a b => a.eventId ≠ b.eventId := by
  have hevent : ∀ {e s}, s ∈ (mapEvent isAlphanumeric e).statesAt key → s.eventId = e.eventId := by
    intro e s hs
    obtain ⟨-, nodeId, stateKey, value, rfl⟩ := of_mem_mapEvent_states (List.mem_filter.mp hs).1
    rfl
  refine List.pairwise_flatMap.mpr ⟨fun e _ => ?_, ?_⟩
  · refine List.Pairwise.filter _ ?_
    rcases mapEvent_states isAlphanumeric e with hnone | ⟨_, _, _, hone⟩
    · rw [hnone]
      exact .nil
    · rw [hone]
      exact List.pairwise_singleton _ _
  · refine (List.pairwise_map.mp hids).imp fun hne a ha b hb => ?_
    rw [hevent ha, hevent hb]
    exact hne

theorem keys_nodup (hids : (events.map V1CanonicalEvent.eventId).Nodup) :
    ((events.map V1BusPayload.event).map V1BusPayload.key).Nodup := by
  rw [List.map_map]
  refine List.Nodup.of_map Prod.snd ?_
  rw [List.map_map]
  exact hids

/-- **Lifecycle convergence.** -/
theorem lifecycle_convergence (h : LifecycleEvents isAlphanumeric key events)
    (horder : order.Perm events) {top : V1CanonicalEvent} (htop : top ∈ events) {s : EntityState}
    (hs : s ∈ (mapEvent isAlphanumeric top).states)
    (hmax : ∀ e ∈ events, ∀ t ∈ (mapEvent isAlphanumeric e).states, stateRank t ≤ stateRank s) :
    ((projectAll (mapEvent isAlphanumeric) (order.map .event)).graph.states.get key).map
      EntityState.stateValue = some s.stateValue := by
  have hids : (order.map V1CanonicalEvent.eventId).Nodup :=
    (horder.map _).nodup_iff.mpr h.ids
  -- every state of the events is one of the entity
  have hkey : ∀ e ∈ events, ∀ t ∈ (mapEvent isAlphanumeric e).states,
      t.key = key ∧ t.stateValue ∈ lifecycleValues := by
    intro e he t ht
    obtain ⟨u, hu, hukey⟩ := h.states e he
    rw [(of_mem_mapEvent_states ht).1] at hu
    rwa [← List.mem_singleton.mp hu]
  have htops : s ∈ statesOf isAlphanumeric key order :=
    mem_statesOf.mpr ⟨top, horder.mem_iff.mpr htop, hs, (hkey top htop s hs).1⟩
  have hgreatest : Greatest stateRank (statesOf isAlphanumeric key order) s := by
    refine ⟨htops, fun t ht => ?_⟩
    obtain ⟨e, he, hte, -⟩ := mem_statesOf.mp ht
    exact hmax e (horder.mem_iff.mp he) t hte
  obtain ⟨m, hm, hmgreatest⟩ := greatest_register (fun _ => rfl)
    (fun a x => InMemoryGraphStore.greatest_settle) (statesOf_pairwise hids)
    (List.ne_nil_of_mem htops)
  have hstored : (projectAll (mapEvent isAlphanumeric) (order.map .event)).graph.states.get key =
      some m := by
    rw [projectAll_states _ (keys_nodup hids), List.flatMap_map]
    exact hm
  obtain ⟨e, he, hme, -⟩ := mem_statesOf.mp hmgreatest.mem
  rw [hstored, Option.map_some, stateValue_inj (hkey e (horder.mem_iff.mp he) m hme).2
    (hkey top htop s hs).2 (hmgreatest.rank_eq hgreatest fun _ => Iff.rfl)]

/-- An event of the pull request `r/pr/1`. -/
def pullRequestEvent (eventId action : String) (time : DateTime) : V1CanonicalEvent :=
  { eventId := eventId, tenantId := "t", eventType := "pull_request." ++ action,
    eventTimestamp := time, ingestedAt := time, resourceId := "r/pr/1" }

/-- A pull request that is closed and merged at one moment, and whose opening comes last. -/
theorem lifecycle_convergence_opening_last :
    ((projectAll (mapEvent Char.isAlphanum) ([pullRequestEvent "m" "merged" 5,
        pullRequestEvent "c" "closed" 5, pullRequestEvent "o" "opened" 0].map .event)).graph.states.get
      ("t", "pr:r/pr/1", "lifecycle")).map EntityState.stateValue = some "MERGED" := by
  have hstates : ∀ id action time, (mapEvent Char.isAlphanum (pullRequestEvent id action time)).states =
      [eventState (pullRequestEvent id action time) "pr:r/pr/1" "lifecycle"
        (lifecycleOf ("pull_request." ++ action))] := by
    intro id action time
    refine mapEvent_states_of_pullRequest ?_
    simp [isPullRequestEvent, pullRequestEvent]
  have hevents : LifecycleEvents Char.isAlphanum ("t", "pr:r/pr/1", "lifecycle")
      [pullRequestEvent "m" "merged" 5, pullRequestEvent "c" "closed" 5,
        pullRequestEvent "o" "opened" 0] := by
    refine ⟨by decide, fun e he => ?_⟩
    simp only [List.mem_cons, List.not_mem_nil, or_false] at he
    rcases he with rfl | rfl | rfl <;>
      exact ⟨_, by rw [hstates]; exact List.mem_singleton_self _, rfl, by decide⟩
  have hmax : ∀ e ∈ [pullRequestEvent "m" "merged" 5, pullRequestEvent "c" "closed" 5,
      pullRequestEvent "o" "opened" 0], ∀ t ∈ (mapEvent Char.isAlphanum e).states,
      stateRank t ≤ stateRank (eventState (pullRequestEvent "m" "merged" 5) "pr:r/pr/1" "lifecycle"
        (lifecycleOf ("pull_request." ++ "merged"))) := by
    intro e he t ht
    simp only [List.mem_cons, List.not_mem_nil, or_false] at he
    rcases he with rfl | rfl | rfl <;> rw [hstates] at ht <;>
      obtain rfl := List.mem_singleton.mp ht <;> decide
  have htop : eventState (pullRequestEvent "m" "merged" 5) "pr:r/pr/1" "lifecycle"
      (lifecycleOf ("pull_request." ++ "merged")) ∈
      (mapEvent Char.isAlphanum (pullRequestEvent "m" "merged" 5)).states := by
    rw [hstates]
    exact List.mem_singleton_self _
  exact lifecycle_convergence hevents (List.Perm.refl _) List.mem_cons_self htop hmax

end Convergence

end AiManager.Graph
