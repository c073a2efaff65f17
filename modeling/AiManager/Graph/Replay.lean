import AiManager.Graph.Consumers
import AiManager.Graph.Snapshots

/-! # Replay

Records come again, and the stores are taken down and brought back from their snapshots. Whatever the
records map to, the stores end up with what the first record of every event leaves behind
(`replay_idempotent`). -/

namespace AiManager.Graph

open Lib

/-- The outcome of one record, and the stores after it; no call of a store fails. -/
def project (mapEvent : V1CanonicalEvent → GraphMutation) (p : V1BusPayload) (s : ProjectStores) :
    GraphResult ProjectOutcome × ProjectStores :=
  match p with
  | .event event => (projectEvent mapEvent (ProjectStores.engine {}) event).run s
  | .acl rev => (projectAclRevocation (ProjectStores.engine {}) rev).run s

/-- A graph store comes back from its snapshot. -/
def ProjectStores.restartGraph (now : DateTime) (s : ProjectStores) : ProjectStores :=
  { s with graph := InMemoryGraphStore.new.importSnapshot (s.graph.exportSnapshot now) }

def ProjectStores.restartMembership (now : DateTime) (s : ProjectStores) : ProjectStores :=
  { s with membership := InMemoryMembership.new.importSnapshot (s.membership.exportSnapshot now) }

inductive ReplayStep where
  | record (p : V1BusPayload)
  | restartGraph (now : DateTime)
  | restartMembership (now : DateTime)

def replayStep (mapEvent : V1CanonicalEvent → GraphMutation) (s : ProjectStores) :
    ReplayStep → ProjectStores
  | .record p => (project mapEvent p s).2
  | .restartGraph now => s.restartGraph now
  | .restartMembership now => s.restartMembership now

def records : List ReplayStep → List V1BusPayload
  | [] => []
  | .record p :: steps => p :: records steps
  | .restartGraph _ :: steps => records steps
  | .restartMembership _ :: steps => records steps

theorem records_append (xs ys : List ReplayStep) : records (xs ++ ys) = records xs ++ records ys := by
  induction xs with
  | nil => rfl
  | cons x xs ih => cases x <;> simp [records, ih]

/-- The first record of every event that was not seen before. -/
def firstOccurrences (seen : List (String × String)) : List V1BusPayload → List V1BusPayload
  | [] => []
  | p :: ps =>
    if p.key ∈ seen then firstOccurrences seen ps else p :: firstOccurrences (p.key :: seen) ps

/-- The stores have the same nodes, edges, states and memberships, and the same marks. -/
structure ProjectStores.Same (s s' : ProjectStores) : Prop where
  graph : s.graph.Same s'.graph
  membership : s.membership.Same s'.membership

/-- The tenant of the record's membership change can be part of a snapshot's key. -/
def V1BusPayload.PlainTenant (p : V1BusPayload) : Prop :=
  ∀ c ∈ p.change, c.tenantId ≠ "" ∧ '|' ∉ c.tenantId.toList

/-! ## One record -/

section Record
variable {mapEvent : V1CanonicalEvent → GraphMutation} {p : V1BusPayload} {s s' : ProjectStores}

/-- What a record changes in the graph. -/
def V1BusPayload.graphMutation (mapEvent : V1CanonicalEvent → GraphMutation) :
    V1BusPayload → GraphMutation
  | .event ev => mapEvent ev
  | .acl _ => {}

def duplicateOutcome (p : V1BusPayload) : ProjectOutcome :=
  { eventId := p.key.2, tenantId := p.key.1, status := .duplicate }

theorem project_duplicate (hold : s.graph.applied.has p.key = true) :
    project mapEvent p s = (.ok (duplicateOutcome p), s) := by
  cases p <;>
  · simp only [V1BusPayload.key] at hold
    simp [project, projectEvent, projectAclRevocation, run_mk_bind, run_pure, ProjectStores.engine,
      ProjectStores.faulty, ProjectStores.markEventApplied, InMemoryGraphStore.markEventApplied, hold,
      duplicateOutcome, V1BusPayload.key]

/-- The stores are those of the consumers' handling. -/
theorem project_stores : (project mapEvent p s).2 = (handle mapEvent {} p s).2 := by
  let forget : ProjectOutcome → ExceptT GraphError (StateM ProjectStores) Unit := fun _ => pure ()
  have hrun : ∀ x : ExceptT GraphError (StateM ProjectStores) ProjectOutcome,
      ((x >>= forget).run s).2 = (x.run s).2 := by
    intro x
    show (match x.run s with | (r, s') => ExceptT.bindCont forget r s').2 = _
    rcases x.run s with ⟨e | o, s'⟩ <;> rfl
  cases p with
  | event ev => exact (hrun _).symm
  | acl rev => exact (hrun _).symm

theorem isEmpty_applyMutation {m : GraphMutation} (h : m.isEmpty = true) (st : InMemoryGraphStore) :
    st.applyMutation m = st := by
  simp only [GraphMutation.isEmpty, Bool.and_eq_true, List.isEmpty_iff] at h
  unfold InMemoryGraphStore.applyMutation
  rw [h.1.1, h.1.2, h.2]
  rfl

variable (mapEvent) in
theorem project_new (hnew : s.graph.applied.has p.key = false) :
    (project mapEvent p s).2.graph =
        (s.graph.insertApplied p.key).applyMutation (p.graphMutation mapEvent) ∧
      (project mapEvent p s).2.membership = (afterChange {} p.change s).membership := by
  rw [project_stores]
  refine ⟨?_, (handle_new mapEvent rfl hnew).2.2⟩
  cases p with
  | acl rev =>
    have hmark : ({} : Faults).mark = none := rfl
    obtain ⟨r, hrun, -⟩ := handle_acl_new mapEvent hmark hnew
    rw [hrun, afterChange_graph, isEmpty_applyMutation rfl]
    rfl
  | event ev =>
    rw [handle_event_new mapEvent rfl hnew]
    dsimp only
    split
    · next hempty =>
      rw [afterChange_graph, V1BusPayload.graphMutation, isEmpty_applyMutation hempty]
      rfl
    · show (afterChange {} _ _).graph.applyMutation _ = _
      rw [afterChange_graph]
      rfl

theorem afterChange_membership (change : Option MembershipChange) :
    (afterChange {} change s).membership =
      match change with
      | some c => s.membership.changed c.tenantId c.globalUserId c.groupId c.changeType
      | none => s.membership := by
  cases change <;> rfl

end Record

/-! ### Memberships after a change -/

namespace InMemoryMembership

section Change
variable {st st' : InMemoryMembership} {tenantId globalUserId groupId changeType : String}

theorem Same.changed (h : Same st st') : Same (st.changed tenantId globalUserId groupId changeType)
    (st'.changed tenantId globalUserId groupId changeType) := by
  rw [changed_eq, changed_eq]
  split_ifs
  · exact h
  · intro key
    unfold removeGroup
    rw [h (tenantId, globalUserId)]
    cases st'.map.get (tenantId, globalUserId) with
    | none => exact h key
    | some groups =>
      dsimp only
      rw [KMap.get_put, KMap.get_put, h key]
  · intro key
    unfold addGroup
    dsimp only
    rw [h (tenantId, globalUserId), KMap.get_put, KMap.get_put, h key]
  · exact h

theorem plain_put {groups : Finset String} (h : st.Plain) {key : String × String} (hkey : PlainKey key) :
    Plain ⟨st.map.put key groups⟩ := by
  intro k hk
  obtain ⟨v, hv⟩ := KMap.has_iff.mp hk
  rw [KMap.get_put] at hv
  split_ifs at hv with heq
  · rwa [heq]
  · exact h k (KMap.has_iff.mpr ⟨v, hv⟩)

theorem Plain.changed (h : st.Plain) (htenant : tenantId ≠ "") (hpipe : '|' ∉ tenantId.toList) :
    (st.changed tenantId globalUserId groupId changeType).Plain := by
  rw [changed_eq]
  split_ifs with hnobody
  · exact h
  · unfold removeGroup
    split
    · exact plain_put h ⟨htenant, hpipe, (not_or.mp hnobody).1⟩
    · exact h
  · exact plain_put h ⟨htenant, hpipe, (not_or.mp hnobody).1⟩
  · exact h

end Change

end InMemoryMembership

/-! ## Runs -/

section Runs
variable {mapEvent : V1CanonicalEvent → GraphMutation} {p : V1BusPayload} {s s' : ProjectStores}
  {seen : List (String × String)}

/-- What holds of the stores of a run that has seen these events. -/
structure Seen (seen : List (String × String)) (s : ProjectStores) : Prop where
  edges : s.graph.EdgesFiled
  plain : s.membership.Plain
  marks : ∀ key, s.graph.applied.has key = true ↔ key ∈ seen

theorem has_congr {m m' : KMap (String × String) Unit} (h : ∀ key, m.get key = m'.get key)
    (key : String × String) : m.has key = m'.has key := by
  unfold KMap.has
  rw [h]

theorem Seen.project_old (h : Seen seen s) (hold : p.key ∈ seen) :
    project mapEvent p s = (.ok (duplicateOutcome p), s) :=
  project_duplicate ((h.marks _).mpr hold)

theorem Seen.project_new (h : Seen seen s) (hnew : p.key ∉ seen) (hplain : p.PlainTenant) :
    Seen (p.key :: seen) (project mapEvent p s).2 := by
  have hmark : s.graph.applied.has p.key = false := by
    rw [Bool.eq_false_iff]
    exact fun hold => hnew ((h.marks _).mp hold)
  obtain ⟨hgraph, hmembership⟩ := AiManager.Graph.project_new mapEvent hmark
  refine ⟨?_, ?_, ?_⟩
  · rw [hgraph]
    have hmarked : (s.graph.insertApplied p.key).EdgesFiled := h.edges.of_edges rfl
    exact hmarked.applyMutation _
  · rw [hmembership, afterChange_membership]
    cases hchange : p.change with
    | none => exact h.plain
    | some c =>
      obtain ⟨htenant, hpipe⟩ := hplain c hchange
      exact h.plain.changed htenant hpipe
  · intro key
    rw [hgraph, InMemoryGraphStore.applyMutation_applied, KMap.has_iff, List.mem_cons, ← h.marks key,
      KMap.has_iff]
    show (∃ v, (s.graph.applied.put p.key ()).get key = some v) ↔ _
    rw [KMap.get_put]
    split_ifs with hkey <;> simp [hkey]

theorem ProjectStores.Same.project (h : s.Same s') (hnew : s.graph.applied.has p.key = false) :
    (AiManager.Graph.project mapEvent p s).2.Same (AiManager.Graph.project mapEvent p s').2 := by
  have hnew' : s'.graph.applied.has p.key = false := by
    rw [← has_congr h.graph.applied]
    exact hnew
  obtain ⟨hgraph, hmembership⟩ := project_new mapEvent hnew
  obtain ⟨hgraph', hmembership'⟩ := project_new mapEvent hnew'
  refine ⟨?_, ?_⟩
  · rw [hgraph, hgraph']
    refine InMemoryGraphStore.Same.applyMutation ?_ _
    refine ⟨fun key => ?_, h.graph.nodes, h.graph.edges, h.graph.states⟩
    show (s.graph.applied.put p.key ()).get key = (s'.graph.applied.put p.key ()).get key
    rw [KMap.get_put, KMap.get_put, h.graph.applied]
  · rw [hmembership, hmembership', afterChange_membership, afterChange_membership]
    cases p.change with
    | none => exact h.membership
    | some c => exact h.membership.changed

theorem Seen.restartGraph (h : Seen seen s) (now : DateTime) :
    Seen seen (s.restartGraph now) ∧ (s.restartGraph now).Same s := by
  have hsame := InMemoryGraphStore.same_import_export h.edges now
  refine ⟨⟨h.edges.congr hsame.symm, h.plain, fun key => ?_⟩, hsame, fun _ => rfl⟩
  rw [← h.marks key]
  exact Bool.eq_iff_iff.mp (has_congr hsame.applied key)

theorem Seen.restartMembership (h : Seen seen s) (now : DateTime) :
    Seen seen (s.restartMembership now) ∧ (s.restartMembership now).Same s := by
  have hsame := InMemoryMembership.same_import_export h.plain .new now
  refine ⟨⟨h.edges, fun key hkey => h.plain key ?_, h.marks⟩, .refl _, hsame⟩
  obtain ⟨groups, hgroups⟩ := KMap.has_iff.mp hkey
  exact KMap.has_iff.mpr ⟨groups, (hsame key).symm.trans hgroups⟩

theorem ProjectStores.Same.trans {s'' : ProjectStores} (h : s.Same s') (h' : s'.Same s'') : s.Same s'' :=
  ⟨h.graph.trans h'.graph, fun key => (h.membership key).trans (h'.membership key)⟩

/-- One run with repetitions and restarts beside one without. -/
theorem replay_same (steps : List ReplayStep) (hplain : ∀ p ∈ records steps, p.PlainTenant) :
    ∀ {seen s s'}, Seen seen s → s.Same s' →
      (runFrom (replayStep mapEvent) s steps).Same (runFrom (replayStep mapEvent) s'
        ((firstOccurrences seen (records steps)).map .record)) := by
  induction steps with
  | nil => intro seen s s' _ hsame; exact hsame
  | cons step steps ih =>
    intro seen s s' hs hsame
    cases step with
    | record p =>
      have hrest : ∀ q ∈ records steps, q.PlainTenant := fun q hq =>
        hplain q (List.mem_cons_of_mem _ hq)
      show (runFrom (replayStep mapEvent) (project mapEvent p s).2 steps).Same
        (runFrom (replayStep mapEvent) s' ((if p.key ∈ seen then firstOccurrences seen (records steps)
          else p :: firstOccurrences (p.key :: seen) (records steps)).map .record))
      -- `Seen` says that the marks are these keys; `Same` carries the new records across
      by_cases hold : p.key ∈ seen
      · rw [if_pos hold, hs.project_old hold]
        exact ih hrest hs hsame
      · rw [if_neg hold]
        have hnew : s.graph.applied.has p.key = false := by
          rw [Bool.eq_false_iff]
          exact fun hmark => hold ((hs.marks _).mp hmark)
        exact ih hrest (hs.project_new hold (hplain p List.mem_cons_self)) (hsame.project hnew)
    | restartGraph now =>
      obtain ⟨hs', hsame'⟩ := hs.restartGraph now
      exact ih hplain hs' (hsame'.trans hsame)
    | restartMembership now =>
      obtain ⟨hs', hsame'⟩ := hs.restartMembership now
      exact ih hplain hs' (hsame'.trans hsame)

variable (mapEvent) in
/-- A run has seen its records. -/
theorem seen_run (steps : List ReplayStep) (hplain : ∀ p ∈ records steps, p.PlainTenant) :
    ∀ {seen s}, Seen seen s → ∃ seen', Seen seen' (runFrom (replayStep mapEvent) s steps) ∧
      ∀ key, key ∈ seen' ↔ key ∈ (records steps).map V1BusPayload.key ∨ key ∈ seen := by
  induction steps with
  | nil => intro seen s hs; exact ⟨seen, hs, by simp [records]⟩
  | cons step steps ih =>
    intro seen s hs
    cases step with
    | record p =>
      have hrest : ∀ q ∈ records steps, q.PlainTenant := fun q hq =>
        hplain q (List.mem_cons_of_mem _ hq)
      -- a record with a known key leaves the stores alone, and any other makes its key known
      by_cases hold : p.key ∈ seen
      · obtain ⟨seen', hseen', hkeys⟩ := ih hrest hs
        have hstep : replayStep mapEvent s (.record p) = s := by
          show (project mapEvent p s).2 = s
          rw [hs.project_old hold]
        refine ⟨seen', ?_, fun key => ?_⟩
        · show Seen seen' (runFrom (replayStep mapEvent) (replayStep mapEvent s (.record p)) steps)
          rw [hstep]
          exact hseen'
        · rw [hkeys]
          simp only [records, List.map_cons, List.mem_cons]
          constructor
          · rintro (h | h)
            · exact .inl (.inr h)
            · exact .inr h
          · rintro ((rfl | h) | h)
            · exact .inr hold
            · exact .inl h
            · exact .inr h
      · obtain ⟨seen', hseen', hkeys⟩ :=
          ih hrest (hs.project_new hold (hplain p List.mem_cons_self))
        refine ⟨seen', hseen', fun key => ?_⟩
        rw [hkeys]
        simp only [records, List.map_cons, List.mem_cons]
        tauto
    | restartGraph now => exact ih hplain (hs.restartGraph now).1
    | restartMembership now => exact ih hplain (hs.restartMembership now).1

theorem seen_emptyStores : Seen [] Projector.emptyStores := by
  refine ⟨InMemoryGraphStore.edgesFiled_new, fun key hkey => ?_, fun key => ?_⟩
  · obtain ⟨groups, hgroups⟩ := KMap.has_iff.mp hkey
    simp [Projector.emptyStores, InMemoryMembership.new] at hgroups
  · simp [KMap.has_iff, Projector.emptyStores, InMemoryGraphStore.new]

end Runs

/-- **Replay.** Repetitions and restarts leave no trace in the stores; a tenant's edges keep their ids
apart; and a repeated record is reported as a duplicate that upserts nothing. -/
theorem replay_idempotent (mapEvent : V1CanonicalEvent → GraphMutation) (steps : List ReplayStep)
    (hplain : ∀ p ∈ records steps, p.PlainTenant) :
    (runFrom (replayStep mapEvent) Projector.emptyStores steps).Same
      (runFrom (replayStep mapEvent) Projector.emptyStores
        ((firstOccurrences [] (records steps)).map .record)) ∧
    (∀ tenantId, (((runFrom (replayStep mapEvent) Projector.emptyStores steps).graph.allEdges
      tenantId).map GraphEdge.edgeId).Nodup) ∧
    ∀ before p after, steps = before ++ .record p :: after →
      p.key ∈ (records before).map V1BusPayload.key →
      (project mapEvent p (runFrom (replayStep mapEvent) Projector.emptyStores before)).1 =
        .ok { eventId := p.key.2, tenantId := p.key.1, status := .duplicate,
              nodesUpserted := 0, edgesUpserted := 0 } := by
  refine ⟨replay_same steps hplain seen_emptyStores ⟨.refl _, fun _ => rfl⟩, ?_, ?_⟩
  · obtain ⟨seen, hseen, -⟩ := seen_run mapEvent steps hplain seen_emptyStores
    exact hseen.edges.once
  · rintro before p after rfl hrepeated
    have hbefore : ∀ q ∈ records before, q.PlainTenant := by
      intro q hq
      refine hplain q ?_
      rw [records_append]
      exact List.mem_append_left _ hq
    obtain ⟨seen, hseen, hkeys⟩ := seen_run mapEvent before hbefore seen_emptyStores
    rw [hseen.project_old ((hkeys p.key).mpr (.inl hrepeated))]
    rfl

/-- User `u` joins a group, twice, with a restart of both stores in between. -/
theorem replay_idempotent_joining :
    let joining : V1BusPayload := .acl
      { eventId := "e", tenantId := "t", globalUserId := "u", groupId := "g",
        changeType := "added_to_group", timestamp := 0 }
    let steps : List ReplayStep :=
      [.record joining, .restartGraph 0, .restartMembership 0, .record joining]
    (∀ p ∈ records steps, p.PlainTenant) ∧
    (runFrom (replayStep fun _ => {}) Projector.emptyStores steps).Same
      (runFrom (replayStep fun _ => {}) Projector.emptyStores [.record joining]) := by
  intro joining steps
  have hplain : ∀ p ∈ records steps, p.PlainTenant := by
    intro p hp
    have hp' : p = joining := by simpa [records, steps] using hp
    rw [hp']
    intro c hc
    have hc' : c = ⟨"t", "u", "g", "added_to_group"⟩ := (Option.some.inj hc).symm
    rw [hc']
    exact ⟨by decide, by decide⟩
  exact ⟨hplain, (replay_idempotent (fun _ => {}) steps hplain).1⟩

end AiManager.Graph
