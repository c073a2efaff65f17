import AiManager.Graph.Replay
import AiManager.Lib.Register

/-! # New records, one after the other

The stores after records none of which repeats another: each of them is applied. What the graph holds
under one key is then a register that the records write to, and only the states look at what is held. -/

namespace AiManager.Graph

open Lib

/-! ## The rows of a mutation under one key -/

/-- The `edges` of a tenant are told apart by their ids. -/
def GraphEdge.key (e : GraphEdge) : String × String := (e.tenantId, e.edgeId)

namespace GraphMutation

def nodesAt (m : GraphMutation) (key : String × String) : List GraphNode :=
  m.nodes.filter fun n => n.key = key

def edgesAt (m : GraphMutation) (key : String × String) : List GraphEdge :=
  m.edges.filter fun e => e.key = key

def statesAt (m : GraphMutation) (key : String × String × String) : List EntityState :=
  m.states.filter fun s => s.key = key

end GraphMutation

namespace InMemoryGraphStore

/-- The edge with this id, among those of its tenant. -/
def getEdge (st : InMemoryGraphStore) (key : String × String) : Option GraphEdge :=
  (st.allEdges key.1).find? fun e => e.edgeId = key.2

theorem find?_upsertEdge (e : GraphEdge) (id : String) (es : List GraphEdge) :
    (upsertEdge e es).find? (fun x => x.edgeId = id) =
      if e.edgeId = id then some e else es.find? fun x => x.edgeId = id := by
  induction es with
  | nil =>
    by_cases h : e.edgeId = id <;> simp [upsertEdge, h]
  | cons x xs ih =>
    unfold upsertEdge
    by_cases hx : x.edgeId = e.edgeId
    · rw [if_pos hx]
      by_cases h : e.edgeId = id
      · simp [h]
      · simp [h, hx]
    · rw [if_neg hx]
      by_cases hxid : x.edgeId = id
      · have he : ¬ e.edgeId = id := fun h => hx (hxid.trans h.symm)
        simp [hxid, he]
      · simp [hxid, ih]

section Registers
variable (st : InMemoryGraphStore) (m : GraphMutation)

/-- A node is overwritten. -/
theorem applyMutation_nodes (key : String × String) : (st.applyMutation m).nodes.get key =
    register (fun _ n => n) (st.nodes.get key) (m.nodesAt key) := by
  unfold applyMutation
  rw [foldl_keeps mergeState nodes fun st s => (mergeState_frame st s).2.1,
    foldl_keeps insertEdge nodes fun _ _ => rfl]
  refine read_foldl_filter (fun st : InMemoryGraphStore => st.nodes.get key) (fun n => n.key = key) (fun st n hn => ?_)
    (fun st n hn => ?_) m.nodes st
  · rw [← of_decide_eq_true hn]
    exact Table.get_put_self _ _
  · exact Table.get_put_ne _ (Ne.symm (of_decide_eq_false hn))

/-- An edge is overwritten. -/
theorem applyMutation_edges (key : String × String) : (st.applyMutation m).getEdge key =
    register (fun _ e => e) (st.getEdge key) (m.edgesAt key) := by
  have hmerge : ∀ st s, (mergeState st s).getEdge key = st.getEdge key := by
    intro st s
    unfold getEdge allEdges
    rw [(mergeState_frame st s).2.2]
  -- neither the nodes nor the states touch the edges
  have hnodes : (m.nodes.foldl insertNode st).getEdge key = st.getEdge key :=
    foldl_keeps insertNode (getEdge · key) (fun _ _ => rfl) _ st
  unfold applyMutation
  rw [foldl_keeps mergeState (getEdge · key) hmerge, ← hnodes]
  refine read_foldl_filter (fun st : InMemoryGraphStore => st.getEdge key) (fun e => e.key = key) ?_ ?_ m.edges _
  · intro st e he
    obtain rfl := of_decide_eq_true he
    have htenant : e.key.1 = e.tenantId := rfl
    unfold getEdge
    rw [allEdges_insertEdge, if_pos htenant, find?_upsertEdge]
    exact if_pos rfl
  · intro st e he
    have hkey := of_decide_eq_false he
    unfold getEdge
    rw [allEdges_insertEdge]
    split_ifs with htenant
    · rw [find?_upsertEdge, if_neg]
      intro hid
      exact hkey (Prod.ext htenant.symm hid)
    · rfl

/-- A state is merged. -/
theorem applyMutation_states (key : String × String × String) : (st.applyMutation m).states.get key =
    register settle (st.states.get key) (m.statesAt key) := by
  have hframe : (m.edges.foldl insertEdge (m.nodes.foldl insertNode st)).states = st.states := by
    rw [foldl_keeps insertEdge states fun _ _ => rfl,
      foldl_keeps insertNode states fun _ _ => rfl]
  unfold applyMutation
  rw [← hframe]
  refine read_foldl_filter (fun st : InMemoryGraphStore => st.states.get key) (fun s => s.key = key) ?_ ?_ m.states _
  · intro st s hs
    rw [← of_decide_eq_true hs]
    exact mergeState_get_self st s
  · intro st s hs
    exact mergeState_get_ne st (Ne.symm (of_decide_eq_false hs))

theorem settle_eq_or_held (held : Option EntityState) (s : EntityState) :
    settle held s = s ∨ held = some (settle held s) := by
  unfold settle
  split
  · exact .inl rfl
  · split_ifs
    · exact .inr rfl
    · exact .inl rfl
    · exact .inr rfl
    · exact .inl rfl

/-- A state was there before or is one that the mutation reports. -/
theorem applyMutation_states_or (key : String × String × String) :
    (st.applyMutation m).states.get key = st.states.get key ∨
      ∃ s ∈ m.states, (st.applyMutation m).states.get key = some s := by
  rw [applyMutation_states]
  refine (register_eq_or_mem settle_eq_or_held).imp_right ?_
  rintro ⟨s, hs, heq⟩
  exact ⟨s, (List.mem_filter.mp hs).1, heq⟩

end Registers

end InMemoryGraphStore

/-! ## Runs -/

section Runs
variable (mapEvent : V1CanonicalEvent → GraphMutation)

/-- The stores after these records, starting from nothing. -/
def projectAll (ps : List V1BusPayload) : ProjectStores :=
  runFrom (fun s p => (project mapEvent p s).2) Projector.emptyStores ps

/-- What a new record does to the graph. -/
def applyRecord (st : InMemoryGraphStore) (p : V1BusPayload) : InMemoryGraphStore :=
  (st.insertApplied p.key).applyMutation (p.graphMutation mapEvent)

theorem applyRecord_applied (st : InMemoryGraphStore) (p : V1BusPayload) :
    (applyRecord mapEvent st p).applied = st.applied.put p.key () :=
  InMemoryGraphStore.applyMutation_applied _ _

theorem graph_run {ps : List V1BusPayload} (hkeys : (ps.map V1BusPayload.key).Nodup) :
    ∀ {s : ProjectStores}, (∀ p ∈ ps, s.graph.applied.has p.key = false) →
      (runFrom (fun s p => (project mapEvent p s).2) s ps).graph =
        ps.foldl (applyRecord mapEvent) s.graph := by
  induction ps with
  | nil => intro s _; rfl
  | cons p ps ih =>
    intro s hnew
    obtain ⟨hp, hps⟩ := List.nodup_cons.mp hkeys
    have hgraph : (project mapEvent p s).2.graph = applyRecord mapEvent s.graph p :=
      (project_new mapEvent (hnew p List.mem_cons_self)).1
    show (runFrom (fun s p => (project mapEvent p s).2) (project mapEvent p s).2 ps).graph = _
    rw [ih hps, hgraph, List.foldl_cons]
    intro q hq
    have hne : q.key ≠ p.key := by
      intro heq
      exact hp (List.mem_map.mpr ⟨q, hq, heq⟩)
    have hold := hnew q (List.mem_cons_of_mem _ hq)
    rw [hgraph, applyRecord_applied, KMap.has_eq_false_iff, KMap.get_put_ne _ _ hne,
      ← KMap.has_eq_false_iff]
    exact hold

variable {ps : List V1BusPayload}

theorem projectAll_graph (hkeys : (ps.map V1BusPayload.key).Nodup) :
    (projectAll mapEvent ps).graph = ps.foldl (applyRecord mapEvent) .new := by
  refine graph_run mapEvent hkeys fun p _ => ?_
  exact KMap.has_eq_false_iff.mpr (KMap.get_empty _)

/-- A node is what was written last. -/
theorem projectAll_nodes (hkeys : (ps.map V1BusPayload.key).Nodup) (key : String × String) :
    (projectAll mapEvent ps).graph.nodes.get key =
      (ps.flatMap fun p => (p.graphMutation mapEvent).nodesAt key).getLast? := by
  have hstep : ∀ st p, (applyRecord mapEvent st p).nodes.get key = register (fun _ n => n)
      (st.nodes.get key) ((p.graphMutation mapEvent).nodesAt key) :=
    fun _ _ => InMemoryGraphStore.applyMutation_nodes _ _ key
  rw [projectAll_graph mapEvent hkeys,
    read_foldl (fun st : InMemoryGraphStore => st.nodes.get key) _ hstep,
    register_last fun _ _ => rfl]
  exact (congrArg _ (Table.get_empty key)).trans Option.or_none

/-- An edge is what was written last. -/
theorem projectAll_edges (hkeys : (ps.map V1BusPayload.key).Nodup) (key : String × String) :
    (projectAll mapEvent ps).graph.getEdge key =
      (ps.flatMap fun p => (p.graphMutation mapEvent).edgesAt key).getLast? := by
  have hstep : ∀ st p, (applyRecord mapEvent st p).getEdge key = register (fun _ e => e)
      (st.getEdge key) ((p.graphMutation mapEvent).edgesAt key) :=
    fun _ _ => InMemoryGraphStore.applyMutation_edges _ _ key
  rw [projectAll_graph mapEvent hkeys,
    read_foldl (fun st : InMemoryGraphStore => st.getEdge key) _ hstep,
    register_last fun _ _ => rfl]
  exact Option.or_none

theorem projectAll_states (hkeys : (ps.map V1BusPayload.key).Nodup)
    (key : String × String × String) :
    (projectAll mapEvent ps).graph.states.get key = register InMemoryGraphStore.settle none
      (ps.flatMap fun p => (p.graphMutation mapEvent).statesAt key) := by
  have hstep : ∀ st p, (applyRecord mapEvent st p).states.get key =
      register InMemoryGraphStore.settle (st.states.get key)
        ((p.graphMutation mapEvent).statesAt key) :=
    fun _ _ => InMemoryGraphStore.applyMutation_states _ _ key
  rw [projectAll_graph mapEvent hkeys]
  exact read_foldl (fun st : InMemoryGraphStore => st.states.get key) _ hstep ps .new

end Runs

/-! ## Edges of a run -/

section Edges
variable {mapEvent : V1CanonicalEvent → GraphMutation} {ps : List V1BusPayload}

variable (mapEvent) in
theorem edgesFiled_projectAll (hkeys : (ps.map V1BusPayload.key).Nodup) :
    (projectAll mapEvent ps).graph.EdgesFiled := by
  rw [projectAll_graph _ hkeys]
  refine InMemoryGraphStore.EdgesFiled.foldl (fun p hs => ?_) ps InMemoryGraphStore.edgesFiled_new
  have hmarked : (InMemoryGraphStore.insertApplied _ p.key).EdgesFiled := hs.of_edges rfl
  exact hmarked.applyMutation _

/-- An edge is read back under its id. -/
theorem InMemoryGraphStore.EdgesFiled.getEdge_of_mem {st : InMemoryGraphStore} (h : st.EdgesFiled)
    {e : GraphEdge} (he : e ∈ st.allEdges e.tenantId) : st.getEdge e.key = some e := by
  have hsome : (st.getEdge e.key).isSome = true :=
    List.find?_isSome.mpr ⟨e, he, decide_eq_true rfl⟩
  obtain ⟨x, hx⟩ := Option.isSome_iff_exists.mp hsome
  have hid : x.edgeId = e.edgeId :=
    of_decide_eq_true (List.find?_some (p := fun x : GraphEdge => x.edgeId = e.edgeId) hx)
  have hmem : x ∈ st.allEdges e.tenantId := List.mem_of_find?_eq_some hx
  rw [hx, List.inj_on_of_nodup_map (h.once e.tenantId) hmem he hid]

/-- An edge of the store is one that an event mapped to. -/
theorem mem_allEdges_projectAll (hkeys : (ps.map V1BusPayload.key).Nodup)
    {tenantId : String} {e : GraphEdge}
    (he : e ∈ (projectAll mapEvent ps).graph.allEdges tenantId) :
    e.tenantId = tenantId ∧ ∃ p ∈ ps, e ∈ (p.graphMutation mapEvent).edges := by
  have hfiled := edgesFiled_projectAll mapEvent hkeys
  have htenant := hfiled.tenant tenantId e he
  rw [← htenant] at he
  have hstored := hfiled.getEdge_of_mem he
  rw [projectAll_edges _ hkeys] at hstored
  obtain ⟨p, hp, hmem⟩ := List.mem_flatMap.mp (List.mem_of_getLast? hstored)
  exact ⟨htenant, p, hp, (List.mem_filter.mp hmem).1⟩

variable (mapEvent) in
/-- What an event mapped to is still there under its id, or was replaced by an edge of another event. -/
theorem exists_allEdges_projectAll (hkeys : (ps.map V1BusPayload.key).Nodup)
    {p : V1BusPayload} (hp : p ∈ ps) {e : GraphEdge}
    (he : e ∈ (p.graphMutation mapEvent).edges) :
    ∃ e' ∈ (projectAll mapEvent ps).graph.allEdges e.tenantId, e'.key = e.key ∧
      ∃ p' ∈ ps, e' ∈ (p'.graphMutation mapEvent).edges := by
  have hwritten : e ∈ ps.flatMap fun p => (p.graphMutation mapEvent).edgesAt e.key :=
    List.mem_flatMap.mpr ⟨p, hp, List.mem_filter.mpr ⟨he, decide_eq_true rfl⟩⟩
  obtain ⟨e', hlast⟩ := List.getLast?_isSome.mpr (List.ne_nil_of_mem hwritten) |>
    Option.isSome_iff_exists.mp
  obtain ⟨p', hp', hmem⟩ := List.mem_flatMap.mp (List.mem_of_getLast? hlast)
  have hstored := (projectAll_edges mapEvent hkeys e.key).trans hlast
  exact ⟨e', List.mem_of_find?_eq_some hstored, of_decide_eq_true (List.mem_filter.mp hmem).2, p', hp',
    (List.mem_filter.mp hmem).1⟩

end Edges

/-! ## Runs with repetitions -/

section FirstOccurrences
variable {seen : List (String × String)} {ps : List V1BusPayload}

theorem mem_firstOccurrences {p : V1BusPayload} (h : p ∈ firstOccurrences seen ps) :
    p ∈ ps ∧ p.key ∉ seen := by
  induction ps generalizing seen with
  | nil => cases h
  | cons q ps ih =>
    unfold firstOccurrences at h
    split_ifs at h with hq
    · exact ⟨List.mem_cons_of_mem _ (ih h).1, (ih h).2⟩
    · rcases List.mem_cons.mp h with rfl | h
      · exact ⟨List.mem_cons_self, hq⟩
      · exact ⟨List.mem_cons_of_mem _ (ih h).1, fun hold => (ih h).2 (List.mem_cons_of_mem _ hold)⟩

theorem firstOccurrences_keys (seen : List (String × String)) (ps : List V1BusPayload) :
    ((firstOccurrences seen ps).map V1BusPayload.key).Nodup := by
  induction ps generalizing seen with
  | nil => exact List.nodup_nil
  | cons q ps ih =>
    unfold firstOccurrences
    split_ifs with hq
    · exact ih seen
    · refine List.nodup_cons.mpr ⟨?_, ih _⟩
      intro hmem
      obtain ⟨p, hp, hkey⟩ := List.mem_map.mp hmem
      refine (mem_firstOccurrences hp).2 ?_
      rw [hkey]
      exact List.mem_cons_self

theorem runFrom_firstOccurrences (mapEvent : V1CanonicalEvent → GraphMutation) (ps : List V1BusPayload) :
    ∀ {seen s}, (∀ key, s.graph.applied.has key = true ↔ key ∈ seen) →
      runFrom (fun s p => (project mapEvent p s).2) s ps =
        runFrom (fun s p => (project mapEvent p s).2) s (firstOccurrences seen ps) := by
  induction ps with
  | nil => intro seen s _; rfl
  | cons p ps ih =>
    intro seen s hs
    show runFrom _ (project mapEvent p s).2 ps = _
    unfold firstOccurrences
    split_ifs with hp
    · rw [project_duplicate ((hs _).mpr hp)]
      exact ih hs
    · show _ = runFrom _ (project mapEvent p s).2 _
      apply ih
      -- the marks are the keys of what was seen
      have hnew : s.graph.applied.has p.key = false := by
        rw [Bool.eq_false_iff]
        exact fun hold => hp ((hs _).mp hold)
      intro key
      rw [(project_new mapEvent hnew).1, InMemoryGraphStore.applyMutation_applied, KMap.has_iff,
        List.mem_cons, ← hs key, KMap.has_iff]
      show (∃ v, (s.graph.applied.put p.key ()).get key = some v) ↔ _
      rw [KMap.get_put]
      split_ifs with hkey <;> simp [hkey]

/-- Repetitions leave no trace. -/
theorem projectAll_firstOccurrences (mapEvent : V1CanonicalEvent → GraphMutation) (ps : List V1BusPayload) :
    projectAll mapEvent ps = projectAll mapEvent (firstOccurrences [] ps) :=
  runFrom_firstOccurrences mapEvent ps seen_emptyStores.marks

end FirstOccurrences

/-! ## Memberships of a run -/

section Memberships
variable {mapEvent : V1CanonicalEvent → GraphMutation} {ps : List V1BusPayload} {t u g : String}

/-- The changes of one user's membership in one group. -/
def changesOf (t u g : String) (ps : List V1BusPayload) : List MembershipChange :=
  (ps.filterMap V1BusPayload.change).filter fun c =>
    c.tenantId = t ∧ c.globalUserId = u ∧ c.groupId = g

theorem valid_of_change {p : V1BusPayload} {c : MembershipChange} (h : p.change = some c) : c.Valid := by
  cases p with
  | event event =>
    unfold V1BusPayload.change changeOfEvent at h
    dsimp only at h
    split_ifs at h
    exact valid_of_identityEvent h
  | acl rev =>
    unfold V1BusPayload.change changeOfRevocation at h
    dsimp only at h
    split_ifs at h with hvalid
    rw [← Option.some.inj h]
    exact hvalid

/-- The memberships after a change. -/
def afterMembershipChange (st : InMemoryMembership) (c : MembershipChange) : InMemoryMembership :=
  st.changed c.tenantId c.globalUserId c.groupId c.changeType

theorem membership_run (hkeys : (ps.map V1BusPayload.key).Nodup) :
    ∀ {s : ProjectStores}, (∀ p ∈ ps, s.graph.applied.has p.key = false) →
      (runFrom (fun s p => (project mapEvent p s).2) s ps).membership =
        (ps.filterMap V1BusPayload.change).foldl afterMembershipChange s.membership := by
  induction ps with
  | nil => intro s _; rfl
  | cons p ps ih =>
    intro s hnew
    obtain ⟨hp, hps⟩ := List.nodup_cons.mp hkeys
    obtain ⟨hgraph, hmembership⟩ := project_new mapEvent (hnew p List.mem_cons_self)
    show (runFrom (fun s p => (project mapEvent p s).2) (project mapEvent p s).2 ps).membership = _
    rw [ih hps, hmembership, afterChange_membership, List.filterMap_cons]
    · cases p.change <;> rfl
    · intro q hq
      have hne : q.key ≠ p.key := by
        intro heq
        exact hp (List.mem_map.mpr ⟨q, hq, heq⟩)
      have hold := hnew q (List.mem_cons_of_mem _ hq)
      rw [hgraph, InMemoryGraphStore.applyMutation_applied, KMap.has_eq_false_iff]
      exact (KMap.get_put_ne _ _ hne).trans (KMap.has_eq_false_iff.mp hold)

/-- The last change of a membership decides. -/
theorem mem_getGroups_foldl {cs : List MembershipChange} (hvalid : ∀ c ∈ cs, c.Valid) :
    g ∈ (cs.foldl afterMembershipChange .new).getGroups t u ↔
      ∃ c, (cs.filter fun c => c.tenantId = t ∧ c.globalUserId = u ∧ c.groupId = g).getLast? = some c ∧
        c.changeType = "added_to_group" := by
  induction cs using List.reverseRecOn with
  | nil => simp [InMemoryMembership.getGroups, InMemoryMembership.new]
  | append_singleton cs c ih =>
    have ih' := ih fun c' hc' => hvalid c' (List.mem_append_left _ hc')
    obtain ⟨huser, hgroup, htype⟩ := hvalid c (List.mem_append_right _ (List.mem_singleton_self c))
    rw [List.foldl_append, List.foldl_cons, List.foldl_nil, afterMembershipChange,
      InMemoryMembership.getGroups_changed, List.filter_append]
    by_cases hkey : c.tenantId = t ∧ c.globalUserId = u
    · obtain ⟨rfl, rfl⟩ := hkey
      rw [if_pos ⟨rfl, huser, hgroup⟩]
      unfold InMemoryMembership.changedGroups
      by_cases hg : c.groupId = g
      · subst hg
        rcases htype with h | h <;> simp [h]
      · rcases htype with h | h
        · simp [h, hg, Ne.symm hg, ih']
        · simp [h, hg, Ne.symm hg, ih']
    · have hother : ¬ ((t, u) = (c.tenantId, c.globalUserId) ∧ u ≠ "" ∧ c.groupId ≠ "") := by
        rintro ⟨heq, -⟩
        obtain ⟨ht, hu⟩ := Prod.mk.inj heq
        exact hkey ⟨ht.symm, hu.symm⟩
      have hskip : ¬ (c.tenantId = t ∧ c.globalUserId = u ∧ c.groupId = g) := fun h => hkey ⟨h.1, h.2.1⟩
      rw [if_neg hother, List.filter_cons_of_neg (by simpa using hskip), List.filter_nil, List.append_nil]
      exact ih'

theorem mem_getGroups_projectAll : g ∈ (projectAll mapEvent ps).membership.getGroups t u ↔
    ∃ c, (changesOf t u g (firstOccurrences [] ps)).getLast? = some c ∧
      c.changeType = "added_to_group" := by
  have hrun : (projectAll mapEvent (firstOccurrences [] ps)).membership = _ :=
    membership_run (firstOccurrences_keys [] ps) fun p _ => KMap.has_eq_false_iff.mpr (KMap.get_empty _)
  rw [projectAll_firstOccurrences, hrun]
  refine mem_getGroups_foldl fun c hc => ?_
  obtain ⟨p, -, hp⟩ := List.mem_filterMap.mp hc
  exact valid_of_change hp

end Memberships

end AiManager.Graph
