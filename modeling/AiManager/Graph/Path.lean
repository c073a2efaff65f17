import AiManager.Graph.Neighborhood

/-! # The shortest way between two nodes

The search keeps a queue, the distance of each node that it has reached, and the edge it was reached by. What it
answers is a shortest way through what the person sees, whenever there is one within the hops (`path_exact`). -/

namespace AiManager.Graph

open Lib

section Path
variable (st : InMemoryGraphStore) (ctx : QueryContext) (now : DateTime)

/-- The edge may appear, and leads from one node to the other. -/
def Link (e : GraphEdge) (a b : String) : Prop :=
  e ∈ st.allEdges ctx.tenantId ∧ Closed st ctx now e ∧ otherEnd e a = some b

/-- The nodes and the edges of a way, in turn. -/
inductive EdgeWalk : String → String → List String → List GraphEdge → Prop where
  | nil (a : String) : EdgeWalk a a [a] []
  | cons {a b c : String} {ids : List String} {e : GraphEdge} {es : List GraphEdge} (hlink : Link st ctx now e a b)
      (hrest : EdgeWalk b c ids es) : EdgeWalk a c (a :: ids) (e :: es)

/-- A shortest way that a person sees. -/
structure GraphPath.Shortest (fromId toId : String) (p : GraphPath) : Prop where
  shown : ∀ n ∈ p.nodes, st.getNode ctx n.nodeId = some n
  walk : EdgeWalk st ctx now fromId toId (p.nodes.map GraphNode.nodeId) p.edges
  length : p.nodes.length = p.edges.length + 1
  shortest : (sightGraph st ctx now).edist fromId toId = p.edges.length

/-- What was reached, was reached by an edge from a node one step nearer. -/
structure Trail (fromId : String) (s : Search) : Prop where
  root : s.dist.get fromId = some 0
  shown : ∀ v, s.dist.has v = true → (st.getNode ctx v).isSome = true
  entry : ∀ v k, s.dist.get v = some k → v ≠ fromId →
    ∃ p e j, s.prev.get v = some (p, e) ∧ s.dist.get p = some j ∧ k = j + 1 ∧ Link st ctx now e p v

/-- Where the search is when some of level `n` is left to scan. -/
structure AtLevel (fromId toId : String) (n : ℕ) (todo next : List String) (s : Search) : Prop where
  queued : Queued (sightGraph st ctx now) fromId n {v | s.dist.has v = true} todo next
  queue : s.queue = todo ++ next
  exact : ∀ v k, s.dist.get v = some k → (sightGraph st ctx now).edist fromId v = k
  trail : Trail st ctx now fromId s
  unfound : s.dist.has toId = false

end Path

section Path
variable {st : InMemoryGraphStore} {ctx : QueryContext} {now : DateTime} {fromId toId : String}

/-! ## Ways -/

theorem EdgeWalk.length {a b : String} {ids : List String} {es : List GraphEdge} (h : EdgeWalk st ctx now a b ids es) :
    ids.length = es.length + 1 := by
  induction h with
  | nil a => rfl
  | cons hlink hrest ih => rw [List.length_cons, List.length_cons, ih]

theorem EdgeWalk.shown {a b : String} {ids : List String} {es : List GraphEdge} (h : EdgeWalk st ctx now a b ids es)
    (hb : (st.getNode ctx b).isSome = true) : ∀ id ∈ ids, (st.getNode ctx id).isSome = true := by
  induction h with
  | nil a =>
    intro id hid
    rw [List.mem_singleton.mp hid]
    exact hb
  | cons hlink hrest ih =>
    intro id hid
    rcases List.mem_cons.mp hid with rfl | hid
    · rcases otherEnd_some hlink.2.2 with ⟨rfl, -⟩ | ⟨rfl, -⟩
      · exact hlink.2.1.ends.1
      · exact hlink.2.1.ends.2
    · exact ih hb id hid

/-- The nodes of ids that are all in sight. -/
theorem map_nodeId_filterMap {ids : List String} (h : ∀ id ∈ ids, (st.getNode ctx id).isSome = true) :
    (ids.filterMap (st.getNode ctx)).map GraphNode.nodeId = ids := by
  induction ids with
  | nil => rfl
  | cons id ids ih =>
    obtain ⟨n, hn⟩ := Option.isSome_iff_exists.mp (h id List.mem_cons_self)
    rw [List.filterMap_cons_some hn, List.map_cons, InMemoryGraphStore.nodeId_of_getNode hn,
      ih fun id' hid' => h id' (List.mem_cons_of_mem _ hid')]

/-- Back from a node that was reached with `k` steps there are `k` steps to the source, and each is recorded. -/
theorem Trail.walkBack {s : Search} (h : Trail st ctx now fromId s) {k : ℕ} {v : String} {ids : List String}
    {es : List GraphEdge} (hv : s.dist.get v = some k) (hwalk : EdgeWalk st ctx now v toId (v :: ids) es) :
    ∃ ids' es', Graph.walkBack s.prev fromId k v (v :: ids, es) = some (ids', es') ∧
      EdgeWalk st ctx now fromId toId ids' es' ∧ es'.length = k + es.length := by
  induction k generalizing v ids es with
  | zero =>
    have hroot : v = fromId := by
      by_contra hne
      obtain ⟨_, _, _, _, _, hk, _⟩ := h.entry v 0 hv hne
      cases hk
    refine ⟨v :: ids, es, ?_, hroot ▸ hwalk, (Nat.zero_add _).symm⟩
    unfold Graph.walkBack
    rw [if_pos hroot]
  | succ k ih =>
    have hne : v ≠ fromId := by
      rintro rfl
      rw [h.root] at hv
      cases hv
    obtain ⟨p, e, j, hprev, hp, hj, hlink⟩ := h.entry v (k + 1) hv hne
    cases hj
    obtain ⟨ids', es', hback, hwalk', hlength⟩ := ih hp (.cons hlink hwalk)
    refine ⟨ids', es', ?_, hwalk', ?_⟩
    · unfold Graph.walkBack
      rw [if_neg hne, hprev]
      exact hback
    · rw [hlength, List.length_cons]
      omega

/-! ## One scan -/

theorem Link.shown {e : GraphEdge} {a b : String} (h : Link st ctx now e a b) : (st.getNode ctx b).isSome = true := by
  rcases otherEnd_some h.2.2 with ⟨-, rfl⟩ | ⟨-, rfl⟩
  · exact h.2.1.ends.2
  · exact h.2.1.ends.1

theorem Link.adj {e : GraphEdge} {a b : String} (h : Link st ctx now e a b) (hne : a ≠ b) :
    (sightGraph st ctx now).Adj a b := sightGraph_adj.mpr ⟨hne, e, h⟩

theorem Trail.put {s s' : Search} (h : Trail st ctx now fromId s) {cur other : String} {d : ℕ} {e : GraphEdge}
    (hcur : s.dist.get cur = some d) (hnew : s.dist.has other = false) (hlink : Link st ctx now e cur other)
    (hdist : s'.dist = s.dist.put other (d + 1)) (hprev : s'.prev = s.prev.put other (cur, e)) :
    Trail st ctx now fromId s' := by
  have hold : ∀ v k, s.dist.get v = some k → s'.dist.get v = some k := by
    intro v k hv
    have hne : v ≠ other := by
      rintro rfl
      rw [KMap.has_eq_false_iff.mp hnew] at hv
      cases hv
    rw [hdist, KMap.get_put_ne _ _ hne, hv]
  refine ⟨hold fromId 0 h.root, fun v hv => ?_, fun v k hv hne => ?_⟩
  · obtain ⟨k, hk⟩ := KMap.has_iff.mp hv
    rw [hdist, KMap.get_put] at hk
    split_ifs at hk with hvo
    · exact hvo ▸ hlink.shown
    · exact h.shown v (KMap.has_iff.mpr ⟨k, hk⟩)
  · rw [hdist, KMap.get_put] at hv
    split_ifs at hv with hvo
    · cases hv
      refine ⟨cur, e, d, ?_, hold cur d hcur, rfl, hvo ▸ hlink⟩
      rw [hprev, hvo, KMap.get_put_self]
    · obtain ⟨p, e', j, hp, hj, hk, hlink'⟩ := h.entry v k hv hne
      refine ⟨p, e', j, ?_, hold p j hj, hk, hlink'⟩
      rw [hprev, KMap.get_put_ne _ _ hvo, hp]

/-- The edges `es` of a node at distance `d` were scanned, and `new` was reached by them. -/
structure Scanned (st : InMemoryGraphStore) (ctx : QueryContext) (now : DateTime) (cur : String) (d : ℕ)
    (es : List GraphEdge) (s s' : Search) (new : List String) : Prop where
  queue : s'.queue = s.queue ++ new
  has : ∀ v, s'.dist.has v = true ↔ s.dist.has v = true ∨ v ∈ new
  fresh : ∀ v ∈ new, (∃ e, Link st ctx now e cur v) ∧ s.dist.has v = false
  get : ∀ v k, s'.dist.get v = some k → s.dist.get v = some k ∨ (v ∈ new ∧ k = d + 1)
  reached : ∀ e ∈ es, ∀ v, Link st ctx now e cur v → s'.dist.has v = true

theorem Scanned.skip {cur : String} {d : ℕ} {e : GraphEdge} {es : List GraphEdge} {s s' : Search} {new : List String}
    (h : Scanned st ctx now cur d es s s' new) (hskip : ∀ v, Link st ctx now e cur v → s.dist.has v = true) :
    Scanned st ctx now cur d (e :: es) s s' new where
  queue := h.queue
  has := h.has
  fresh := h.fresh
  get := h.get
  reached e' he' v hlink := by
    rcases List.mem_cons.mp he' with rfl | he'
    · exact (h.has v).mpr (.inl (hskip v hlink))
    · exact h.reached e' he' v hlink

theorem Scanned.reach {cur other : String} {d : ℕ} {e : GraphEdge} {es : List GraphEdge} {s s₁ s' : Search}
    {new : List String} (h : Scanned st ctx now cur d es s₁ s' new) (hdist : s₁.dist = s.dist.put other (d + 1))
    (hqueue : s₁.queue = s.queue ++ [other]) (hnew : s.dist.has other = false) (hlink : Link st ctx now e cur other) :
    Scanned st ctx now cur d (e :: es) s s' (other :: new) where
  queue := by rw [h.queue, hqueue, List.append_assoc, List.singleton_append]
  has v := by
    have hput : s₁.dist.has v = true ↔ s.dist.has v = true ∨ v = other := by
      rw [hdist, KMap.has_iff, KMap.has_iff]
      simp only [KMap.get_put]
      by_cases hv : v = other
      · simp [hv]
      · simp [hv]
    rw [h.has, hput, List.mem_cons, or_assoc]
  fresh v hv := by
    rcases List.mem_cons.mp hv with rfl | hv
    · exact ⟨⟨e, hlink⟩, hnew⟩
    · obtain ⟨hlink', hfresh⟩ := h.fresh v hv
      refine ⟨hlink', ?_⟩
      rw [Bool.eq_false_iff]
      intro hold
      rw [hdist, has_put hold] at hfresh
      cases hfresh
  get v k hv := by
    rcases h.get v k hv with hold | ⟨hmem, hk⟩
    · rw [hdist, KMap.get_put] at hold
      split_ifs at hold with hvo
      · cases hold
        exact .inr ⟨hvo ▸ List.mem_cons_self, rfl⟩
      · exact .inl hold
    · exact .inr ⟨List.mem_cons_of_mem _ hmem, hk⟩
  reached e' he' v hlink' := by
    rcases List.mem_cons.mp he' with rfl | he'
    · have hvo : v = other := Option.some.inj (hlink'.2.2.symm.trans hlink.2.2)
      rw [hvo]
      refine (h.has other).mpr (.inl ?_)
      rw [hdist]
      exact KMap.has_iff.mpr ⟨_, KMap.get_put_self _ _ _⟩
    · exact h.reached e' he' v hlink'

/-- What a scan that has not come upon the target has done, and what one that has. -/
theorem scanEdges_spec {cur : String} {d : ℕ} {es : List GraphEdge} (hes : es ⊆ st.allEdges ctx.tenantId) {s s' : Search}
    {found : Bool} (htrail : Trail st ctx now fromId s) (hcur : s.dist.get cur = some d)
    (hto : s.dist.has toId = false) (h : scanEdges ctx now (st.getNode ctx) toId cur d es s = (found, s')) :
    Trail st ctx now fromId s' ∧
      ((found = true ∧ s'.dist.get toId = some (d + 1) ∧ ∃ e, Link st ctx now e cur toId) ∨
        (found = false ∧ s'.dist.has toId = false ∧ ∃ new, Scanned st ctx now cur d es s s' new)) := by
  induction es generalizing s with
  | nil =>
    obtain ⟨rfl, rfl⟩ := Prod.mk.inj h
    refine ⟨htrail, .inr ⟨rfl, hto, [], ?_⟩⟩
    exact ⟨(List.append_nil _).symm, fun v => (or_iff_left List.not_mem_nil).symm, fun _ hv => (by cases hv),
      fun _ _ hv => .inl hv, fun _ he => (by cases he)⟩
  | cons e es ih =>
    have he : e ∈ st.allEdges ctx.tenantId := hes List.mem_cons_self
    have hrest : es ⊆ st.allEdges ctx.tenantId := fun x hx => hes (List.mem_cons_of_mem _ hx)
    have hskip : (∀ v, Link st ctx now e cur v → s.dist.has v = true) →
        scanEdges ctx now (st.getNode ctx) toId cur d es s = (found, s') → Trail st ctx now fromId s' ∧
          ((found = true ∧ s'.dist.get toId = some (d + 1) ∧ ∃ e, Link st ctx now e cur toId) ∨
            (found = false ∧ s'.dist.has toId = false ∧ ∃ new, Scanned st ctx now cur d (e :: es) s s' new)) := by
      intro hknown hgo
      obtain ⟨htrail', hfound | ⟨hnot, hto', new, hscanned⟩⟩ := ih hrest htrail hcur hto hgo
      · exact ⟨htrail', .inl hfound⟩
      · exact ⟨htrail', .inr ⟨hnot, hto', new, hscanned.skip hknown⟩⟩
    simp only [scanEdges] at h
    split at h
    · next husable =>
      refine hskip (fun v hlink => ?_) h
      rw [(closed_iff.mp hlink.2.1).1] at husable
      cases husable
    · next husable =>
      split at h
      · next hother =>
        refine hskip (fun v hlink => ?_) h
        rw [hlink.2.2] at hother
        cases hother
      · next other hother =>
        have hsame : ∀ v, Link st ctx now e cur v → v = other := fun v hlink =>
          Option.some.inj (hlink.2.2.symm.trans hother)
        split_ifs at h with hnode hseen htarget
        · refine hskip (fun v hlink => ?_) h
          have hshown := hsame v hlink ▸ hlink.shown
          rw [Option.isNone_iff_eq_none.mp hnode] at hshown
          cases hshown
        · exact hskip (fun v hlink => hsame v hlink ▸ hseen) h
        all_goals
          have hnew : s.dist.has other = false := by simpa using hseen
          have hshown : (st.getNode ctx other).isSome = true := by
            simpa [Option.isSome_iff_ne_none, Option.isNone_iff_eq_none] using hnode
          have hlink : Link st ctx now e cur other :=
            ⟨he, closed_of_otherEnd (by simpa using husable) hother
              (htrail.shown cur (KMap.has_iff.mpr ⟨d, hcur⟩)) hshown, hother⟩
        · obtain ⟨rfl, rfl⟩ := Prod.mk.inj h
          refine ⟨htrail.put hcur hnew hlink rfl rfl, .inl ⟨rfl, ?_, e, htarget ▸ hlink⟩⟩
          rw [← htarget]
          exact KMap.get_put_self _ _ _
        · have hcur' : (s.dist.put other (d + 1)).get cur = some d := by
            rw [KMap.get_put_ne, hcur]
            rintro rfl
            rw [KMap.has_eq_false_iff.mp hnew] at hcur
            cases hcur
          have hto' : (s.dist.put other (d + 1)).has toId = false := by
            rw [KMap.has_eq_false_iff, KMap.get_put_ne _ _ (Ne.symm htarget)]
            exact KMap.has_eq_false_iff.mp hto
          obtain ⟨htrail', hfound | ⟨hnot, hto'', new, hscanned⟩⟩ :=
            ih hrest (htrail.put hcur hnew hlink rfl rfl) hcur' hto' h
          · exact ⟨htrail', .inl hfound⟩
          · exact ⟨htrail', .inr ⟨hnot, hto'', other :: new, hscanned.reach rfl rfl hnew hlink⟩⟩

/-! ## The run -/

section Run
variable {n maxHops fuel : ℕ} {cur : String} {todo next : List String} {s : Search}

theorem AtLevel.get_of_level (h : AtLevel st ctx now fromId toId n todo next s) {v : String} (hv : v ∈ todo) :
    s.dist.get v = some n := by
  have hlevel := h.queued.level v hv
  obtain ⟨k, hk⟩ := KMap.has_iff.mp ((h.queued.known_iff v).mpr (.inl hlevel.le))
  have hexact := h.exact v k hk
  rw [hlevel, Nat.cast_inj] at hexact
  rw [hk, hexact]

theorem AtLevel.turn (h : AtLevel st ctx now fromId toId n [] next s) :
    AtLevel st ctx now fromId toId (n + 1) next [] s :=
  ⟨h.queued.turn, by rw [h.queue, List.nil_append, List.append_nil], h.exact, h.trail, h.unfound⟩

/-- A scan that does not come upon the target stays at the level. -/
theorem AtLevel.scan (h : AtLevel st ctx now fromId toId n (cur :: todo) next s) {s' : Search} {new : List String}
    (htrail : Trail st ctx now fromId s') (hto : s'.dist.has toId = false)
    (hscan : Scanned st ctx now cur n (st.allEdges ctx.tenantId) { s with queue := todo ++ next } s' new) :
    AtLevel st ctx now fromId toId n todo (next ++ new) s' := by
  have hcur := h.get_of_level List.mem_cons_self
  have hnew : ∀ v ∈ new, (sightGraph st ctx now).Adj cur v ∧ v ∉ {v | s.dist.has v = true} := by
    intro v hv
    obtain ⟨⟨e, hlink⟩, hfresh⟩ := hscan.fresh v hv
    have hunknown : ¬ s.dist.has v = true := Bool.eq_false_iff.mp hfresh
    refine ⟨hlink.adj ?_, hunknown⟩
    rintro rfl
    exact hunknown (KMap.has_iff.mpr ⟨n, hcur⟩)
  have hqueued := h.queued.expand hscan.has hnew fun v hadj => by
    obtain ⟨-, e, hlink⟩ := sightGraph_adj.mp hadj
    exact hscan.reached e hlink.1 v hlink
  refine ⟨hqueued, ?_, fun v k hv => ?_, htrail, hto⟩
  · rw [hscan.queue, List.append_assoc]
  · rcases hscan.get v k hv with hold | ⟨hmem, rfl⟩
    · exact h.exact v k hold
    · exact hqueued.ahead v (List.mem_append_right _ hmem)

/-- Beyond the hops the queue is only emptied. -/
theorem search_beyond (hfar : ∀ v ∈ s.queue, ∃ k, s.dist.get v = some k ∧ maxHops ≤ k) :
    search ctx now (st.getNode ctx) toId maxHops (st.allEdges ctx.tenantId) fuel s = none := by
  induction fuel generalizing s with
  | zero =>
    cases hq : s.queue with
    | nil => exact search_nil hq 0
    | cons cur rest => exact search_zero hq
  | succ fuel ih =>
    cases hq : s.queue with
    | nil => exact search_nil hq _
    | cons cur rest =>
      rw [hq] at hfar
      obtain ⟨k, hk, hle⟩ := hfar cur List.mem_cons_self
      rw [search_succ hq, hk, Option.getD_some, if_pos hle]
      exact ih fun v hv => hfar v (List.mem_cons_of_mem _ hv)

/-- How a search ends: at the target, by a shortest way within the hops; or there is none. -/
def SearchEnds (st : InMemoryGraphStore) (ctx : QueryContext) (now : DateTime) (fromId toId : String) (maxHops : ℕ) :
    Option Search → Prop
  | some s' => ∃ k : ℕ, Trail st ctx now fromId s' ∧ s'.dist.get toId = some k ∧
      (sightGraph st ctx now).edist fromId toId = k ∧ k ≤ maxHops
  | none => ¬ (sightGraph st ctx now).edist fromId toId ≤ maxHops

theorem AtLevel.not_le (h : AtLevel st ctx now fromId toId n todo next s) :
    ¬ (sightGraph st ctx now).edist fromId toId ≤ n := by
  intro hle
  have hknown : s.dist.has toId = true := (h.queued.known_iff toId).mpr (.inl hle)
  rw [h.unfound] at hknown
  cases hknown

/-- The rest of the queue is not nearer than the level. -/
theorem AtLevel.queue_far (h : AtLevel st ctx now fromId toId n todo next s) (hle : maxHops ≤ n) {v : String}
    (hv : v ∈ s.queue) : ∃ k, s.dist.get v = some k ∧ maxHops ≤ k := by
  rw [h.queue] at hv
  rcases List.mem_append.mp hv with hv | hv
  · exact ⟨n, h.get_of_level hv, hle⟩
  · obtain ⟨k, hk⟩ := KMap.has_iff.mp ((h.queued.known_iff v).mpr (.inr hv))
    have hexact := h.exact v k hk
    rw [h.queued.ahead v hv, Nat.cast_inj] at hexact
    exact ⟨k, hk, by omega⟩

/-- **The run**, by induction on the rounds that are left. -/
theorem search_ends (h : AtLevel st ctx now fromId toId n todo next s)
    (hfuel : roundsLeft ctx now (st.allEdges ctx.tenantId) s ≤ fuel) :
    SearchEnds st ctx now fromId toId maxHops
      (search ctx now (st.getNode ctx) toId maxHops (st.allEdges ctx.tenantId) fuel s) := by
  induction fuel generalizing n todo next s with
  | zero =>
    have hempty : s.queue = [] := by
      unfold roundsLeft at hfuel
      exact List.length_eq_zero_iff.mp (by omega)
    have hnil := h.queue
    rw [hempty] at hnil
    obtain ⟨rfl, rfl⟩ := List.append_eq_nil_iff.mp hnil.symm
    rw [search_nil hempty]
    exact h.queued.stuck (Bool.eq_false_iff.mp h.unfound) maxHops
  | succ fuel ih =>
    -- the first of the queue is at level `n`
    have hmain : ∀ {n cur todo next}, AtLevel st ctx now fromId toId n (cur :: todo) next s →
        SearchEnds st ctx now fromId toId maxHops
          (search ctx now (st.getNode ctx) toId maxHops (st.allEdges ctx.tenantId) (fuel + 1) s) := by
      intro n cur todo next h
      have hq : s.queue = cur :: (todo ++ next) := h.queue
      have hcur := h.get_of_level List.mem_cons_self
      by_cases hfar : maxHops ≤ n
      · rw [search_beyond fun v hv => h.queue_far hfar hv]
        exact fun hle => h.not_le (hle.trans (Nat.cast_le.mpr hfar))
      · rw [search_succ hq, hcur, Option.getD_some, if_neg hfar]
        have hpopped : Trail st ctx now fromId { s with queue := todo ++ next } :=
          ⟨h.trail.root, h.trail.shown, h.trail.entry⟩
        have hreached : QueueReached { s with queue := todo ++ next } := by
          intro v hv
          obtain ⟨k, hk, -⟩ := h.queue_far (Nat.zero_le n) (hq ▸ List.mem_cons_of_mem _ hv)
          exact KMap.has_iff.mpr ⟨k, hk⟩
        have hleft : roundsLeft ctx now (st.allEdges ctx.tenantId) { s with queue := todo ++ next } ≤ fuel := by
          have hsame : (st.allEdges ctx.tenantId).countP (openEdge ctx now { s with queue := todo ++ next }) =
              (st.allEdges ctx.tenantId).countP (openEdge ctx now s) := rfl
          simp only [roundsLeft, hq, List.length_cons] at hfuel ⊢
          omega
        rcases hscan : scanEdges ctx now (st.getNode ctx) toId cur n (st.allEdges ctx.tenantId)
          { s with queue := todo ++ next } with ⟨found, s'⟩
        obtain ⟨htrail, ⟨rfl, hget, e, hlink⟩ | ⟨rfl, hto, new, hscanned⟩⟩ :=
          scanEdges_spec (fun _ he => he) hpopped hcur h.unfound hscan
        · have hne : cur ≠ toId := by
            rintro rfl
            have hknown := h.unfound
            rw [KMap.has_eq_false_iff.mp hknown] at hcur
            cases hcur
          refine ⟨n + 1, htrail, hget, ?_, Nat.succ_le_of_lt (Nat.lt_of_not_le hfar)⟩
          exact edist_of_adj (h.queued.level cur List.mem_cons_self) (hlink.adj hne) h.not_le
        · obtain hfound | ⟨-, hle⟩ := scanEdges_rounds (s := { s with queue := todo ++ next }) (fun _ he => he)
            (KMap.has_iff.mpr ⟨n, hcur⟩) hreached hscan
          · cases hfound
          · exact ih (h.scan htrail hto hscanned) (hle.trans hleft)
    cases todo with
    | cons cur todo => exact hmain h
    | nil =>
      cases next with
      | cons cur next => exact hmain h.turn
      | nil =>
        rw [search_nil h.queue]
        exact h.queued.stuck (Bool.eq_false_iff.mp h.unfound) maxHops

end Run

end Path

theorem atLevel_start {st : InMemoryGraphStore} {ctx : QueryContext} {now : DateTime} {fromId toId : String}
    (hfrom : (st.getNode ctx fromId).isSome = true) (hne : fromId ≠ toId) :
    AtLevel st ctx now fromId toId 0 [fromId] [] ⟨∅, (∅ : KMap String ℕ).put fromId 0, [fromId]⟩ := by
  have hget : ∀ v k, ((∅ : KMap String ℕ).put fromId 0).get v = some k → v = fromId ∧ k = 0 := by
    intro v k hv
    rw [KMap.get_put] at hv
    split_ifs at hv with hvf
    · exact ⟨hvf, (Option.some.inj hv).symm⟩
    · rw [KMap.get_empty] at hv
      cases hv
  have hself : {v | ((∅ : KMap String ℕ).put fromId 0).has v = true} = ({fromId} : Set String) := by
    ext v
    constructor
    · intro hv
      obtain ⟨k, hk⟩ := KMap.has_iff.mp hv
      exact (hget v k hk).1
    · rintro rfl
      exact KMap.has_iff.mpr ⟨0, KMap.get_put_self _ _ _⟩
  refine ⟨?_, rfl, fun v k hv => ?_, ⟨KMap.get_put_self _ _ _, fun v hv => ?_, fun v k hv hvf => ?_⟩, ?_⟩
  · show Queued _ _ _ {v | ((∅ : KMap String ℕ).put fromId 0).has v = true} _ _
    rw [hself]
    exact Queued.root _ _
  · obtain ⟨rfl, rfl⟩ := hget v k hv
    rw [SimpleGraph.edist_self, Nat.cast_zero]
  · obtain ⟨k, hk⟩ := KMap.has_iff.mp hv
    rw [(hget v k hk).1]
    exact hfrom
  · exact absurd (hget v k hv).1 hvf
  · rw [KMap.has_eq_false_iff, KMap.get_put_ne _ _ hne.symm, KMap.get_empty]

/-- **Path.** Between two nodes that a person sees the answer is a way if and only if there is one within the clamped
hops, and then it is a shortest one; an error is never answered, so no step of the way back is missing. -/
theorem path_exact (st : InMemoryGraphStore) (now : DateTime) (ctx : QueryContext) (fromId toId : String) (maxHops : ℕ)
    (hfrom : (st.getNode ctx fromId).isSome = true) (hto : (st.getNode ctx toId).isSome = true) (hne : fromId ≠ toId) :
    ∃ answer, st.path now ctx fromId toId maxHops = .ok answer ∧
      (answer.isSome = true ↔ (sightGraph st ctx now).edist fromId toId ≤ clamp 1 6 maxHops) ∧
      ∀ p, answer = some p → p.Shortest st ctx now fromId toId := by
  have hends : SearchEnds st ctx now fromId toId (clamp 1 6 maxHops) (search ctx now (st.getNode ctx) toId
      (clamp 1 6 maxHops) (st.allEdges ctx.tenantId) (st.pathFuel now ctx)
      ⟨∅, (∅ : KMap String ℕ).put fromId 0, [fromId]⟩) :=
    search_ends (atLevel_start hfrom hne) (roundsLeft_start st fromId)
  have hshown : ((st.getNode ctx fromId).isNone || (st.getNode ctx toId).isNone) = false := by
    simp [Option.isNone_eq_false_iff, hfrom, hto]
  unfold InMemoryGraphStore.path
  simp only [hshown, Bool.false_eq_true, if_false]
  cases hsearch : search ctx now (st.getNode ctx) toId (clamp 1 6 maxHops) (st.allEdges ctx.tenantId)
      (st.pathFuel now ctx) ⟨∅, (∅ : KMap String ℕ).put fromId 0, [fromId]⟩ with
  | none =>
    rw [hsearch] at hends
    exact ⟨none, rfl, iff_of_false Bool.false_ne_true hends, fun _ h => by cases h⟩
  | some found =>
    rw [hsearch] at hends
    obtain ⟨k, htrail, hget, hdist, hle⟩ := hends
    obtain ⟨ids, es, hback, hwalk, hlength⟩ := htrail.walkBack hget (.nil toId)
    have hids : (ids.filterMap (st.getNode ctx)).map GraphNode.nodeId = ids := map_nodeId_filterMap (hwalk.shown hto)
    dsimp only
    rw [hget, Option.getD_some, hback]
    refine ⟨some _, rfl, iff_of_true rfl (hdist.trans_le (Nat.cast_le.mpr hle)), ?_⟩
    rintro p ⟨⟩
    refine ⟨fun n hn => ?_, ?_, ?_, ?_⟩
    · obtain ⟨id, -, hid⟩ := List.mem_filterMap.mp hn
      rw [InMemoryGraphStore.nodeId_of_getNode hid, hid]
    · show EdgeWalk st ctx now fromId toId ((ids.filterMap (st.getNode ctx)).map GraphNode.nodeId) es
      rw [hids]
      exact hwalk
    · rw [← hwalk.length, ← congrArg List.length hids, List.length_map]
    · rw [hdist, hlength, List.length_nil, Nat.add_zero]

theorem smallGraph_path :
    ∃ answer, (smallGraph.foldl InMemoryGraphStore.applyMutation .new).path 5 ⟨"ten_1", "gu_1", []⟩ "a" "c" 9 =
        .ok answer ∧
      (answer.isSome = true ↔
        (sightGraph (smallGraph.foldl InMemoryGraphStore.applyMutation .new) ⟨"ten_1", "gu_1", []⟩ 5).edist "a" "c" ≤
          clamp 1 6 9) ∧
      ∀ p, answer = some p →
        p.Shortest (smallGraph.foldl InMemoryGraphStore.applyMutation .new) ⟨"ten_1", "gu_1", []⟩ 5 "a" "c" :=
  path_exact _ 5 ⟨"ten_1", "gu_1", []⟩ "a" "c" 9 rfl rfl (by decide)

end AiManager.Graph
