import AiManager.Graph.Membership
import AiManager.Graph.Query
import AiManager.Lib.Place
import Mathlib.Data.Finset.Sort
import Mathlib.Data.String.Basic

/-! # Snapshots of the embedded stores

A snapshot lists what a store holds; importing it into a fresh store files everything again. The graph
comes back row by row, the memberships under keys that are glued together from tenant and user and taken
apart again. -/

namespace AiManager.Graph

open Lib

/-! ## The graph -/

namespace InMemoryGraphStore

def exportSnapshot (st : InMemoryGraphStore) (now : DateTime) : GraphPersistSnapshot :=
  { version := 1
    savedAt := some now.toRfc3339
    nodes := st.nodes.values
    edges := st.edges.values.flatten
    states := st.states.values
    applied := st.applied.items.map Prod.fst }

/-- An imported edge is appended, whatever is there. -/
def pushEdge (st : InMemoryGraphStore) (e : GraphEdge) : InMemoryGraphStore :=
  { st with edges := st.edges.put e.tenantId ((st.edges.get e.tenantId).getD [] ++ [e]) }

def insertApplied (st : InMemoryGraphStore) (key : String × String) : InMemoryGraphStore :=
  { st with applied := st.applied.put key () }

def importSnapshot (st : InMemoryGraphStore) (snap : GraphPersistSnapshot) : InMemoryGraphStore :=
  snap.applied.foldl insertApplied
    (snap.states.foldl insertState (snap.edges.foldl pushEdge (snap.nodes.foldl insertNode st)))

/-- The stores answer the same: marks, nodes, states, and the edges of a tenant in their order. -/
structure Same (st st' : InMemoryGraphStore) : Prop where
  applied : ∀ key, st.applied.get key = st'.applied.get key
  nodes : ∀ key, st.nodes.get key = st'.nodes.get key
  edges : ∀ tenantId, st.allEdges tenantId = st'.allEdges tenantId
  states : ∀ key, st.states.get key = st'.states.get key

/-- Every edge is in the list of its tenant, and no edge id twice. -/
structure EdgesFiled (st : InMemoryGraphStore) : Prop where
  tenant : ∀ tenantId, ∀ e ∈ st.allEdges tenantId, e.tenantId = tenantId
  once : ∀ tenantId, ((st.allEdges tenantId).map GraphEdge.edgeId).Nodup

section Same
variable {st st' st'' : InMemoryGraphStore}

theorem Same.refl (st : InMemoryGraphStore) : Same st st :=
  ⟨fun _ => rfl, fun _ => rfl, fun _ => rfl, fun _ => rfl⟩

theorem Same.symm (h : Same st st') : Same st' st :=
  ⟨fun k => (h.applied k).symm, fun k => (h.nodes k).symm, fun t => (h.edges t).symm,
    fun k => (h.states k).symm⟩

theorem Same.trans (h : Same st st') (h' : Same st' st'') : Same st st'' :=
  ⟨fun k => (h.applied k).trans (h'.applied k), fun k => (h.nodes k).trans (h'.nodes k),
    fun t => (h.edges t).trans (h'.edges t), fun k => (h.states k).trans (h'.states k)⟩

theorem EdgesFiled.congr (h : EdgesFiled st) (hsame : Same st st') : EdgesFiled st' := by
  refine ⟨fun tenantId => ?_, fun tenantId => ?_⟩
  · rw [← hsame.edges]
    exact h.tenant tenantId
  · rw [← hsame.edges]
    exact h.once tenantId

/-! ### Mutations -/

theorem allEdges_insertEdge (st : InMemoryGraphStore) (e : GraphEdge) (tenantId : String) :
    (st.insertEdge e).allEdges tenantId =
      if tenantId = e.tenantId then upsertEdge e (st.allEdges tenantId) else st.allEdges tenantId := by
  unfold allEdges insertEdge
  dsimp only
  rw [KMap.get_put]
  split_ifs with h
  · rw [h]
    rfl
  · rfl

theorem upsertEdge_eq (e : GraphEdge) (es : List GraphEdge) :
    upsertEdge e es = placeBy GraphEdge.edgeId e es := by
  induction es with
  | nil => rfl
  | cons x xs ih =>
    show (if x.edgeId = e.edgeId then e :: xs else x :: upsertEdge e xs) = _
    rw [ih]
    rfl

theorem Same.insertNode (h : Same st st') (n : GraphNode) : Same (st.insertNode n) (st'.insertNode n) := by
  refine ⟨h.applied, fun key => ?_, h.edges, h.states⟩
  show (st.nodes.put n).get key = (st'.nodes.put n).get key
  rw [Table.get_put, Table.get_put, h.nodes]

theorem Same.insertEdge (h : Same st st') (e : GraphEdge) : Same (st.insertEdge e) (st'.insertEdge e) := by
  refine ⟨h.applied, h.nodes, fun tenantId => ?_, h.states⟩
  rw [allEdges_insertEdge, allEdges_insertEdge, h.edges]

/-- A merge changes the states only. -/
theorem mergeState_frame (st : InMemoryGraphStore) (s : EntityState) :
    (st.mergeState s).applied = st.applied ∧ (st.mergeState s).nodes = st.nodes ∧
      (st.mergeState s).edges = st.edges := by
  unfold mergeState
  split
  · exact ⟨rfl, rfl, rfl⟩
  · split_ifs <;> exact ⟨rfl, rfl, rfl⟩

theorem Same.mergeState (h : Same st st') (s : EntityState) : Same (st.mergeState s) (st'.mergeState s) := by
  obtain ⟨happlied, hnodes, hedges⟩ := mergeState_frame st s
  obtain ⟨happlied', hnodes', hedges'⟩ := mergeState_frame st' s
  refine ⟨fun key => ?_, fun key => ?_, fun tenantId => ?_, mergeState_get_congr h.states s⟩
  · rw [happlied, happlied', h.applied]
  · rw [hnodes, hnodes', h.nodes]
  · unfold allEdges
    rw [hedges, hedges']
    exact h.edges tenantId

/-- What a step keeps the same, a sequence of steps does. -/
theorem Same.foldl {α : Type} {f : InMemoryGraphStore → α → InMemoryGraphStore}
    (hf : ∀ {st st'} (a : α), Same st st' → Same (f st a) (f st' a)) (as : List α) :
    ∀ {st st'}, Same st st' → Same (as.foldl f st) (as.foldl f st') := by
  induction as with
  | nil => intro st st' h; exact h
  | cons a as ih => intro st st' h; exact ih (hf a h)

theorem Same.applyMutation (h : Same st st') (m : GraphMutation) :
    Same (st.applyMutation m) (st'.applyMutation m) :=
  Same.foldl (fun s hs => hs.mergeState s) _
    (Same.foldl (fun e hs => hs.insertEdge e) _ (Same.foldl (fun n hs => hs.insertNode n) _ h))

end Same

section Filed
variable {st : InMemoryGraphStore}

theorem EdgesFiled.of_edges {st' : InMemoryGraphStore} (h : EdgesFiled st)
    (hedges : st'.edges = st.edges) : EdgesFiled st' := by
  have hall : ∀ tenantId, st'.allEdges tenantId = st.allEdges tenantId := by
    intro tenantId
    unfold allEdges
    rw [hedges]
  refine ⟨fun tenantId => ?_, fun tenantId => ?_⟩
  · rw [hall]
    exact h.tenant tenantId
  · rw [hall]
    exact h.once tenantId

theorem EdgesFiled.insertEdge (h : EdgesFiled st) (e : GraphEdge) : EdgesFiled (st.insertEdge e) := by
  refine ⟨fun tenantId x hx => ?_, fun tenantId => ?_⟩
  · rw [allEdges_insertEdge] at hx
    split_ifs at hx with htenant
    · rw [upsertEdge_eq, mem_placeBy (h.once tenantId)] at hx
      rcases hx with rfl | ⟨hx, -⟩
      · exact htenant.symm
      · exact h.tenant tenantId x hx
    · exact h.tenant tenantId x hx
  · rw [allEdges_insertEdge]
    split_ifs
    · rw [upsertEdge_eq]
      exact nodup_placeBy (h.once tenantId)
    · exact h.once tenantId

theorem EdgesFiled.foldl {α : Type} {f : InMemoryGraphStore → α → InMemoryGraphStore}
    (hf : ∀ {st} (a : α), EdgesFiled st → EdgesFiled (f st a)) (as : List α) :
    ∀ {st}, EdgesFiled st → EdgesFiled (as.foldl f st) := by
  induction as with
  | nil => intro st h; exact h
  | cons a as ih => intro st h; exact ih (hf a h)

theorem EdgesFiled.applyMutation (h : EdgesFiled st) (m : GraphMutation) :
    EdgesFiled (st.applyMutation m) := by
  have hnodes := EdgesFiled.foldl (f := insertNode) (fun n hs => hs.of_edges rfl) m.nodes h
  have hedges := EdgesFiled.foldl (fun e hs => hs.insertEdge e) m.edges hnodes
  exact EdgesFiled.foldl (fun s hs => hs.of_edges (mergeState_frame _ s).2.2) m.states hedges

theorem edgesFiled_new : EdgesFiled new := by
  have hempty : ∀ tenantId, new.allEdges tenantId = [] := by simp [new, allEdges]
  exact ⟨by simp [hempty], by simp [hempty]⟩

/-! ### Export and import -/

theorem foldl_insertNode_nodes (ns : List GraphNode) :
    ∀ st : InMemoryGraphStore, (ns.foldl insertNode st).nodes = st.nodes.putAll ns := by
  induction ns with
  | nil => intro st; rfl
  | cons n ns ih => intro st; exact ih _

theorem foldl_insertState_states (ss : List EntityState) :
    ∀ st : InMemoryGraphStore, (ss.foldl insertState st).states = st.states.putAll ss := by
  induction ss with
  | nil => intro st; rfl
  | cons s ss ih => intro st; exact ih _

theorem allEdges_foldl_pushEdge (es : List GraphEdge) (tenantId : String) :
    ∀ st : InMemoryGraphStore, (es.foldl pushEdge st).allEdges tenantId =
      st.allEdges tenantId ++ es.filter fun e => e.tenantId = tenantId := by
  induction es with
  | nil => intro st; simp
  | cons e es ih =>
    intro st
    have hpush : (st.pushEdge e).allEdges tenantId =
        if tenantId = e.tenantId then st.allEdges tenantId ++ [e] else st.allEdges tenantId := by
      unfold allEdges pushEdge
      dsimp only
      rw [KMap.get_put]
      split_ifs with h
      · rw [h]
        rfl
      · rfl
    show (es.foldl pushEdge (st.pushEdge e)).allEdges tenantId = _
    rw [ih, hpush]
    by_cases h : tenantId = e.tenantId
    · rw [if_pos h, List.filter_cons_of_pos (by simpa using h.symm), List.append_assoc]
      rfl
    · rw [if_neg h, List.filter_cons_of_neg (by simpa using Ne.symm h)]

theorem get_foldl_insertApplied (keys : List (String × String)) (key : String × String) :
    ∀ st : InMemoryGraphStore, (keys.foldl insertApplied st).applied.get key =
      if key ∈ keys then some () else st.applied.get key := by
  induction keys with
  | nil => intro st; simp
  | cons k keys ih =>
    intro st
    show (keys.foldl insertApplied (st.insertApplied k)).applied.get key = _
    rw [ih, insertApplied, KMap.get_put]
    by_cases hkeys : key ∈ keys
    · rw [if_pos hkeys, if_pos (List.mem_cons_of_mem _ hkeys)]
    · rw [if_neg hkeys]
      simp [hkeys]

/-- **A restart of the graph store changes no answer.** -/
theorem same_import_export (h : EdgesFiled st) (now : DateTime) :
    Same (new.importSnapshot (st.exportSnapshot now)) st := by
  refine ⟨fun key => ?_, fun key => ?_, fun tenantId => ?_, fun key => ?_⟩ <;>
    unfold importSnapshot exportSnapshot <;> dsimp only
  · rw [get_foldl_insertApplied, foldl_keeps insertState applied fun _ _ => rfl,
      foldl_keeps pushEdge applied fun _ _ => rfl,
      foldl_keeps insertNode applied fun _ _ => rfl]
    have hlisted : key ∈ st.applied.items.map Prod.fst ↔ st.applied.get key = some () := by
      rw [← KMap.mem_items, List.mem_map]
      constructor
      · rintro ⟨⟨k, u⟩, hitem, rfl⟩
        exact hitem
      · intro hitem
        exact ⟨(key, ()), hitem, rfl⟩
    cases hget : st.applied.get key with
    | none => rw [if_neg (by simp [hlisted, hget]), new, KMap.get_empty]
    | some u => rw [if_pos (by rw [hlisted, hget])]
  · rw [foldl_keeps insertApplied nodes fun _ _ => rfl,
      foldl_keeps insertState nodes fun _ _ => rfl,
      foldl_keeps pushEdge nodes fun _ _ => rfl, foldl_insertNode_nodes]
    exact st.nodes.get_putAll_values (List.Perm.refl _) key
  · have hstates : ∀ ss st, (List.foldl insertState st ss).allEdges tenantId = st.allEdges tenantId :=
      foldl_keeps insertState (allEdges · tenantId) fun _ _ => rfl
    have happlied : ∀ ks st,
        (List.foldl insertApplied st ks).allEdges tenantId = st.allEdges tenantId :=
      foldl_keeps insertApplied (allEdges · tenantId) fun _ _ => rfl
    have hnodes : ∀ ns st, (List.foldl insertNode st ns).allEdges tenantId = st.allEdges tenantId :=
      foldl_keeps insertNode (allEdges · tenantId) fun _ _ => rfl
    -- an import pushes the edges without a look at their ids, in the order of the export
    rw [happlied, hstates, allEdges_foldl_pushEdge, hnodes]
    refine KMap.filter_flatten_values (p := GraphEdge.tenantId) (fun k es hes e he => ?_) tenantId
    refine h.tenant k e ?_
    unfold allEdges
    rw [hes]
    exact he
  · rw [foldl_keeps insertApplied states fun _ _ => rfl, foldl_insertState_states,
      foldl_keeps pushEdge states fun _ _ => rfl,
      foldl_keeps insertNode states fun _ _ => rfl]
    exact st.states.get_putAll_values (List.Perm.refl _) key

end Filed

end InMemoryGraphStore

/-! ## The memberships -/

structure MembershipPersistSnapshot where
  version : Nat
  savedAt : Option String
  /-- "tenant|user" → groups -/
  users : KMap String (List String)

namespace InMemoryMembership

/-- `format!("{tenant}|{user}")` -/
def snapshotKey (key : String × String) : String := key.1 ++ "|" ++ key.2

/-- `splitn(2, '|')`; a missing part is empty. -/
def splitKey (k : String) : String × String :=
  (String.ofList (k.toList.takeWhile (· ≠ '|')),
    String.ofList ((k.toList.dropWhile (· ≠ '|')).drop 1))

/-- Tenant and user of a key; an entry without one of them is skipped. -/
def restoredKey (k : String) : Option (String × String) :=
  if (splitKey k).1 = "" ∨ (splitKey k).2 = "" then none else some (splitKey k)

def exportSnapshot (st : InMemoryMembership) (now : DateTime) : MembershipPersistSnapshot :=
  { version := 1
    savedAt := some now.toRfc3339
    users := st.map.rekey (fun key => some (snapshotKey key)) fun groups => groups.sort (· ≤ ·) }

/-- What is there is cleared first. -/
def importSnapshot (_st : InMemoryMembership) (snap : MembershipPersistSnapshot) : InMemoryMembership :=
  ⟨snap.users.rekey restoredKey List.toFinset⟩

/-- The key survives being glued together. -/
def PlainKey (key : String × String) : Prop := key.1 ≠ "" ∧ '|' ∉ key.1.toList ∧ key.2 ≠ ""

/-- The stores hold the same groups for the same users. -/
def Same (st st' : InMemoryMembership) : Prop := ∀ key, st.map.get key = st'.map.get key

def Plain (st : InMemoryMembership) : Prop := ∀ key, st.map.has key = true → PlainKey key

section Keys
variable {key : String × String}

theorem splitKey_snapshotKey (h : '|' ∉ key.1.toList) : splitKey (snapshotKey key) = key := by
  have hchars : (snapshotKey key).toList = key.1.toList ++ '|' :: key.2.toList := by
    simp [snapshotKey]
  have htenant : ∀ c ∈ key.1.toList, decide (c ≠ '|') = true := by
    intro c hc
    refine decide_eq_true ?_
    rintro rfl
    exact h hc
  unfold splitKey
  rw [hchars, List.takeWhile_append_of_pos htenant, List.dropWhile_append_of_pos htenant]
  simp

theorem restoredKey_snapshotKey (h : PlainKey key) : restoredKey (snapshotKey key) = some key := by
  unfold restoredKey
  rw [splitKey_snapshotKey h.2.1, if_neg (not_or.mpr ⟨h.1, h.2.2⟩)]

/-- **A restart of the memberships changes no groups.** -/
theorem same_import_export {st : InMemoryMembership} (h : st.Plain) (fresh : InMemoryMembership)
    (now : DateTime) : Same (fresh.importSnapshot (st.exportSnapshot now)) st := by
  intro key
  -- the keys of the snapshot are those of the users
  have hkeys : ∀ k, (st.exportSnapshot now).users.has k = true →
      ∃ key, st.map.has key = true ∧ k = snapshotKey key ∧ restoredKey k = some key := by
    intro k hk
    obtain ⟨key, hhas, hkey⟩ := KMap.exists_of_has_rekey hk
    obtain rfl := Option.some.inj hkey
    exact ⟨key, hhas, rfl, restoredKey_snapshotKey (h key hhas)⟩
  show ((st.exportSnapshot now).users.rekey restoredKey List.toFinset).get key = _
  cases hhas : st.map.has key with
  | false =>
    rw [KMap.has_eq_false_iff.mp hhas]
    refine KMap.get_rekey_eq_none fun k hk hrestored => ?_
    obtain ⟨key', hhas', -, hrestored'⟩ := hkeys k hk
    rw [hrestored] at hrestored'
    rw [← Option.some.inj hrestored', hhas] at hhas'
    cases hhas'
  | true =>
    have hplain := restoredKey_snapshotKey (h key hhas)
    rw [KMap.get_rekey hplain]
    · have husers : (st.exportSnapshot now).users.get (snapshotKey key) =
          (st.map.get key).map fun groups => groups.sort (· ≤ ·) := by
        refine KMap.get_rekey rfl fun key' hhas' hkey' => ?_
        have hrestored := restoredKey_snapshotKey (h key' hhas')
        rw [Option.some.inj hkey', hplain] at hrestored
        exact (Option.some.inj hrestored).symm
      rw [husers, Option.map_map]
      have hgroups : List.toFinset ∘ (fun groups : Finset String => groups.sort (· ≤ ·)) = id :=
        funext fun groups => Finset.sort_toFinset groups _
      rw [hgroups, Option.map_id, id]
    · intro k hk hrestored
      obtain ⟨key', -, rfl, hrestored'⟩ := hkeys k hk
      rw [hrestored] at hrestored'
      rw [Option.some.inj hrestored']

/-- What comes out of a snapshot could have gone in. -/
theorem plainKey_of_restoredKey {k : String} (h : restoredKey k = some key) : PlainKey key := by
  unfold restoredKey at h
  split_ifs at h with hempty
  rw [not_or] at hempty
  obtain rfl := Option.some.inj h
  refine ⟨hempty.1, ?_, hempty.2⟩
  unfold splitKey
  rw [String.toList_ofList]
  intro hmem
  exact absurd (List.mem_takeWhile_imp hmem) (by simp)

/-- The snapshot brings back the same groups, and keeps different users apart. -/
structure RoundTrip (st fresh : InMemoryMembership) (now : DateTime) : Prop where
  same : Same (fresh.importSnapshot (st.exportSnapshot now)) st
  apart : ∀ key key', st.map.has key = true → st.map.has key' = true → snapshotKey key = snapshotKey key' → key = key'

theorem roundTrip_iff (st fresh : InMemoryMembership) (now : DateTime) : RoundTrip st fresh now ↔ st.Plain := by
  constructor
  · intro h key hhas
    obtain ⟨groups, hgroups⟩ := KMap.has_iff.mp hhas
    have hrestored : (fresh.importSnapshot (st.exportSnapshot now)).map.has key = true :=
      KMap.has_iff.mpr ⟨groups, (h.same key).trans hgroups⟩
    obtain ⟨k, -, hk⟩ := KMap.exists_of_has_rekey hrestored
    exact plainKey_of_restoredKey hk
  · intro h
    refine ⟨same_import_export h fresh now, fun key key' hkey hkey' heq => ?_⟩
    have hrestored := restoredKey_snapshotKey (h key hkey)
    rw [heq, restoredKey_snapshotKey (h key' hkey')] at hrestored
    exact (Option.some.inj hrestored).symm

/-- Users of two tenants, whose names meet at the bar. -/
def barredUsers : InMemoryMembership :=
  (InMemoryMembership.new.setGroups "a|b" "c" ["grp_eng"]).setGroups "a" "b|c" ["grp_sales"]

theorem barredUsers_not_roundTrip : ¬ RoundTrip barredUsers .new 0 := by
  intro h
  have heq := h.apart ("a|b", "c") ("a", "b|c") (by decide) (by decide) (by decide)
  exact absurd heq (by decide)

end Keys

end InMemoryMembership

end AiManager.Graph
