import AiManager.Lib.OrderLimit
import AiManager.Twins.Digest
import Mathlib.Order.MinMax

/-! # What a compiled ledger leaves out

A work node that a person touched in the window ought to have its item, the cap on commits apart. The
compiler looks at the first edge of each kind only, so that an older edge in front of a newer one can take
the item away; `compile_complete_iff` says when it does not. -/

namespace AiManager.Twins

open Lib

section Complete
variable (opts : CompileOpts) (persons : List String) (view : GraphView)

/-- Nothing of the view is later than the window. -/
structure NoFuture : Prop where
  edges : ∀ e ∈ view.edges, ∀ ts, e.validFrom = some ts → ts ≤ opts.activityEnd
  states : ∀ s ∈ view.states, s.asOf ≤ opts.activityEnd

/-- A work node that is no seed, and that an edge of the window joins to a person. -/
structure TouchedInWindow (node : GraphNodeView) : Prop where
  work : (workShape node).any = true
  genuine : nodeViewIsDemoSeed node = false
  edge : ∃ e ∈ view.edges, joinsPerson persons node.nodeId e = true ∧
    ∃ ts, e.validFrom = some ts ∧ opts.activityStart ≤ ts ∧ ts ≤ opts.activityEnd

def isCommitNode (node : GraphNodeView) : Bool := (workShape node).kind = "commit"

/-- At least as new as the node. -/
def AtLeastAsNew (node other : GraphNodeView) : Prop :=
  tsLe (activityOf persons view node.nodeId) (activityOf persons view other.nodeId) = true

/-- The node has its item, or it is a commit and the ledger shows five that are at least as new. -/
def Yields (items : List LedgerItem) (node : GraphNodeView) : Prop :=
  (∃ it ∈ items, it.nodeId = node.nodeId) ∨
    isCommitNode node = true ∧ ∃ kept : List LedgerItem, kept.Sublist items ∧ kept.length = 5 ∧
      ∀ it ∈ kept, it.kind = "commit" ∧
        tsLe (activityOf persons view node.nodeId) (activityOf persons view it.nodeId) = true

/-- The node is open work, or its state is of the window, or so is the first of its edges of some kind, or
those edges have no time at all. -/
def ReadInWindow (node : GraphNodeView) : Prop :=
  isOpenWork view node = true ∨
    (∃ s, nodeState view.states node.nodeId = some s ∧ opts.activityStart ≤ s.asOf) ∨
    (∃ e ∈ (signals persons view.edges node.nodeId).named, ∃ ts, e.validFrom = some ts ∧
      opts.activityStart ≤ ts) ∨
    ∀ e ∈ (signals persons view.edges node.nodeId).named, e.validFrom = none

/-- Five commits count that are at least as new. -/
def Crowded (node : GraphNodeView) : Prop :=
  isCommitNode node = true ∧ ∃ five : List GraphNodeView, five.Nodup ∧ five.length = 5 ∧
    ∀ other ∈ five, other ∈ view.nodes ∧ counts opts persons view other = true ∧
      isCommitNode other = true ∧ AtLeastAsNew persons view node other

variable {opts persons view} {node : GraphNodeView}

/-! ### Newest times -/

theorem foldl_later_some (xs : List DateTime) (t : DateTime) :
    ∃ m, xs.foldl later (some t) = some m ∧ t ≤ m ∧ (m = t ∨ m ∈ xs) ∧ ∀ x ∈ xs, x ≤ m := by
  induction xs generalizing t with
  | nil => exact ⟨t, rfl, le_refl t, .inl rfl, nofun⟩
  | cons x xs ih =>
    obtain ⟨m, hm, hle, hmem, hmax⟩ := ih (max t x)
    refine ⟨m, hm, (le_max_left t x).trans hle, ?_, fun y hy => ?_⟩
    · rcases hmem with rfl | hmem
      · rcases le_total x t with h | h
        · exact .inl (max_eq_left h)
        · rw [max_eq_right h]
          exact .inr List.mem_cons_self
      · exact .inr (List.mem_cons_of_mem _ hmem)
    · rcases List.mem_cons.mp hy with rfl | hy
      · exact (le_max_right t y).trans hle
      · exact hmax y hy

/-- The newest edge time, if any edge has one. -/
theorem newestEdge_cases (edges : List GraphEdgeView) :
    newestEdge edges = none ∧ (∀ e ∈ edges, e.validFrom = none) ∨
    ∃ m, newestEdge edges = some m ∧ (∃ e ∈ edges, e.validFrom = some m) ∧
      ∀ e ∈ edges, ∀ ts, e.validFrom = some ts → ts ≤ m := by
  unfold newestEdge
  cases htimes : edges.filterMap GraphEdgeView.validFrom with
  | nil =>
    refine .inl ⟨rfl, fun e he => ?_⟩
    exact List.filterMap_eq_nil_iff.mp htimes e he
  | cons t ts =>
    obtain ⟨m, hm, hle, hmem, hmax⟩ := foldl_later_some ts t
    have hall : ∀ x ∈ t :: ts, x ≤ m := by
      intro x hx
      rcases List.mem_cons.mp hx with rfl | hx
      · exact hle
      · exact hmax x hx
    have hin : m ∈ t :: ts := List.mem_cons.mpr hmem
    refine .inr ⟨m, hm, ?_, fun e he x hx => hall x ?_⟩
    · rw [← htimes] at hin
      exact List.mem_filterMap.mp hin
    · rw [← htimes]
      exact List.mem_filterMap.mpr ⟨e, he, hx⟩

/-! ### Inside the window -/

theorem outsideLookback_eq_false {ts : Option DateTime} : outsideLookback opts ts = false ↔
    ∀ t, ts = some t → opts.activityStart ≤ t ∧ t ≤ opts.activityEnd := by
  cases ts with
  | none => simp [outsideLookback]
  | some t => simp [outsideLookback]

/-- The time of the edges, and that of the state. -/
def withState (base : Option DateTime) : Option EntityStateView → Option DateTime
  | some st => later base st.asOf
  | none => base

theorem activityOf_eq (nodeId : String) : activityOf persons view nodeId =
    withState ((newestEdge (signals persons view.edges nodeId).named).or
      (newestEdge (signals persons view.edges nodeId).linked)) (nodeState view.states nodeId) := by
  unfold activityOf activityTs withState
  cases nodeState view.states nodeId <;> rfl

theorem inside_withState {base : DateTime} {state : Option EntityStateView}
    (hbase : base ≤ opts.activityEnd) (hstate : ∀ s, state = some s → s.asOf ≤ opts.activityEnd) :
    outsideLookback opts (withState (some base) state) = false ↔
      opts.activityStart ≤ base ∨ ∃ s, state = some s ∧ opts.activityStart ≤ s.asOf := by
  rw [outsideLookback_eq_false]
  cases state with
  | none =>
    constructor
    · intro h
      exact .inl (h base rfl).1
    · rintro (h | ⟨s, hs, -⟩) t ht
      · obtain rfl := Option.some.inj ht
        exact ⟨h, hbase⟩
      · cases hs
  | some st =>
    have hst := hstate st rfl
    constructor
    · intro h
      have hmax := (h (max base st.asOf) rfl).1
      exact (le_max_iff.mp hmax).imp_right fun h => ⟨st, rfl, h⟩
    · intro h t ht
      obtain rfl : max base st.asOf = t := Option.some.inj ht
      refine ⟨le_max_iff.mpr (h.imp_right ?_), max_le hbase hst⟩
      rintro ⟨s, hs, hle⟩
      obtain rfl := Option.some.inj hs
      exact hle

theorem named_subset {nodeId : String} {e : GraphEdgeView}
    (h : e ∈ (signals persons view.edges nodeId).named) : e ∈ view.edges := by
  unfold Signals.named at h
  obtain ⟨found, hfound, hsome⟩ := List.mem_filterMap.mp h
  simp only [List.mem_cons, List.not_mem_nil, or_false] at hfound
  rcases hfound with rfl | rfl | rfl | rfl <;> exact List.mem_of_find?_eq_some hsome

/-- Whether the computed time is of the window is read off the first edges of each kind and the state. -/
theorem inside_iff (hfuture : NoFuture opts view) (htouched : TouchedInWindow opts persons view node) :
    outsideLookback opts (activityOf persons view node.nodeId) = false ↔
      (∃ s, nodeState view.states node.nodeId = some s ∧ opts.activityStart ≤ s.asOf) ∨
      (∃ e ∈ (signals persons view.edges node.nodeId).named, ∃ ts, e.validFrom = some ts ∧
        opts.activityStart ≤ ts) ∨
      ∀ e ∈ (signals persons view.edges node.nodeId).named, e.validFrom = none := by
  have hstate : ∀ s, nodeState view.states node.nodeId = some s → s.asOf ≤ opts.activityEnd :=
    fun s hs => hfuture.states s (nodeState_mem hs).1
  obtain ⟨e, he, hjoins, ts, hts, hstart, -⟩ := htouched.edge
  have hlinked : e ∈ (signals persons view.edges node.nodeId).linked := List.mem_filter.mpr ⟨he, hjoins⟩
  rw [activityOf_eq]
  rcases newestEdge_cases (signals persons view.edges node.nodeId).named with
    ⟨hnone, hall⟩ | ⟨m, hm, ⟨e', he', hm'⟩, hmax⟩
  · -- no named edge has a time: all joining edges are looked at
    rcases newestEdge_cases (signals persons view.edges node.nodeId).linked with
      ⟨-, hall'⟩ | ⟨m, hm, ⟨e', he', hm'⟩, hmax⟩
    · rw [hall' e hlinked] at hts
      cases hts
    · have hlate := hfuture.edges e' (List.mem_filter.mp he').1 m hm'
      rw [hnone, hm, Option.none_or]
      refine iff_of_true ((inside_withState hlate hstate).mpr (.inl ?_)) (.inr (.inr hall))
      exact hstart.trans (hmax e hlinked ts hts)
  · have hlate := hfuture.edges e' (named_subset he') m hm'
    rw [hm, Option.some_or]
    refine (inside_withState hlate hstate).trans ?_
    constructor
    · rintro (h | h)
      · exact .inr (.inl ⟨e', he', m, hm', h⟩)
      · exact .inl h
    · rintro (h | ⟨e'', he'', ts', hts', h⟩ | hall)
      · exact .inr h
      · exact .inl (h.trans (hmax e'' he'' ts' hts'))
      · rw [hall e' he'] at hm'
        cases hm'

theorem counts_iff (hfuture : NoFuture opts view) (htouched : TouchedInWindow opts persons view node) :
    counts opts persons view node = true ↔
      persons.contains node.nodeId = false ∧ ReadInWindow opts persons view node := by
  obtain ⟨e, he, hjoins, -⟩ := htouched.edge
  have hsignals : (signals persons view.edges node.nodeId).isEmpty = false := by
    have hne : (signals persons view.edges node.nodeId).linked ≠ [] :=
      List.ne_nil_of_mem (List.mem_filter.mpr ⟨he, hjoins⟩)
    unfold Signals.isEmpty
    rw [List.isEmpty_eq_false_iff.mpr hne, Bool.and_false]
  unfold counts ReadInWindow
  rw [htouched.work, htouched.genuine, hsignals, ← inside_iff hfuture htouched]
  simp

/-! ### Under the cap -/

/-- The commits of the ledger are the first five in the order of their activity. -/
theorem commits_compiledItems :
    (compiledItems opts persons view).filter (fun it => it.kind = "commit") =
      (((rankedNodes opts persons view).filter isCommitNode).take 5).map (itemOf persons view) := by
  rw [compiledItems_eq, commits_capCommits, List.filter_map, ← List.map_take]
  rfl

theorem orderLimit_commits : OrderLimit (NewerFirst persons view) 5
    ((view.nodes.filter (counts opts persons view)).filter isCommitNode)
    (((rankedNodes opts persons view).filter isCommitNode).take 5) := by
  refine ⟨(rankedNodes opts persons view).filter isCommitNode, ?_, ?_, rfl⟩
  · exact (List.perm_insertionSort _ _).filter _
  · exact rankedNodes_pairwise.sublist List.filter_sublist

/-- An item that is no commit is kept. -/
theorem mem_compiledItems_of_other (hnode : node ∈ view.nodes) (hcounts : counts opts persons view node = true)
    (hkind : isCommitNode node = false) : itemOf persons view node ∈ compiledItems opts persons view := by
  have hother : (itemOf persons view node).kind ≠ "commit" := of_decide_eq_false hkind
  have hin : itemOf persons view node ∈
      ((rankedNodes opts persons view).map (itemOf persons view)).filter fun it => it.kind ≠ "commit" :=
    List.mem_filter.mpr ⟨List.mem_map_of_mem (mem_rankedNodes.mpr ⟨hnode, hcounts⟩), by simpa using hother⟩
  rw [compiledItems_eq]
  rw [← others_capCommits (n := 0)] at hin
  exact (List.mem_filter.mp hin).1

/-- The five commits of a ledger that leaves a commit out. -/
theorem yields_of_first_five (hcommit : isCommitNode node = true)
    (hlength : (((rankedNodes opts persons view).filter isCommitNode).take 5).length = 5)
    (hnew : ∀ other ∈ ((rankedNodes opts persons view).filter isCommitNode).take 5,
      AtLeastAsNew persons view node other) :
    Yields persons view (compiledItems opts persons view) node := by
  refine .inr ⟨hcommit, (compiledItems opts persons view).filter fun it => it.kind = "commit",
    List.filter_sublist, ?_, fun it hit => ⟨of_decide_eq_true (List.mem_filter.mp hit).2, ?_⟩⟩
  · rw [commits_compiledItems, List.length_map, hlength]
  · rw [commits_compiledItems] at hit
    obtain ⟨other, hother, rfl⟩ := List.mem_map.mp hit
    exact hnew other hother

/-- A node that counts has its item, or the cap left it out. -/
theorem yields_of_counts (hnode : node ∈ view.nodes) (hcounts : counts opts persons view node = true) :
    Yields persons view (compiledItems opts persons view) node := by
  cases hkind : isCommitNode node with
  | false => exact .inl ⟨itemOf persons view node, mem_compiledItems_of_other hnode hcounts hkind, rfl⟩
  | true =>
    have hrow : node ∈ (view.nodes.filter (counts opts persons view)).filter isCommitNode :=
      List.mem_filter.mpr ⟨List.mem_filter.mpr ⟨hnode, hcounts⟩, hkind⟩
    by_cases hkept : node ∈ ((rankedNodes opts persons view).filter isCommitNode).take 5
    · refine .inl ⟨itemOf persons view node, ?_, rfl⟩
      have hin := List.mem_map_of_mem (f := itemOf persons view) hkept
      rw [← commits_compiledItems] at hin
      exact (List.mem_filter.mp hin).1
    · -- it comes after the five that are kept
      have hfull := orderLimit_commits.length_eq_or_subset.resolve_right fun hsub => hkept (hsub hrow)
      exact yields_of_first_five hkind hfull fun other hother =>
        orderLimit_commits.left_out hother hrow hkept

theorem yields_of_crowded (hcrowded : Crowded opts persons view node) :
    Yields persons view (compiledItems opts persons view) node := by
  obtain ⟨hcommit, five, hnodup, hfive, hall⟩ := hcrowded
  have hrows : ∀ other ∈ five,
      other ∈ (view.nodes.filter (counts opts persons view)).filter isCommitNode := by
    intro other hother
    obtain ⟨hnode, hcounts, hkind, -⟩ := hall other hother
    exact List.mem_filter.mpr ⟨List.mem_filter.mpr ⟨hnode, hcounts⟩, hkind⟩
  have hfull : (((rankedNodes opts persons view).filter isCommitNode).take 5).length = 5 := by
    have hmany : five.length ≤ ((view.nodes.filter (counts opts persons view)).filter isCommitNode).length :=
      (List.subperm_of_subset hnodup hrows).length_le
    rw [orderLimit_commits.length]
    omega
  refine yields_of_first_five hcommit hfull fun other hother => ?_
  by_cases hsub : five ⊆ ((rankedNodes opts persons view).filter isCommitNode).take 5
  · -- the five are the ones shown
    have hperm := (List.subperm_of_subset hnodup hsub).perm_of_length_le (by omega)
    exact (hall other (hperm.mem_iff.mpr hother)).2.2.2
  · obtain ⟨left, hleft, hout⟩ : ∃ left ∈ five,
        left ∉ ((rankedNodes opts persons view).filter isCommitNode).take 5 := by
      by_contra hnone
      exact hsub fun x hx => by_contra fun hx' => hnone ⟨x, hx, hx'⟩
    have hbefore : NewerFirst persons view other left :=
      orderLimit_commits.left_out hother (hrows left hleft) hout
    exact tsLe_trans (hall left hleft).2.2.2 hbefore

/-- Five commits shown are five commits that count. -/
theorem crowded_of_kept (hnodup : (view.nodes.map GraphNodeView.nodeId).Nodup)
    (hcommit : isCommitNode node = true) {kept : List LedgerItem}
    (hsub : kept.Sublist (compiledItems opts persons view)) (hfive : kept.length = 5)
    (hall : ∀ it ∈ kept, it.kind = "commit" ∧
      tsLe (activityOf persons view node.nodeId) (activityOf persons view it.nodeId) = true) :
    Crowded opts persons view node := by
  rw [compiledItems_eq] at hsub
  obtain ⟨five, hfrom, rfl⟩ := List.sublist_map_iff.mp (hsub.trans capCommits_sublist)
  have hranked : (rankedNodes opts persons view).Nodup := (rankedNodes_nodup hnodup).of_map _
  refine ⟨hcommit, five, hranked.sublist hfrom, by rwa [List.length_map] at hfive, fun other hother => ?_⟩
  obtain ⟨hnode, hcounts⟩ := mem_rankedNodes.mp (hfrom.subset hother)
  obtain ⟨hkind, hnew⟩ := hall _ (List.mem_map_of_mem hother)
  exact ⟨hnode, hcounts, decide_eq_true hkind, hnew⟩

theorem yields_iff (hnodup : (view.nodes.map GraphNodeView.nodeId).Nodup) (hnode : node ∈ view.nodes) :
    Yields persons view (compiledItems opts persons view) node ↔
      counts opts persons view node = true ∨ Crowded opts persons view node := by
  constructor
  · rintro (⟨it, hit, hid⟩ | ⟨hcommit, kept, hsub, hfive, hall⟩)
    · obtain ⟨node', hnode', hcounts, rfl⟩ := exists_node_of_mem_compiledItems hit
      rw [← List.inj_on_of_nodup_map hnodup hnode' hnode hid]
      exact .inl hcounts
    · exact .inr (crowded_of_kept hnodup hcommit hsub hfive hall)
  · rintro (hcounts | hcrowded)
    · exact yields_of_counts hnode hcounts
    · exact yields_of_crowded hcrowded

end Complete

/-- **A node touched in the window has its item** exactly if it is read to be of the window, and is no node
of the person itself; or if five commits crowd it out. -/
theorem compile_complete_iff (source : GraphSource) (r : CompileReadings) (twin : Twin) (opts : CompileOpts)
    (hfuture : NoFuture opts (mergedView (fetchedViews source twin opts.hops))) :
    let view := mergedView (fetchedViews source twin opts.hops)
    let persons := (subjectIds twin).map personNode
    ∀ node ∈ view.nodes, TouchedInWindow opts persons view node →
      (Yields persons view (compiledLedger source r twin opts).ledger.items node ↔
        persons.contains node.nodeId = false ∧ ReadInWindow opts persons view node ∨
          Crowded opts persons view node) := by
  intro view persons node hnode htouched
  have hitems : (compiledLedger source r twin opts).ledger.items = compiledItems opts persons view := by
    show compiledItems opts _ (fetchViews source twin opts.hops) = _
    rw [fetchViews_eq]
  rw [hitems, yields_iff mergedView_nodes_nodup hnode, counts_iff hfuture htouched]

/-! ### An older push -/

def repoNodeView : GraphNodeView :=
  { (default : GraphNodeView) with nodeId := "repo:a/b", nodeType := "Repo", resourceId := "a/b" }

def pushOf (edgeId : String) (time : DateTime) : GraphEdgeView :=
  { (default : GraphEdgeView) with
    edgeId := edgeId, edgeType := "PUSHED_TO", fromNodeId := "person:gu_alice", toNodeId := "repo:a/b",
    eventId := edgeId, validFrom := some time }

/-- Alice pushed to a repository, before the window and in it; the edges come in either order. -/
def pushedTwice (edges : List GraphEdgeView) : GraphSource := fun _ userId _ _ =>
  if userId = "gu_alice" then .ok { nodes := [repoNodeView], edges := edges } else .ok {}

def olderFirst : List GraphEdgeView := [pushOf "e1" (-5), pushOf "e2" 10]

def newerFirst : List GraphEdgeView := [pushOf "e2" 10, pushOf "e1" (-5)]

theorem noFuture_pushed {edges : List GraphEdgeView}
    (h : ∀ e ∈ edges, ∀ ts, e.validFrom = some ts → ts ≤ aliceOpts.activityEnd) :
    NoFuture aliceOpts { nodes := [repoNodeView], edges := edges } :=
  ⟨h, nofun⟩

theorem touched_pushed {edges : List GraphEdgeView} (h : pushOf "e2" 10 ∈ edges) :
    TouchedInWindow aliceOpts ["person:gu_alice", "person:gu_old"]
      { nodes := [repoNodeView], edges := edges } repoNodeView :=
  ⟨by decide, by decide, pushOf "e2" 10, h, by decide, 10, rfl, by decide, by decide⟩

/-- The newer push comes first, and the repository has its item. -/
theorem compile_complete_iff_newer_first :
    Yields ["person:gu_alice", "person:gu_old"] { nodes := [repoNodeView], edges := newerFirst }
      (compiledLedger (pushedTwice newerFirst) ⟨"a", 1, 1, 1, 1⟩ aliceTwin aliceOpts).ledger.items
      repoNodeView := by
  have hfuture : NoFuture aliceOpts (mergedView (fetchedViews (pushedTwice newerFirst) aliceTwin 3)) := by
    refine noFuture_pushed fun e he ts hts => ?_
    rcases List.mem_pair.mp he with rfl | rfl <;>
    · obtain rfl := Option.some.inj hts
      decide
  have hiff := compile_complete_iff (pushedTwice newerFirst) ⟨"a", 1, 1, 1, 1⟩ aliceTwin aliceOpts hfuture
    repoNodeView (List.mem_singleton_self _) (touched_pushed List.mem_cons_self)
  refine hiff.mpr (.inl ⟨by decide, .inr (.inr (.inl ⟨pushOf "e2" 10, ?_, 10, rfl, by decide⟩))⟩)
  exact List.mem_singleton_self _

/-- The older push comes first, and the repository has none. -/
theorem older_edge_hides_work :
    let view : GraphView := { nodes := [repoNodeView], edges := olderFirst }
    mergedView (fetchedViews (pushedTwice olderFirst) aliceTwin aliceOpts.hops) = view ∧
    NoFuture aliceOpts view ∧
    TouchedInWindow aliceOpts ["person:gu_alice", "person:gu_old"] view repoNodeView ∧
    ¬ Yields ["person:gu_alice", "person:gu_old"] view
      (compiledLedger (pushedTwice olderFirst) ⟨"a", 1, 1, 1, 1⟩ aliceTwin aliceOpts).ledger.items
      repoNodeView := by
  have hitems : (compiledLedger (pushedTwice olderFirst) ⟨"a", 1, 1, 1, 1⟩ aliceTwin
      aliceOpts).ledger.items = [] := by decide +kernel
  refine ⟨rfl, noFuture_pushed fun e he ts hts => ?_,
    touched_pushed (List.mem_cons_of_mem _ (List.mem_singleton_self _)), ?_⟩
  · rcases List.mem_pair.mp he with rfl | rfl <;>
    · obtain rfl := Option.some.inj hts
      decide
  · rw [hitems]
    rintro (⟨it, hit, -⟩ | ⟨hcommit, -⟩)
    · cases hit
    · exact absurd hcommit (by decide)

end AiManager.Twins
