import AiManager.Twins.Compiler

/-! # What a compiled ledger says

The items of a compiled ledger as work nodes of the merged views, in the order of their activity. No item
is invented (`compiledLedger_sound`): every one is a node that an edge joins to the person, its evidence
is read off the views, and what is open or blocked comes from there, too. -/

namespace AiManager.Twins

open Lib

/-! ## Merged views -/

section Merge
variable {α : Type} {same : α → α → Bool} {into part : List α} {views : List GraphView}

theorem mem_pushNew {x : α} (h : x ∈ pushNew same into part) : x ∈ into ∨ x ∈ part := by
  unfold pushNew at h
  induction part generalizing into with
  | nil => exact .inl h
  | cons y ys ih =>
    rw [List.foldl_cons] at h
    rcases ih h with h | h
    · split at h
      · exact .inl h
      · rcases List.mem_append.mp h with h | h
        · exact .inl h
        · rw [List.mem_singleton.mp h]
          exact .inr List.mem_cons_self
    · exact .inr (List.mem_cons_of_mem _ h)

theorem subset_pushNew {x : α} (h : x ∈ into) : x ∈ pushNew same into part := by
  unfold pushNew
  induction part generalizing into with
  | nil => exact h
  | cons y ys ih =>
    rw [List.foldl_cons]
    apply ih
    split_ifs
    · exact h
    · exact List.mem_append_left _ h

/-- Every row has one like it in the merged rows. -/
theorem exists_pushNew (hsame : ∀ x, same x x = true) {x : α} (h : x ∈ part) :
    ∃ y ∈ pushNew same into part, same y x = true := by
  induction part generalizing into with
  | nil => cases h
  | cons y ys ih =>
    rcases List.mem_cons.mp h with rfl | h
    · by_cases hany : (into.any fun y => same y x) = true
      · obtain ⟨y, hy, hlike⟩ := List.any_eq_true.mp hany
        exact ⟨y, subset_pushNew hy, hlike⟩
      · refine ⟨x, ?_, hsame x⟩
        unfold pushNew
        rw [List.foldl_cons, if_neg hany]
        exact subset_pushNew (List.mem_append_right _ (List.mem_singleton_self x))
    · exact ih h

/-- Rows that are told apart by a key keep apart. -/
theorem nodup_pushNew {β : Type} [BEq β] [LawfulBEq β] {key : α → β} (h : (into.map key).Nodup) :
    ((pushNew (fun x y => key x == key y) into part).map key).Nodup := by
  unfold pushNew
  induction part generalizing into with
  | nil => exact h
  | cons y ys ih =>
    rw [List.foldl_cons]
    apply ih
    split_ifs with hany
    · exact h
    · rw [List.map_append, List.map_singleton]
      refine List.nodup_append.mpr ⟨h, List.nodup_singleton _, ?_⟩
      intro a ha b hb hab
      obtain ⟨x, hx, rfl⟩ := List.mem_map.mp ha
      rw [List.mem_singleton.mp hb] at hab
      exact hany (List.any_eq_true.mpr ⟨x, hx, beq_iff_eq.mpr hab⟩)

/-- The views of a person's identities as one. -/
def mergedView (views : List GraphView) : GraphView := views.foldl mergeGraphView {}

theorem mergedView_concat (view : GraphView) :
    mergedView (views ++ [view]) = mergeGraphView (mergedView views) view :=
  List.foldl_concat _ _ _ _

/-- A row of the merged view is a row of a view. -/
theorem mem_mergedView (rows : GraphView → List α) {x : α} (hempty : rows {} = [])
    (hrows : ∀ into part, rows (mergeGraphView into part) = pushNew same (rows into) (rows part))
    (h : x ∈ rows (mergedView views)) : ∃ view ∈ views, x ∈ rows view := by
  induction views using List.reverseRecOn with
  | nil =>
    change x ∈ rows {} at h
    rw [hempty] at h
    cases h
  | append_singleton views view ih =>
    rw [mergedView_concat, hrows] at h
    rcases mem_pushNew h with h | h
    · obtain ⟨v, hv, hx⟩ := ih h
      exact ⟨v, List.mem_append_left _ hv, hx⟩
    · exact ⟨view, List.mem_append_right _ (List.mem_singleton_self view), h⟩

variable (same) in
/-- Every row of a view has one like it in the merged view. -/
theorem exists_mergedView (rows : GraphView → List α) (hsame : ∀ x, same x x = true)
    (hrows : ∀ into part, rows (mergeGraphView into part) = pushNew same (rows into) (rows part))
    {view : GraphView} (hview : view ∈ views) {x : α} (hx : x ∈ rows view) :
    ∃ y ∈ rows (mergedView views), same y x = true := by
  induction views using List.reverseRecOn with
  | nil => cases hview
  | append_singleton views last ih =>
    rw [mergedView_concat, hrows]
    rcases List.mem_append.mp hview with hview | hview
    · obtain ⟨y, hy, hlike⟩ := ih hview
      exact ⟨y, subset_pushNew hy, hlike⟩
    · obtain rfl := List.mem_singleton.mp hview
      exact exists_pushNew hsame hx

theorem mergedView_nodes_nodup : ((mergedView views).nodes.map GraphNodeView.nodeId).Nodup := by
  induction views using List.reverseRecOn with
  | nil => exact List.nodup_nil
  | append_singleton views view ih =>
    rw [mergedView_concat]
    exact nodup_pushNew ih

end Merge

/-! ## Work nodes -/

section Work
variable (opts : CompileOpts) (persons : List String) (view : GraphView)

/-- An edge between the node and a person. -/
def joinsPerson (nodeId : String) (e : GraphEdgeView) : Bool :=
  (persons.contains e.fromNodeId && e.toNodeId == nodeId)
    || (persons.contains e.toNodeId && e.fromNodeId == nodeId)

def lifecycleOf (nodeId : String) : String :=
  ((nodeState view.states nodeId).map EntityStateView.stateValue).getD "OPEN"

/-- An open pull request or issue. -/
def isOpenWork (node : GraphNodeView) : Bool :=
  ((workShape node).isPr || (workShape node).isIssue)
    && !(isFinished (lifecycleOf view node.nodeId) || lifecycleOf view node.nodeId == "RESOLVED")

/-- The computed activity time of a node. -/
def activityOf (nodeId : String) : Option DateTime :=
  activityTs (signals persons view.edges nodeId) (nodeState view.states nodeId)

/-- The node has an item. -/
def counts (node : GraphNodeView) : Bool :=
  !persons.contains node.nodeId && !nodeViewIsDemoSeed node && (workShape node).any
    && !(signals persons view.edges node.nodeId).isEmpty
    && (isOpenWork view node || !outsideLookback opts (activityOf persons view node.nodeId))

def itemOf (node : GraphNodeView) : LedgerItem where
  kind := (workShape node).kind
  resourceId := if node.resourceId = "" then node.nodeId else node.resourceId
  nodeId := node.nodeId
  summary := summaryOf (workShape node) node (signals persons view.edges node.nodeId)
    (lifecycleOf view node.nodeId)
  confidence := scoreItemConfidence (lifecycleOf view node.nodeId) true
  evidenceRefs := evidence node.nodeId (signals persons view.edges node.nodeId)
    (nodeState view.states node.nodeId)

theorem nodeItem_eq (node : GraphNodeView) : nodeItem opts persons view node =
    if counts opts persons view node then
      some (activityOf persons view node.nodeId, itemOf persons view node)
    else none := by
  have hbody : nodeItem opts persons view node =
      if persons.contains node.nodeId || nodeViewIsDemoSeed node then none
      else if !(workShape node).any || (signals persons view.edges node.nodeId).isEmpty then none
      else if !isOpenWork view node && outsideLookback opts (activityOf persons view node.nodeId) then none
      else some (activityOf persons view node.nodeId, itemOf persons view node) := rfl
  rw [hbody]
  unfold counts
  cases persons.contains node.nodeId <;> cases nodeViewIsDemoSeed node <;>
    cases (workShape node).any <;> cases (signals persons view.edges node.nodeId).isEmpty <;>
    cases isOpenWork view node <;>
    cases outsideLookback opts (activityOf persons view node.nodeId) <;> rfl

/-- Later activity comes first; nodes without a time come last. -/
def NewerFirst (a b : GraphNodeView) : Prop :=
  tsLe (activityOf persons view b.nodeId) (activityOf persons view a.nodeId) = true

instance : DecidableRel (NewerFirst persons view) := fun _ _ => inferInstanceAs (Decidable (_ = _))

/-- The work nodes in the order of their activity. -/
def rankedNodes : List GraphNodeView :=
  (view.nodes.filter (counts opts persons view)).insertionSort (NewerFirst persons view)

theorem compiledItems_eq : compiledItems opts persons view =
    capCommits 0 ((rankedNodes opts persons view).map (itemOf persons view)) := by
  have hranked : view.nodes.filterMap (nodeItem opts persons view) =
      (view.nodes.filter (counts opts persons view)).map fun node =>
        (activityOf persons view node.nodeId, itemOf persons view node) := by
    induction view.nodes with
    | nil => rfl
    | cons node nodes ih =>
      rw [List.filterMap_cons, nodeItem_eq, ih]
      cases hcounts : counts opts persons view node <;> simp [hcounts]
  unfold compiledItems rankedNodes
  dsimp only
  rw [hranked, ← List.map_insertionSort (r := NewerFirst persons view), List.map_map]
  · rfl
  · exact fun _ _ _ _ => Iff.rfl

end Work

/-! ## The cap -/

section Cap
variable {n : Nat} {items : List LedgerItem} {it : LedgerItem}

theorem capCommits_sublist : (capCommits n items).Sublist items := by
  induction items generalizing n with
  | nil => exact List.Sublist.slnil
  | cons it rest ih =>
    unfold capCommits
    split
    · split
      · exact ih.cons it
      · exact ih.cons_cons it
    · exact ih.cons_cons it

/-- The first commits stay. -/
theorem commits_capCommits : (capCommits n items).filter (fun it => it.kind = "commit") =
    (items.filter fun it => it.kind = "commit").take (5 - n) := by
  induction items generalizing n with
  | nil => simp [capCommits]
  | cons it rest ih =>
    unfold capCommits
    split
    · next hcommit =>
      split
      · next hfull =>
        have hnone : 5 - n = 0 := by omega
        have hnext : 5 - (n + 1) = 0 := by omega
        rw [ih, hnone, hnext, List.take_zero, List.take_zero]
      · next hroom =>
        have hone : 5 - n = 5 - (n + 1) + 1 := by omega
        rw [List.filter_cons_of_pos (by simpa using hcommit),
          List.filter_cons_of_pos (by simpa using hcommit), ih, hone, List.take_succ_cons]
    · next hother =>
      rw [List.filter_cons_of_neg (by simpa using hother),
        List.filter_cons_of_neg (by simpa using hother), ih]

/-- Other items stay all. -/
theorem others_capCommits : (capCommits n items).filter (fun it => it.kind ≠ "commit") =
    items.filter fun it => it.kind ≠ "commit" := by
  induction items generalizing n with
  | nil => rfl
  | cons it rest ih =>
    unfold capCommits
    split
    · next hcommit =>
      split
      · rw [ih, List.filter_cons_of_neg (by simpa using hcommit)]
      · rw [List.filter_cons_of_neg (by simpa using hcommit), ih,
          List.filter_cons_of_neg (by simpa using hcommit)]
    · next hother =>
      rw [List.filter_cons_of_pos (by simpa using hother), ih,
        List.filter_cons_of_pos (by simpa using hother)]

end Cap

/-! ## Order and origin of the items -/

section Items
variable {opts : CompileOpts} {persons : List String} {view : GraphView} {node : GraphNodeView}
  {it : LedgerItem}

theorem tsLe_trans {a b c : Option DateTime} (h : tsLe a b = true) (h' : tsLe b c = true) :
    tsLe a c = true := by
  cases a with
  | none => rfl
  | some a =>
    cases b with
    | none => cases h
    | some b =>
      cases c with
      | none => cases h'
      | some c => exact decide_eq_true ((of_decide_eq_true h).trans (of_decide_eq_true h'))

theorem tsLe_total (a b : Option DateTime) : tsLe a b = true ∨ tsLe b a = true := by
  cases a with
  | none => exact .inl rfl
  | some a =>
    cases b with
    | none => exact .inr rfl
    | some b => exact (le_total a b).imp decide_eq_true decide_eq_true

instance : IsTrans GraphNodeView (NewerFirst persons view) := ⟨fun _ _ _ h h' => tsLe_trans h' h⟩

instance : Std.Total (NewerFirst persons view) := ⟨fun _ _ => tsLe_total _ _⟩

theorem mem_rankedNodes : node ∈ rankedNodes opts persons view ↔
    node ∈ view.nodes ∧ counts opts persons view node = true := by
  unfold rankedNodes
  rw [List.mem_insertionSort, List.mem_filter]

theorem rankedNodes_pairwise : (rankedNodes opts persons view).Pairwise (NewerFirst persons view) :=
  List.pairwise_insertionSort _ _

theorem rankedNodes_nodup (h : (view.nodes.map GraphNodeView.nodeId).Nodup) :
    ((rankedNodes opts persons view).map GraphNodeView.nodeId).Nodup := by
  refine ((List.perm_insertionSort _ _).map _).nodup_iff.mpr ?_
  exact h.sublist (List.filter_sublist.map _)

theorem exists_node_of_mem_compiledItems (h : it ∈ compiledItems opts persons view) :
    ∃ node ∈ view.nodes, counts opts persons view node = true ∧ it = itemOf persons view node := by
  rw [compiledItems_eq] at h
  obtain ⟨node, hnode, rfl⟩ := List.mem_map.mp (capCommits_sublist.subset h)
  obtain ⟨hmem, hcounts⟩ := mem_rankedNodes.mp hnode
  exact ⟨node, hmem, hcounts, rfl⟩

/-- An edge that a signal found joins the node to a person. -/
theorem joinsPerson_of_touches {edgeType nodeId : String} {e : GraphEdgeView}
    (hnode : persons.contains nodeId = false) (h : touches persons edgeType nodeId e = true) :
    joinsPerson persons nodeId e = true := by
  simp only [touches, Bool.and_eq_true, Bool.or_eq_true, beq_iff_eq] at h
  -- the node is no person, so the other end is
  obtain ⟨⟨-, hto | hfrom⟩, hperson⟩ := h
  · rw [hto, hnode] at hperson
    unfold joinsPerson
    rw [hperson.resolve_right Bool.false_ne_true, hto, beq_self_eq_true]
    rfl
  · rw [hfrom, hnode] at hperson
    unfold joinsPerson
    rw [hperson.resolve_left Bool.false_ne_true, hfrom, beq_self_eq_true]
    exact Bool.or_true _

theorem joinsPerson_of_reaches {edgeType nodeId : String} {e : GraphEdgeView}
    (h : reaches persons edgeType nodeId e = true) : joinsPerson persons nodeId e = true := by
  simp only [reaches, Bool.and_eq_true, beq_iff_eq] at h
  obtain ⟨⟨-, hperson⟩, hto⟩ := h
  unfold joinsPerson
  rw [hperson, hto, beq_self_eq_true]
  rfl

/-- The named edges are edges of the view, and join the node to a person. -/
theorem of_mem_named {nodeId : String} {e : GraphEdgeView} (hnode : persons.contains nodeId = false)
    (h : e ∈ (signals persons view.edges nodeId).named) :
    e ∈ view.edges ∧ joinsPerson persons nodeId e = true := by
  have htouches : ∀ edgeType, view.edges.find? (touches persons edgeType nodeId) = some e →
      e ∈ view.edges ∧ joinsPerson persons nodeId e = true := fun _ hfound =>
    ⟨List.mem_of_find?_eq_some hfound, joinsPerson_of_touches hnode (List.find?_some hfound)⟩
  have hreaches : ∀ edgeType, view.edges.find? (reaches persons edgeType nodeId) = some e →
      e ∈ view.edges ∧ joinsPerson persons nodeId e = true := fun _ hfound =>
    ⟨List.mem_of_find?_eq_some hfound, joinsPerson_of_reaches (List.find?_some hfound)⟩
  unfold Signals.named at h
  obtain ⟨found, hfound, hsome⟩ := List.mem_filterMap.mp h
  simp only [List.mem_cons, List.not_mem_nil, or_false] at hfound
  rcases hfound with rfl | rfl | rfl | rfl
  · exact htouches "AUTHORED" hsome
  · exact htouches "ASSIGNED_TO" hsome
  · exact hreaches "PUSHED_TO" hsome
  · exact hreaches "CHECKED" hsome

/-- A node that counts is joined to a person. -/
theorem exists_joining (h : counts opts persons view node = true) :
    ∃ e ∈ view.edges, joinsPerson persons node.nodeId e = true := by
  simp only [counts, Bool.and_eq_true, Bool.not_eq_true'] at h
  obtain ⟨⟨⟨⟨hnode, -⟩, -⟩, hsignals⟩, -⟩ := h
  cases hnamed : (signals persons view.edges node.nodeId).named with
  | cons e es =>
    have he : e ∈ (signals persons view.edges node.nodeId).named := by
      rw [hnamed]
      exact List.mem_cons_self
    exact ⟨e, of_mem_named hnode he⟩
  | nil =>
    unfold Signals.isEmpty at hsignals
    rw [hnamed] at hsignals
    cases hlinked : (signals persons view.edges node.nodeId).linked with
    | nil =>
      rw [hlinked] at hsignals
      cases hsignals
    | cons e es =>
      have he : e ∈ (signals persons view.edges node.nodeId).linked := by
        rw [hlinked]
        exact List.mem_cons_self
      exact ⟨e, List.mem_filter.mp he⟩

/-! ### Evidence -/

/-- What a reference can name: a joining edge by its id, its event or its time, the event of a state of
the node, or the node. -/
inductive Names (persons : List String) (view : GraphView) (nodeId : String) : String → Prop
  | edge {e : GraphEdgeView} (he : e ∈ view.edges) (hjoins : joinsPerson persons nodeId e = true) :
      Names persons view nodeId ("edge:" ++ e.edgeId)
  | event {e : GraphEdgeView} (he : e ∈ view.edges) (hjoins : joinsPerson persons nodeId e = true) :
      Names persons view nodeId ("event:" ++ e.eventId)
  | time {e : GraphEdgeView} {ts : DateTime} (he : e ∈ view.edges)
      (hjoins : joinsPerson persons nodeId e = true) (hts : e.validFrom = some ts) :
      Names persons view nodeId ("at:" ++ ts.toRfc3339)
  | state {s : EntityStateView} (hs : s ∈ view.states) (hnode : s.nodeId = nodeId) :
      Names persons view nodeId ("event:" ++ s.eventId)
  | node : Names persons view nodeId ("node:" ++ nodeId)

theorem mem_nonempty {label value ref : String} (h : ref ∈ nonempty label value) : ref = label ++ value := by
  unfold nonempty at h
  split at h
  · cases h
  · exact List.mem_singleton.mp h

theorem nodeState_mem {nodeId : String} {s : EntityStateView} (h : nodeState view.states nodeId = some s) :
    s ∈ view.states ∧ s.nodeId = nodeId := by
  have hfound : ∀ stateKey, view.states.find? (fun s => s.nodeId == nodeId && s.stateKey == stateKey) = some s →
      s ∈ view.states ∧ s.nodeId = nodeId := by
    intro stateKey hfound
    refine ⟨List.mem_of_find?_eq_some hfound, ?_⟩
    have htest := List.find?_some hfound
    simp only [Bool.and_eq_true, beq_iff_eq] at htest
    exact htest.1
  unfold nodeState at h
  rcases Option.or_eq_some_iff.mp h with h | ⟨-, h⟩
  · exact hfound _ h
  · exact hfound _ h

theorem names_of_mem_evidence {nodeId ref : String} (hnode : persons.contains nodeId = false)
    (h : ref ∈ evidence nodeId (signals persons view.edges nodeId) (nodeState view.states nodeId)) :
    Names persons view nodeId ref := by
  have hcases : ∀ found : List String, ref ∈ (if found.isEmpty then ["node:" ++ nodeId] else found) →
      ref = "node:" ++ nodeId ∨ ref ∈ found := by
    intro found h
    split at h
    · exact .inl (List.mem_singleton.mp h)
    · exact .inr h
  unfold evidence at h
  rcases hcases _ (List.mem_eraseDups.mp h) with rfl | h
  · exact .node
  · rcases List.mem_append.mp h with h | h
    · obtain ⟨e, he, href⟩ := List.mem_flatMap.mp h
      obtain ⟨hmem, hjoins⟩ := of_mem_named hnode he
      unfold edgeEvidence at href
      rcases List.mem_append.mp href with href | href
      · rcases List.mem_append.mp href with href | href
        · rw [List.mem_singleton.mp href]
          exact .edge hmem hjoins
        · rw [mem_nonempty href]
          exact .event hmem hjoins
      · split at href
        · next ts hts =>
          rw [List.mem_singleton.mp href]
          exact .time hmem hjoins hts
        · cases href
    · split at h
      · next s hs =>
        obtain ⟨hmem, hof⟩ := nodeState_mem hs
        rw [mem_nonempty h]
        exact .state hmem hof
      · cases h

end Items

/-! ## Blockers -/

section Blockers
variable {view : GraphView}

/-- A sorted list without equal neighbours names nothing twice. -/
theorem nodup_destutter {α : Type} {f : α → String} {l : List α} (h : l.Pairwise fun a b => f a ≤ f b) :
    ((l.destutter fun a b => f a ≠ f b).map f).Nodup := by
  have hsorted : (l.destutter fun a b => f a ≠ f b).Pairwise fun a b => f a ≤ f b :=
    h.sublist (List.destutter_sublist _ l)
  have hneighbours := List.isChain_destutter (fun a b => f a ≠ f b) l
  have hlt : (l.destutter fun a b => f a ≠ f b).IsChain fun a b => f a < f b := by
    generalize l.destutter (fun a b => f a ≠ f b) = rows at hsorted hneighbours
    induction rows with
    | nil => exact List.IsChain.nil
    | cons a rows ih =>
      obtain ⟨hfirst, hrest⟩ := List.pairwise_cons.mp hsorted
      cases rows with
      | nil => exact List.IsChain.singleton a
      | cons b rows =>
        obtain ⟨hne, hchain⟩ := List.isChain_cons_cons.mp hneighbours
        refine List.isChain_cons_cons.mpr ⟨?_, ih hrest hchain⟩
        rw [← String.not_le]
        exact fun hle => hne (String.le_antisymm (hfirst b List.mem_cons_self) hle)
  have htrans : Trans (fun a b : α => f a < f b) (fun a b => f a < f b) fun a b => f a < f b :=
    ⟨fun h h' => String.lt_trans h h'⟩
  exact List.pairwise_map.mpr (hlt.pairwise.imp fun hab => String.ne_of_lt hab)

theorem compiledBlockers_nodup : ((compiledBlockers view).map BlockerItem.nodeId).Nodup := by
  unfold compiledBlockers
  have htotal : Std.Total fun a b : BlockerItem => ¬ b.nodeId < a.nodeId :=
    ⟨fun a b => String.le_total a.nodeId b.nodeId⟩
  have htrans : IsTrans BlockerItem fun a b => ¬ b.nodeId < a.nodeId :=
    ⟨fun a b c h h' => String.le_trans h h'⟩
  exact nodup_destutter (List.pairwise_insertionSort _ _)

theorem of_mem_compiledBlockers {b : BlockerItem} (h : b ∈ compiledBlockers view) :
    ∃ e, (e ∈ view.blockers ∨ e ∈ view.edges ∧ isBlockEdge e = true) ∧
      edgeIsDemoSeed e view.nodes = false ∧ b.nodeId = blockTarget e := by
  unfold compiledBlockers at h
  have hsorted := (List.destutter_sublist _ _).subset h
  obtain ⟨e, he, hof⟩ := List.mem_filterMap.mp ((List.mem_insertionSort _).mp hsorted)
  have horigin : e ∈ view.blockers ∨ e ∈ view.edges ∧ isBlockEdge e = true :=
    (List.mem_append.mp he).imp_right List.mem_filter.mp
  unfold blockerOf at hof
  split at hof
  · cases hof
  · next hdemo =>
    split at hof
    · cases hof
    · refine ⟨e, horigin, ?_, ?_⟩
      · simpa using hdemo
      · rw [← Option.some.inj hof]

end Blockers

/-! ## Soundness -/

/-- Nothing in the ledger is invented: what each item and each blocker is about, and how they are chosen
and ordered. -/
structure SoundLedger (opts : CompileOpts) (persons : List String) (view : GraphView)
    (ledger : StatusLedger) : Prop where
  nodes : ∀ it ∈ ledger.items, ∃ node ∈ view.nodes, node.nodeId = it.nodeId ∧
    nodeViewIsDemoSeed node = false ∧
    (∃ e ∈ view.edges, joinsPerson persons node.nodeId e = true) ∧
    -- outside the window only open work
    (isOpenWork view node = false → ∀ ts, activityOf persons view node.nodeId = some ts →
      opts.activityStart ≤ ts ∧ ts ≤ opts.activityEnd)
  once : (ledger.items.map LedgerItem.nodeId).Nodup
  evidence : ∀ it ∈ ledger.items, ∀ ref ∈ it.evidenceRefs, Names persons view it.nodeId ref
  commits : (ledger.items.filter fun it => it.kind = "commit").length ≤ 5
  order : ledger.items.Pairwise fun a b =>
    tsLe (activityOf persons view b.nodeId) (activityOf persons view a.nodeId) = true
  blockers : ∀ b ∈ ledger.openBlockers, ∃ e, (e ∈ view.blockers ∨ e ∈ view.edges ∧ isBlockEdge e = true) ∧
    edgeIsDemoSeed e view.nodes = false ∧ b.nodeId = blockTarget e
  targets : (ledger.openBlockers.map BlockerItem.nodeId).Nodup
  rollup : ledger.confidenceRollup = rollUpConfidence ledger.items ledger.openBlockers

/-- The views that were fetched, in the order of the identities. -/
def fetchedViews (source : GraphSource) (twin : Twin) (hops : Nat) : List GraphView :=
  (subjectIds twin).filterMap fun sid => (fetchPersonView source twin hops sid).toOption

theorem fetchViews_eq (source : GraphSource) (twin : Twin) (hops : Nat) :
    fetchViews source twin hops = mergedView (fetchedViews source twin hops) := by
  unfold fetchViews mergedView fetchedViews
  rw [List.foldl_filterMap]
  refine List.foldl_ext _ _ _ fun view sid _ => ?_
  unfold fetchInto
  cases fetchPersonView source twin hops sid <;> rfl

section Sound
variable {opts : CompileOpts} {persons : List String} {view : GraphView}

theorem compiledItems_sound (hnodup : (view.nodes.map GraphNodeView.nodeId).Nodup) (ledger : StatusLedger)
    (hitems : ledger.items = compiledItems opts persons view)
    (hblockers : ledger.openBlockers = compiledBlockers view)
    (hrollup : ledger.confidenceRollup = rollUpConfidence ledger.items ledger.openBlockers) :
    SoundLedger opts persons view ledger := by
  have hsub : (compiledItems opts persons view).Sublist
      ((rankedNodes opts persons view).map (itemOf persons view)) := by
    rw [compiledItems_eq]
    exact capCommits_sublist
  refine ⟨fun it hit => ?_, ?_, fun it hit ref href => ?_, ?_, ?_, fun b hb => ?_, ?_, hrollup⟩
  · rw [hitems] at hit
    obtain ⟨node, hnode, hcounts, rfl⟩ := exists_node_of_mem_compiledItems hit
    have hjoins := exists_joining hcounts
    simp only [counts, Bool.and_eq_true, Bool.or_eq_true, Bool.not_eq_true'] at hcounts
    obtain ⟨⟨⟨⟨-, hdemo⟩, -⟩, -⟩, hwindow⟩ := hcounts
    refine ⟨node, hnode, rfl, hdemo, hjoins, fun hopen ts hts => ?_⟩
    have hinside := hwindow.resolve_left (by simp [hopen])
    rw [hts] at hinside
    simpa [outsideLookback] using hinside
  · rw [hitems]
    refine List.Nodup.sublist (hsub.map LedgerItem.nodeId) ?_
    rw [List.map_map]
    exact rankedNodes_nodup hnodup
  · rw [hitems] at hit
    obtain ⟨node, -, hcounts, rfl⟩ := exists_node_of_mem_compiledItems hit
    simp only [counts, Bool.and_eq_true, Bool.not_eq_true'] at hcounts
    exact names_of_mem_evidence hcounts.1.1.1.1 href
  · rw [hitems, compiledItems_eq, commits_capCommits]
    exact List.length_take_le _ _
  · rw [hitems]
    refine List.Pairwise.sublist hsub ?_
    rw [List.pairwise_map]
    exact rankedNodes_pairwise
  · rw [hblockers] at hb
    exact of_mem_compiledBlockers hb
  · rw [hblockers]
    exact compiledBlockers_nodup

end Sound

/-- The rows of a merged view are rows of the views. -/
structure MergedFrom (views : List GraphView) (view : GraphView) : Prop where
  nodes : ∀ n ∈ view.nodes, ∃ v ∈ views, n ∈ v.nodes
  edges : ∀ e ∈ view.edges, ∃ v ∈ views, e ∈ v.edges
  states : ∀ s ∈ view.states, ∃ v ∈ views, s ∈ v.states
  blockers : ∀ b ∈ view.blockers, ∃ v ∈ views, b ∈ v.blockers

theorem mergedView_from (views : List GraphView) : MergedFrom views (mergedView views) where
  nodes _ h := mem_mergedView GraphView.nodes rfl (fun _ _ => rfl) h
  edges _ h := mem_mergedView GraphView.edges rfl (fun _ _ => rfl) h
  states _ h := mem_mergedView GraphView.states rfl (fun _ _ => rfl) h
  blockers _ h := mem_mergedView GraphView.blockers rfl (fun _ _ => rfl) h

/-- **Nothing is invented**, whatever the views, the identities and the window. -/
theorem compiledLedger_sound (source : GraphSource) (r : CompileReadings) (twin : Twin) (opts : CompileOpts) :
    let views := fetchedViews source twin opts.hops
    MergedFrom views (mergedView views) ∧
      SoundLedger opts ((subjectIds twin).map personNode) (mergedView views)
        (compiledLedger source r twin opts).ledger := by
  refine ⟨mergedView_from _, compiledItems_sound mergedView_nodes_nodup _ ?_ ?_ rfl⟩
  · rw [← fetchViews_eq]
    rfl
  · rw [← fetchViews_eq]
    rfl

end AiManager.Twins
