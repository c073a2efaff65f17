import AiManager.Graph.Conflicts
import AiManager.Lib.Sorting

/-! # Competing intents on a work item

The intents of a work item come from ABOUT edges and from their own property. A card for a release against a freeze, or
for several owners, stands on the work item exactly if its intents say so (`ownersCards_exact`). -/

namespace AiManager.Graph

open Lib

/-! ## The intents of a work item -/

section About
variable (nodes : List GraphNode) (edges : List GraphEdge) (asOf : DateTime)

/-- The intent is about the work item, by an active edge or by its property. -/
def About (i : GraphNode) (w : String) : Prop :=
  i ∈ intentsOf nodes ∧
    ((∃ e ∈ edges, activeEdge asOf e = true ∧ Text.eqIgnoreAsciiCase e.edgeType "ABOUT" = true ∧
      e.fromNodeId = i.nodeId ∧ e.toNodeId = w) ∨ i.properties.getStr "about_node_id" = some w)

variable {nodes edges asOf} {intents : List GraphNode} {i : GraphNode} {w : String}

theorem intentsOf_nodup (h : (nodes.map GraphNode.nodeId).Nodup) : ((intentsOf nodes).map GraphNode.nodeId).Nodup :=
  h.sublist (List.filter_sublist.map _)

theorem mem_indexEdge {about : AboutWork} {e : GraphEdge} :
    i ∈ ((indexEdge intents about e).get w).getD [] ↔ i ∈ (about.get w).getD [] ∨
      (Text.eqIgnoreAsciiCase e.edgeType "ABOUT" = true ∧ e.toNodeId = w ∧
        intents.find? (fun i => i.nodeId = e.fromNodeId) = some i) := by
  unfold indexEdge
  split_ifs with hkind
  · cases hfind : intents.find? (fun i => i.nodeId = e.fromNodeId) with
    | none => simp
    | some intent =>
      dsimp only
      rw [KMap.get_put]
      split_ifs with hw
      · rw [Option.getD_some, List.mem_append, List.mem_singleton, hw]
        simp [hkind, eq_comm]
      · simp [Ne.symm hw]
  · simp [hkind]

theorem mem_foldl_indexEdge {about : AboutWork} {es : List GraphEdge} :
    i ∈ ((es.foldl (indexEdge intents) about).get w).getD [] ↔ i ∈ (about.get w).getD [] ∨
      ∃ e ∈ es, Text.eqIgnoreAsciiCase e.edgeType "ABOUT" = true ∧ e.toNodeId = w ∧
        intents.find? (fun i => i.nodeId = e.fromNodeId) = some i := by
  induction es generalizing about with
  | nil => simp
  | cons e es ih => rw [List.foldl_cons, ih, mem_indexEdge, List.exists_mem_cons_iff, or_assoc]

theorem mem_indexProperty (hintents : (intents.map GraphNode.nodeId).Nodup) {about : AboutWork} {intent : GraphNode}
    (hmem : intent ∈ intents) (habout : ∀ w, (about.get w).getD [] ⊆ intents) :
    i ∈ ((indexProperty about intent).get w).getD [] ↔ i ∈ (about.get w).getD [] ∨
      (i = intent ∧ intent.properties.getStr "about_node_id" = some w) := by
  unfold indexProperty
  cases hwork : intent.properties.getStr "about_node_id" with
  | none => simp
  | some work =>
    dsimp only
    rw [KMap.get_put]
    split_ifs with hw
    · rw [Option.getD_some, mem_addBy hintents (habout work) hmem, hw]
      simp
    · simp [Ne.symm hw]

theorem mem_foldl_indexProperty (hintents : (intents.map GraphNode.nodeId).Nodup) {about : AboutWork}
    {is : List GraphNode} (his : is ⊆ intents) (habout : ∀ w, (about.get w).getD [] ⊆ intents) :
    i ∈ ((is.foldl indexProperty about).get w).getD [] ↔ i ∈ (about.get w).getD [] ∨
      (i ∈ is ∧ i.properties.getStr "about_node_id" = some w) := by
  induction is generalizing about with
  | nil => simp
  | cons intent is ih =>
    have hmem : intent ∈ intents := his List.mem_cons_self
    have habout' : ∀ w, ((indexProperty about intent).get w).getD [] ⊆ intents := by
      intro w x hx
      rcases (mem_indexProperty hintents hmem habout).mp hx with hx | ⟨rfl, -⟩
      · exact habout w hx
      · exact hmem
    rw [List.foldl_cons, ih (fun x hx => his (List.mem_cons_of_mem _ hx)) habout',
      mem_indexProperty hintents hmem habout, List.mem_cons, or_assoc]
    refine or_congr_right ?_
    constructor
    · rintro (⟨rfl, h⟩ | ⟨h, hw⟩)
      · exact ⟨.inl rfl, h⟩
      · exact ⟨.inr h, hw⟩
    · rintro ⟨rfl | h, hw⟩
      · exact .inl ⟨rfl, hw⟩
      · exact .inr ⟨h, hw⟩

/-- The list of a work item has the intents that are about it. -/
theorem mem_aboutOf (hnodes : (nodes.map GraphNode.nodeId).Nodup) :
    i ∈ ((aboutOf nodes edges asOf).get w).getD [] ↔ About nodes edges asOf i w := by
  have hintents := intentsOf_nodup hnodes
  have hfind : ∀ {k}, (intentsOf nodes).find? (fun i => i.nodeId = k) = some i ↔
      i ∈ intentsOf nodes ∧ i.nodeId = k := by
    intro k
    constructor
    · exact fun h => ⟨List.mem_of_find?_eq_some h, by simpa using List.find?_some h⟩
    · rintro ⟨hi, hid⟩
      cases hfound : (intentsOf nodes).find? (fun i => i.nodeId = k) with
      | none => exact absurd hid (by simpa using List.find?_eq_none.mp hfound i hi)
      | some j =>
        have hj : j.nodeId = k := by simpa using List.find?_some hfound
        rw [List.inj_on_of_nodup_map hintents (List.mem_of_find?_eq_some hfound) hi (hj.trans hid.symm)]
  have hedges : ∀ {i w}, i ∈ (((edges.filter (activeEdge asOf)).foldl (indexEdge (intentsOf nodes)) ∅).get w).getD [] ↔
      ∃ e ∈ edges.filter (activeEdge asOf), Text.eqIgnoreAsciiCase e.edgeType "ABOUT" = true ∧ e.toNodeId = w ∧
        (intentsOf nodes).find? (fun i => i.nodeId = e.fromNodeId) = some i := by
    intro i w
    rw [mem_foldl_indexEdge, KMap.get_empty, Option.getD_none, or_iff_right List.not_mem_nil]
  have hsub : ∀ w, (((edges.filter (activeEdge asOf)).foldl (indexEdge (intentsOf nodes)) ∅).get w).getD [] ⊆
      intentsOf nodes := by
    intro w i hi
    obtain ⟨e, -, -, -, hfound⟩ := hedges.mp hi
    exact List.mem_of_find?_eq_some hfound
  unfold aboutOf aboutWork About
  rw [mem_foldl_indexProperty hintents (fun _ h => h) hsub, hedges]
  constructor
  · rintro (⟨e, he, hkind, hw, hfound⟩ | ⟨hi, hw⟩)
    · obtain ⟨hmem, hactive⟩ := List.mem_filter.mp he
      obtain ⟨hi, hid⟩ := hfind.mp hfound
      exact ⟨hi, .inl ⟨e, hmem, hactive, hkind, hid.symm, hw⟩⟩
    · exact ⟨hi, .inr hw⟩
  · rintro ⟨hi, ⟨e, hmem, hactive, hkind, hid, hw⟩ | hw⟩
    · exact .inl ⟨e, List.mem_filter.mpr ⟨hmem, hactive⟩, hkind, hw, hfind.mpr ⟨hi, hid.symm⟩⟩
    · exact .inr ⟨hi, hw⟩

end About

/-! ## The card of a work item -/

section Card
variable {order : HashOrder} {tenantId w : String} {list : List GraphNode} {c : ConflictCard}

/-- One of the intents is of the type. -/
def Claims (list : List GraphNode) (intentType : String) : Prop := ∃ i ∈ list, intentTypeOf i = intentType

def SeveralOwners (list : List GraphNode) : Prop :=
  ∃ i ∈ list, ∃ j ∈ list, ∃ a b, ownerOf i = some a ∧ ownerOf j = some b ∧ a ≠ b

/-- A release is claimed, and a freeze. -/
def ShipAndFreeze (list : List GraphNode) : Prop := Claims list "SHIP" ∧ Claims list "FREEZE"

theorem mem_typesOf {t : String} (ht : t ≠ "") : t ∈ typesOf list ↔ Claims list t := by
  unfold typesOf Claims
  rw [mem_destutter_ne, List.mem_insertionSort, List.mem_filter, List.mem_map]
  simp [ht]

theorem shipAndFreeze_iff :
    ((typesOf list).contains "SHIP" && (typesOf list).contains "FREEZE") = true ↔ ShipAndFreeze list := by
  rw [Bool.and_eq_true, List.contains_iff_mem, List.contains_iff_mem, mem_typesOf (by decide), mem_typesOf (by decide)]
  rfl

theorem severalOwners_iff : (order.iter (list.filterMap ownerOf).dedup).length > 1 ↔ SeveralOwners list := by
  rw [(order.perm _).length_eq]
  refine one_lt_length_dedup_iff.trans ?_
  constructor
  · rintro ⟨a, ha, b, hb, hab⟩
    obtain ⟨i, hi, hia⟩ := List.mem_filterMap.mp ha
    obtain ⟨j, hj, hjb⟩ := List.mem_filterMap.mp hb
    exact ⟨i, hi, j, hj, a, b, hia, hjb, hab⟩
  · rintro ⟨i, hi, j, hj, a, b, hia, hjb, hab⟩
    exact ⟨a, List.mem_filterMap.mpr ⟨i, hi, hia⟩, b, List.mem_filterMap.mpr ⟨j, hj, hjb⟩, hab⟩

theorem two_le_of_severalOwners (h : SeveralOwners list) : 2 ≤ list.length := by
  obtain ⟨i, hi, j, hj, a, b, hia, hjb, hab⟩ := h
  refine two_le_length_of_ne hi hj ?_
  rintro rfl
  exact hab (Option.some.inj (hia.symm.trans hjb))

theorem two_le_of_shipAndFreeze (h : ShipAndFreeze list) : 2 ≤ list.length := by
  obtain ⟨⟨i, hi, hship⟩, ⟨j, hj, hfreeze⟩⟩ := h
  refine two_le_length_of_ne hi hj ?_
  rintro rfl
  rw [hship] at hfreeze
  exact absurd hfreeze (by decide)

/-- What a card of competing intents says. -/
structure OwnersCard (tenantId w : String) (list : List GraphNode) (c : ConflictCard) : Prop where
  id : (SeveralOwners list ∧ c.conflictId = cardId tenantId (w ++ "_owners")) ∨
    (¬ SeveralOwners list ∧ c.conflictId = cardId tenantId (w ++ "_ship_freeze"))
  kind : (ShipAndFreeze list ∧ c.kind = .shipVsFreeze ∧ c.severity = .high) ∨
    (¬ ShipAndFreeze list ∧ SeveralOwners list ∧ c.kind = .dualOwners ∧ c.severity = .medium)
  about : c.nodeIds.head? = some w
  evidence : c.evidence = noteMixedSeed (list.map GraphNode.displayName) list
  isDemo : c.isDemo = intentsAllDemo list

theorem ownersCard_spec (h : ownersCard order tenantId w list = some c) : OwnersCard tenantId w list c := by
  unfold ownersCard at h
  dsimp only at h
  split_ifs at h with hlength howners hboth hboth
  · rw [severalOwners_iff] at howners
    rw [shipAndFreeze_iff] at hboth
    obtain rfl := Option.some.inj h
    exact ⟨.inl ⟨howners, rfl⟩, .inl ⟨hboth, rfl, rfl⟩, rfl, rfl, rfl⟩
  · rw [severalOwners_iff] at howners
    rw [shipAndFreeze_iff] at hboth
    obtain rfl := Option.some.inj h
    exact ⟨.inl ⟨howners, rfl⟩, .inr ⟨hboth, howners, rfl, rfl⟩, rfl, rfl, rfl⟩
  · rw [severalOwners_iff] at howners
    rw [shipAndFreeze_iff] at hboth
    obtain rfl := Option.some.inj h
    exact ⟨.inr ⟨howners, rfl⟩, .inl ⟨hboth, rfl, rfl⟩, rfl, rfl, rfl⟩

theorem ownersCard_isSome (order : HashOrder) (tenantId w : String) (h : SeveralOwners list ∨ ShipAndFreeze list) :
    ∃ c, ownersCard order tenantId w list = some c := by
  have hlength : ¬ list.length < 2 := Nat.not_lt.mpr (h.elim two_le_of_severalOwners two_le_of_shipAndFreeze)
  unfold ownersCard
  dsimp only
  rw [if_neg hlength]
  split_ifs with howners hboth hboth
  · exact ⟨_, rfl⟩
  · exact ⟨_, rfl⟩
  · exact ⟨_, rfl⟩
  · rw [severalOwners_iff] at howners
    rw [shipAndFreeze_iff] at hboth
    exact (h.elim howners hboth).elim

theorem cardId_inj {a b : String} (h : cardId tenantId a = cardId tenantId b) : a = b :=
  (String.append_right_inj _).mp h

/-- Two such cards with one id stand on one work item. -/
theorem OwnersCard.same_work {w' : String} {list' : List GraphNode} {c' : ConflictCard}
    (h : OwnersCard tenantId w list c) (h' : OwnersCard tenantId w' list' c') (hid : c.conflictId = c'.conflictId) :
    w = w' := by
  have hends : ∀ a b : String, a ++ "_owners" ≠ b ++ "_ship_freeze" := by
    intro a b heq
    have hlast := congrArg (fun s => s.toList.getLast?) heq
    simp [String.toList_append] at hlast
  rcases h.id with ⟨-, hw⟩ | ⟨-, hw⟩
  · rcases h'.id with ⟨-, hw'⟩ | ⟨-, hw'⟩
    · exact (String.append_left_inj _).mp (cardId_inj (hw.symm.trans (hid.trans hw')))
    · exact absurd (cardId_inj (hw.symm.trans (hid.trans hw'))) (hends w w')
  · rcases h'.id with ⟨-, hw'⟩ | ⟨-, hw'⟩
    · exact absurd (cardId_inj (hw'.symm.trans (hid.symm.trans hw))) (hends w' w)
    · exact (String.append_left_inj _).mp (cardId_inj (hw.symm.trans (hid.trans hw')))

end Card

/-! ## Cards of another origin -/

/-- What is told apart about a card. -/
def ConflictCard.key (c : ConflictCard) : String × ConflictKind × ConflictSeverity := (c.conflictId, c.kind, c.severity)

/-- What the ids of other cards begin with, and what these are. -/
def stems : List (String × ConflictKind × ConflictSeverity) :=
  [("mutual_", .dualBlocks, .high), ("blocked_", .openBlocker, .medium), ("blocks_ship_", .dualBlocks, .high),
    ("merge_friction_", .mergeFriction, .high), ("stale_review_", .staleReview, .medium),
    ("ci_blocked_", .ciBlocked, .high)]

section Rest
variable {order : HashOrder} {chrono : DateParsers} {tenantId w : String} {nodes : List GraphNode} {asOf : DateTime}
  {about : AboutWork} {blocks : List GraphEdge} {a b e : GraphEdge} {i : GraphNode} {c : ConflictCard}
  {k : String × ConflictKind × ConflictSeverity}

theorem mutualCard_spec (h : mutualCard tenantId about (a, b) = some c) :
    Opposed a b ∧ c.key = (mutualId tenantId a, .dualBlocks, .high) ∧ c.nodeIds = [a.fromNodeId, a.toNodeId] ∧
      c.intentTypes = ["BLOCKED"] := by
  unfold mutualCard at h
  dsimp only at h
  split_ifs at h with hopposed
  obtain rfl := Option.some.inj h
  exact ⟨hopposed, rfl, rfl, rfl⟩

theorem blockedCard_spec (h : blockedCard tenantId i = some c) :
    c.key = (cardId tenantId ("blocked_" ++ i.nodeId), .openBlocker, .medium) := by
  unfold blockedCard at h
  split_ifs at h
  obtain rfl := Option.some.inj h
  rfl

theorem blocksShipCard_spec (h : blocksShipCard tenantId about e = some c) :
    Claims ((about.get e.toNodeId).getD []) "SHIP" ∧
      c.key = (cardId tenantId ("blocks_ship_" ++ (e.fromNodeId ++ "_" ++ e.toNodeId)), .dualBlocks, .high) ∧
        c.intentTypes = ["SHIP", "BLOCKED"] := by
  unfold blocksShipCard at h
  obtain ⟨list, hlist, hcard⟩ := Option.bind_eq_some_iff.mp h
  split_ifs at hcard with hship
  obtain rfl := Option.some.inj hcard
  rw [hlist]
  exact ⟨by simpa [Claims] using hship, rfl, rfl⟩

theorem mem_keys_toList {o : Option (List String)} {f : List String → ConflictCard}
    {k' : String × ConflictKind × ConflictSeverity} (h : ∀ ev, (f ev).key = k') :
    k ∈ ((o.map f).toList).map ConflictCard.key ↔ o.isSome ∧ k = k' := by
  cases o with
  | none => simp
  | some ev => simp [h]

/-- The cards of a work item go by what its node says, and the last of them by a claimed release too. -/
theorem mem_keys_frictionCards : k ∈ (frictionCards chrono tenantId asOf nodes about w).map ConflictCard.key ↔
    ∃ work, nodes.reverse.find? (fun n => n.nodeId = w) = some work ∧
      (((detectMergeFriction work).isSome ∧ k = (cardId tenantId ("merge_friction_" ++ w), .mergeFriction, .high)) ∨
        ((detectStaleReview chrono work asOf).isSome ∧
          k = (cardId tenantId ("stale_review_" ++ w), .staleReview, .medium)) ∨
        (Claims ((about.get w).getD []) "SHIP" ∧ (detectCiFailure work).isSome ∧
          k = (cardId tenantId ("ci_blocked_" ++ w), .ciBlocked, .high))) := by
  unfold frictionCards
  cases nodes.reverse.find? (fun n => n.nodeId = w) with
  | none => simp
  | some work =>
    simp only [Option.some.injEq, exists_eq_left']
    rw [List.map_append, List.map_append, List.mem_append, List.mem_append, or_assoc]
    refine or_congr (mem_keys_toList fun ev => rfl) (or_congr (mem_keys_toList fun ev => rfl) ?_)
    have hship : (((about.get w).getD []).any fun i => intentTypeOf i = "SHIP") = true ↔
        Claims ((about.get w).getD []) "SHIP" := by simp [Claims]
    split_ifs with hany
    · rw [and_iff_right (hship.mp hany)]
      exact mem_keys_toList fun ev => rfl
    · rw [hship] at hany
      simp [hany]

theorem mem_otherCards :
    c ∈ otherCards order chrono tenantId nodes about blocks asOf ↔
      (∃ i ∈ intentsOf nodes, blockedCard tenantId i = some c) ∨ (∃ e ∈ blocks, blocksShipCard tenantId about e = some c) ∨
        ∃ w ∈ workIds nodes about, c ∈ frictionCards chrono tenantId asOf nodes about w := by
  unfold otherCards
  rw [List.mem_append, List.mem_append, List.mem_filterMap, List.mem_filterMap, List.mem_flatMap, or_assoc]
  exact or_congr_right (or_congr_right (exists_congr fun w => and_congr_left fun _ => (order.perm _).mem_iff))

theorem stem_of_mem_otherCards (h : c ∈ otherCards order chrono tenantId nodes about blocks asOf) :
    ∃ s ∈ stems.tail, ∃ rest, c.key = (cardId tenantId (s.1 ++ rest), s.2) := by
  rcases mem_otherCards.mp h with ⟨i, -, hcard⟩ | ⟨e, -, hcard⟩ | ⟨w, -, hcard⟩
  · exact ⟨("blocked_", .openBlocker, .medium), by decide, _, blockedCard_spec hcard⟩
  · exact ⟨("blocks_ship_", .dualBlocks, .high), by decide, _, (blocksShipCard_spec hcard).2.1⟩
  · obtain ⟨work, -, ⟨-, hkey⟩ | ⟨-, hkey⟩ | ⟨-, -, hkey⟩⟩ := mem_keys_frictionCards.mp (List.mem_map_of_mem hcard)
    · exact ⟨("merge_friction_", .mergeFriction, .high), by decide, _, hkey⟩
    · exact ⟨("stale_review_", .staleReview, .medium), by decide, _, hkey⟩
    · exact ⟨("ci_blocked_", .ciBlocked, .high), by decide, _, hkey⟩

/-- The id of another card begins with a stem, which says what the card is. -/
theorem stem_of_mem_rest
    (h : c ∈ mutualCards tenantId about blocks ++ otherCards order chrono tenantId nodes about blocks asOf) :
    ∃ s ∈ stems, ∃ rest, c.key = (cardId tenantId (s.1 ++ rest), s.2) := by
  rcases List.mem_append.mp h with h | h
  · obtain ⟨⟨a, b⟩, -, hcard⟩ := List.mem_filterMap.mp h
    exact ⟨("mutual_", .dualBlocks, .high), by decide, _, (mutualCard_spec hcard).2.1⟩
  · obtain ⟨s, hs, hkey⟩ := stem_of_mem_otherCards h
    exact ⟨s, List.mem_of_mem_tail hs, hkey⟩

/-- Cards of another origin are of another kind. -/
theorem kind_of_mem_rest
    (h : c ∈ mutualCards tenantId about blocks ++ otherCards order chrono tenantId nodes about blocks asOf) :
    c.kind ≠ .shipVsFreeze ∧ c.kind ≠ .dualOwners := by
  have hstems : ∀ s ∈ stems, s.2.1 ≠ .shipVsFreeze ∧ s.2.1 ≠ .dualOwners := by decide
  obtain ⟨s, hs, rest, hkey⟩ := stem_of_mem_rest h
  have hkind : c.kind = s.2.1 := congrArg (fun k => k.2.1) hkey
  rw [hkind]
  exact hstems s hs

end Rest

/-! ## The cards that are reported -/

section Detected
variable {order : HashOrder} {chrono : DateParsers} {tenantId : String} {nodes : List GraphNode}
  {edges : List GraphEdge} {asOf : DateTime} {about : AboutWork} {blocks : List GraphEdge} {c : ConflictCard}

theorem mem_detectConflicts : c ∈ detectConflicts order chrono tenantId nodes edges asOf ↔
    (foundCards order chrono tenantId nodes edges asOf).find? (fun d => d.conflictId = c.conflictId) = some c := by
  unfold detectConflicts
  rw [List.mem_insertionSort, mem_foldl_addBy_iff]
  simp

theorem detectConflicts_ids_nodup :
    ((detectConflicts order chrono tenantId nodes edges asOf).map ConflictCard.conflictId).Nodup := by
  unfold detectConflicts
  rw [((List.perm_insertionSort cardLe _).map ConflictCard.conflictId).nodup_iff]
  exact nodup_foldl_addBy List.nodup_nil

theorem mem_ownerCards : c ∈ ownerCards order tenantId about ↔
    ∃ w, ownersCard order tenantId w ((about.get w).getD []) = some c := by
  unfold ownerCards
  rw [List.mem_filterMap]
  refine exists_congr fun w => and_iff_right_of_imp fun h => ?_
  rw [(order.perm _).mem_iff]
  cases hget : about.get w with
  | none =>
    rw [hget] at h
    cases h
  | some list => exact List.mem_map.mpr ⟨(w, list), KMap.mem_items.mpr hget, rfl⟩

/-- No other card is found before a card of competing intents that has its id. -/
theorem mem_detectConflicts_of_owners (h : c ∈ ownerCards order tenantId (aboutOf nodes edges asOf)) :
    c ∈ detectConflicts order chrono tenantId nodes edges asOf := by
  rw [mem_detectConflicts]
  unfold foundCards
  dsimp only
  rw [List.find?_append]
  cases hfind : (ownerCards order tenantId (aboutOf nodes edges asOf)).find? (fun d => d.conflictId = c.conflictId) with
  | none => exact absurd (decide_eq_true rfl) (List.find?_eq_none.mp hfind c h)
  | some d =>
    have hid : d.conflictId = c.conflictId := by simpa using List.find?_some hfind
    obtain ⟨w, hw⟩ := mem_ownerCards.mp h
    obtain ⟨w', hw'⟩ := mem_ownerCards.mp (List.mem_of_find?_eq_some hfind)
    obtain rfl := (ownersCard_spec hw').same_work (ownersCard_spec hw) hid
    rw [Option.some_or, ← hw', hw]

/-- The cards of a kind that stand on the work item. -/
def cardsOn (kind : ConflictKind) (w : String) (cards : List ConflictCard) : List ConflictCard :=
  cards.filter fun c => c.kind = kind ∧ c.nodeIds.head? = some w

theorem mem_cardsOn {kind : ConflictKind} {w : String} (hkind : kind = .shipVsFreeze ∨ kind = .dualOwners) :
    c ∈ cardsOn kind w (detectConflicts order chrono tenantId nodes edges asOf) ↔
      ownersCard order tenantId w (((aboutOf nodes edges asOf).get w).getD []) = some c ∧ c.kind = kind := by
  unfold cardsOn
  rw [List.mem_filter, decide_eq_true_iff]
  constructor
  · rintro ⟨hc, rfl, hw⟩
    have hfound : c ∈ foundCards order chrono tenantId nodes edges asOf :=
      List.mem_of_find?_eq_some (mem_detectConflicts.mp hc)
    rcases List.mem_append.mp hfound with howner | hrest
    · obtain ⟨w', hw'⟩ := mem_ownerCards.mp howner
      obtain rfl : w' = w := Option.some.inj ((ownersCard_spec hw').about.symm.trans hw)
      exact ⟨hw', rfl⟩
    · have hother := kind_of_mem_rest hrest
      exact absurd hkind (not_or.mpr hother)
  · rintro ⟨hcard, hk⟩
    exact ⟨mem_detectConflicts_of_owners (mem_ownerCards.mpr ⟨w, hcard⟩), hk, (ownersCard_spec hcard).about⟩

theorem cardsOn_eq_singleton {kind : ConflictKind} {w : String} (hkind : kind = .shipVsFreeze ∨ kind = .dualOwners)
    (h : c ∈ cardsOn kind w (detectConflicts order chrono tenantId nodes edges asOf)) :
    cardsOn kind w (detectConflicts order chrono tenantId nodes edges asOf) = [c] := by
  have hnodup : (cardsOn kind w (detectConflicts order chrono tenantId nodes edges asOf)).Nodup :=
    (List.Nodup.of_map _ detectConflicts_ids_nodup).filter _
  refine List.perm_singleton.mp ((List.perm_ext_iff_of_nodup hnodup (List.nodup_singleton c)).mpr fun d => ?_)
  rw [List.mem_singleton]
  constructor
  · intro hd
    exact Option.some.inj (((mem_cardsOn hkind).mp hd).1.symm.trans ((mem_cardsOn hkind).mp h).1)
  · rintro rfl
    exact h

/-- The intents of the work item, as they are indexed. -/
def intentsAbout (nodes : List GraphNode) (edges : List GraphEdge) (asOf : DateTime) (w : String) : List GraphNode :=
  ((aboutOf nodes edges asOf).get w).getD []

theorem exists_shipVsFreeze {w : String} :
    (∃ c, c ∈ cardsOn .shipVsFreeze w (detectConflicts order chrono tenantId nodes edges asOf)) ↔
      ShipAndFreeze (intentsAbout nodes edges asOf w) := by
  constructor
  · rintro ⟨c, hc⟩
    obtain ⟨hcard, hkind⟩ := (mem_cardsOn (.inl rfl)).mp hc
    rcases (ownersCard_spec hcard).kind with ⟨hboth, -⟩ | ⟨-, -, hdual, -⟩
    · exact hboth
    · exact nomatch hkind.symm.trans hdual
  · intro h
    obtain ⟨c, hcard⟩ := ownersCard_isSome order tenantId w (.inr h)
    rcases (ownersCard_spec hcard).kind with ⟨-, hkind, -⟩ | ⟨hnot, -⟩
    · exact ⟨c, (mem_cardsOn (.inl rfl)).mpr ⟨hcard, hkind⟩⟩
    · exact absurd h hnot

theorem exists_dualOwners {w : String} :
    (∃ c, c ∈ cardsOn .dualOwners w (detectConflicts order chrono tenantId nodes edges asOf)) ↔
      SeveralOwners (intentsAbout nodes edges asOf w) ∧ ¬ ShipAndFreeze (intentsAbout nodes edges asOf w) := by
  constructor
  · rintro ⟨c, hc⟩
    obtain ⟨hcard, hkind⟩ := (mem_cardsOn (.inr rfl)).mp hc
    rcases (ownersCard_spec hcard).kind with ⟨-, hship, -⟩ | ⟨hnot, howners, -⟩
    · exact nomatch hkind.symm.trans hship
    · exact ⟨howners, hnot⟩
  · rintro ⟨howners, hnot⟩
    obtain ⟨c, hcard⟩ := ownersCard_isSome order tenantId w (.inl howners)
    rcases (ownersCard_spec hcard).kind with ⟨hship, -⟩ | ⟨-, -, hkind, -⟩
    · exact absurd hship hnot
    · exact ⟨c, (mem_cardsOn (.inr rfl)).mpr ⟨hcard, hkind⟩⟩

end Detected

section Exact
variable {nodes : List GraphNode} {edges : List GraphEdge} {asOf : DateTime} {w : String} {list : List GraphNode}

theorem intentsAllDemo_iff (hlist : list ≠ []) : intentsAllDemo list = true ↔ ∀ i ∈ list, nodeIsDemo i = true := by
  unfold intentsAllDemo
  rw [Bool.and_eq_true, List.all_eq_true, and_iff_right]
  rwa [Bool.not_eq_true', List.isEmpty_eq_false_iff]

theorem mem_noteMixedSeed {evidence : List String} {i j : GraphNode} (hi : i ∈ list) (hj : j ∈ list)
    (hdemo : nodeIsDemo i = true) (horganic : nodeIsDemo j = false) :
    "includes_seed_intent" ∈ noteMixedSeed evidence list := by
  have hmixed : (list.any nodeIsDemo && !intentsAllDemo list) = true := by
    rw [Bool.and_eq_true, Bool.not_eq_true', Bool.eq_false_iff, Ne, intentsAllDemo_iff (List.ne_nil_of_mem hi)]
    refine ⟨List.any_eq_true.mpr ⟨i, hi, hdemo⟩, fun hall => ?_⟩
    rw [hall j hj] at horganic
    cases horganic
  unfold noteMixedSeed
  rw [if_pos hmixed]
  exact List.mem_append_right _ List.mem_cons_self

theorem OwnersCard.ne_nil {tenantId : String} {c : ConflictCard} (h : OwnersCard tenantId w list c) : list ≠ [] := by
  rintro rfl
  rcases h.kind with ⟨⟨⟨i, hi, -⟩, -⟩, -⟩ | ⟨-, ⟨i, hi, -⟩, -⟩
  · cases hi
  · cases hi

/-- Two intents about the work item have different owners. -/
def OwnersDiffer (nodes : List GraphNode) (edges : List GraphEdge) (asOf : DateTime) (w : String) : Prop :=
  ∃ i j a b, About nodes edges asOf i w ∧ About nodes edges asOf j w ∧ ownerOf i = some a ∧ ownerOf j = some b ∧ a ≠ b

theorem shipAndFreeze_intentsAbout (hnodes : (nodes.map GraphNode.nodeId).Nodup) :
    ShipAndFreeze (intentsAbout nodes edges asOf w) ↔
      (∃ i, About nodes edges asOf i w ∧ intentTypeOf i = "SHIP") ∧
        ∃ i, About nodes edges asOf i w ∧ intentTypeOf i = "FREEZE" :=
  and_congr (exists_congr fun _ => and_congr_left fun _ => mem_aboutOf hnodes)
    (exists_congr fun _ => and_congr_left fun _ => mem_aboutOf hnodes)

theorem severalOwners_intentsAbout (hnodes : (nodes.map GraphNode.nodeId).Nodup) :
    SeveralOwners (intentsAbout nodes edges asOf w) ↔ OwnersDiffer nodes edges asOf w := by
  constructor
  · rintro ⟨i, hi, j, hj, a, b, hia, hjb, hab⟩
    exact ⟨i, j, a, b, (mem_aboutOf hnodes).mp hi, (mem_aboutOf hnodes).mp hj, hia, hjb, hab⟩
  · rintro ⟨i, j, a, b, hi, hj, hia, hjb, hab⟩
    exact ⟨i, (mem_aboutOf hnodes).mpr hi, j, (mem_aboutOf hnodes).mpr hj, a, b, hia, hjb, hab⟩

/-- What the reported cards of competing intents on a work item are. -/
structure OwnersExact (nodes : List GraphNode) (edges : List GraphEdge) (asOf : DateTime) (w : String)
    (cards : List ConflictCard) : Prop where
  shipVsFreeze : (∃ c, cardsOn .shipVsFreeze w cards = [c] ∧ c.severity = .high) ↔
    (∃ i, About nodes edges asOf i w ∧ intentTypeOf i = "SHIP") ∧
      ∃ i, About nodes edges asOf i w ∧ intentTypeOf i = "FREEZE"
  shipVsFreeze_all : ∀ c ∈ cardsOn .shipVsFreeze w cards, cardsOn .shipVsFreeze w cards = [c] ∧ c.severity = .high
  dualOwners : (∃ c, cardsOn .dualOwners w cards = [c]) ↔
    OwnersDiffer nodes edges asOf w ∧ cardsOn .shipVsFreeze w cards = []
  dualOwners_all : ∀ c ∈ cardsOn .dualOwners w cards, cardsOn .dualOwners w cards = [c]
  isDemo : ∀ c ∈ cardsOn .shipVsFreeze w cards ++ cardsOn .dualOwners w cards,
    (c.isDemo = true ↔ ∀ i, About nodes edges asOf i w → nodeIsDemo i = true)
  mixed : ∀ c ∈ cardsOn .shipVsFreeze w cards ++ cardsOn .dualOwners w cards,
    (∃ i, About nodes edges asOf i w ∧ nodeIsDemo i = true) → (∃ i, About nodes edges asOf i w ∧ nodeIsDemo i = false) →
      "includes_seed_intent" ∈ c.evidence

/-- The cards say what the intents say, whatever the order of anything. -/
theorem ownersCards_exact (order : HashOrder) (chrono : DateParsers) (tenantId : String) (nodes : List GraphNode)
    (edges : List GraphEdge) (asOf : DateTime) (w : String) (hnodes : (nodes.map GraphNode.nodeId).Nodup) :
    OwnersExact nodes edges asOf w (detectConflicts order chrono tenantId nodes edges asOf) := by
  set cards := detectConflicts order chrono tenantId nodes edges asOf
  have hspec : ∀ c ∈ cardsOn .shipVsFreeze w cards ++ cardsOn .dualOwners w cards,
      OwnersCard tenantId w (intentsAbout nodes edges asOf w) c := by
    intro c hc
    rcases List.mem_append.mp hc with hc | hc
    · exact ownersCard_spec ((mem_cardsOn (.inl rfl)).mp hc).1
    · exact ownersCard_spec ((mem_cardsOn (.inr rfl)).mp hc).1
  have hhigh : ∀ c ∈ cardsOn .shipVsFreeze w cards, cardsOn .shipVsFreeze w cards = [c] ∧ c.severity = .high := by
    intro c hc
    refine ⟨cardsOn_eq_singleton (.inl rfl) hc, ?_⟩
    rcases (hspec c (List.mem_append_left _ hc)).kind with ⟨-, -, hhigh⟩ | ⟨hnot, -⟩
    · exact hhigh
    · exact absurd (exists_shipVsFreeze.mp ⟨c, hc⟩) hnot
  have hone : ∀ c ∈ cardsOn .dualOwners w cards, cardsOn .dualOwners w cards = [c] :=
    fun c hc => cardsOn_eq_singleton (.inr rfl) hc
  constructor
  case shipVsFreeze =>
    rw [← shipAndFreeze_intentsAbout hnodes, ← exists_shipVsFreeze]
    constructor
    · rintro ⟨c, hc, -⟩
      exact ⟨c, hc ▸ List.mem_singleton_self c⟩
    · rintro ⟨c, hc⟩
      exact ⟨c, hhigh c hc⟩
  case shipVsFreeze_all => exact hhigh
  case dualOwners =>
    rw [← severalOwners_intentsAbout hnodes, List.eq_nil_iff_forall_not_mem, ← not_exists, exists_shipVsFreeze,
      ← exists_dualOwners]
    constructor
    · rintro ⟨c, hc⟩
      exact ⟨c, hc ▸ List.mem_singleton_self c⟩
    · rintro ⟨c, hc⟩
      exact ⟨c, hone c hc⟩
  case dualOwners_all => exact hone
  case isDemo =>
    intro c hc
    rw [(hspec c hc).isDemo, intentsAllDemo_iff (hspec c hc).ne_nil]
    exact forall_congr' fun i => imp_congr_left (mem_aboutOf hnodes)
  case mixed =>
    rintro c hc ⟨i, hi, hdemo⟩ ⟨j, hj, horganic⟩
    rw [(hspec c hc).evidence]
    exact mem_noteMixedSeed ((mem_aboutOf hnodes).mpr hi) ((mem_aboutOf hnodes).mpr hj) hdemo horganic

/-- An intent of the owner on the pull request. -/
def claimOn (id intentType owner : String) (isDemo : Bool) : GraphNode :=
  ⟨"t", id, "Intent", intentType ++ ": pr:mix", "pr:mix",
    .obj [("intent_type", .str intentType), ("about_node_id", .str "pr:mix"), ("owner_node_id", .str owner),
      ("is_demo", .bool isDemo)], false, [], 0⟩

/-- A release that somebody wants, against a freeze from the demo. -/
def mixedClaims : List GraphNode :=
  [claimOn "intent:m1" "SHIP" "person:real" false, claimOn "intent:m2" "FREEZE" "person:gu_demo_bob" true]

theorem mixedClaims_exact :
    OwnersExact mixedClaims [] 5 "pr:mix"
      (detectConflicts ⟨id, List.Perm.refl⟩ ⟨fun _ => none, fun _ _ => none, fun _ _ => none⟩ "t" mixedClaims [] 5) :=
  ownersCards_exact ⟨id, List.Perm.refl⟩ ⟨fun _ => none, fun _ _ => none, fun _ _ => none⟩ "t" mixedClaims [] 5 "pr:mix"
    (by decide)

end Exact

end AiManager.Graph
