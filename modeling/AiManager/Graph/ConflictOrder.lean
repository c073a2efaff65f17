import AiManager.Graph.ConflictOwners
import AiManager.Lib.OrderLimit
import Mathlib.Data.List.Permutation

/-! # Conflicts and the order of rows

Entities that block one another are found by going over pairs of edges, and the card is named after the edge that comes
first. Everything else about the cards depends on what rows there are and not on their order. When nothing depends on
it is `orderFree_iff`. -/

namespace AiManager.Graph

open Lib

/-! ## Pairs -/

section Pairs
variable {α : Type} {l l' : List α} {a b : α}

theorem mem_pairs : (a, b) ∈ pairs l ↔ [a, b].Sublist l := by
  induction l with
  | nil => simp [pairs]
  | cons x xs ih =>
    show (a, b) ∈ xs.map (x, ·) ++ pairs xs ↔ _
    rw [List.mem_append, ih, List.sublist_cons_iff, or_comm]
    refine or_congr_right ?_
    constructor
    · intro h
      obtain ⟨y, hy, heq⟩ := List.mem_map.mp h
      obtain ⟨rfl, rfl⟩ := Prod.mk.inj heq
      exact ⟨[y], rfl, List.singleton_sublist.mpr hy⟩
    · rintro ⟨r, heq, hr⟩
      obtain ⟨rfl, rfl⟩ := List.cons.inj heq
      exact List.mem_map_of_mem (List.singleton_sublist.mp hr)

/-- In another order a pair is still there, in one order or the other. -/
theorem pair_sublist_of_perm (h : l.Perm l') (hab : [a, b].Sublist l) : [a, b].Sublist l' ∨ [b, a].Sublist l' := by
  obtain ⟨p, hp, hsub⟩ := (hab.subperm.trans h.subperm : [a, b].Subperm l')
  rcases List.perm_pair.mp hp with rfl | rfl
  · exact .inl hsub
  · exact .inr hsub

end Pairs

/-! ## Ids -/

section Ids
variable (tenantId : String) (nodes : List GraphNode) (edges : List GraphEdge) (asOf : DateTime)

/-- A card of competing intents has the id. -/
def Taken (x : String) : Prop :=
  ∃ w, (SeveralOwners (intentsAbout nodes edges asOf w) ∧ x = cardId tenantId (w ++ "_owners")) ∨
    (¬ SeveralOwners (intentsAbout nodes edges asOf w) ∧ ShipAndFreeze (intentsAbout nodes edges asOf w) ∧
      x = cardId tenantId (w ++ "_ship_freeze"))

/-- Two opposed edges go by the id, whichever comes first. -/
def Settled (x : String) : Prop :=
  ∃ a b, [a, b].Sublist (blocksOf edges asOf) ∧ Opposed a b ∧ mutualId tenantId a = x ∧ mutualId tenantId b = x

/-- Edges back and forth go by one id, or a card of competing intents takes an id of theirs and the other does not
depend on the order. -/
def OneName : Prop :=
  ∀ a ∈ blocksOf edges asOf, ∀ b ∈ blocksOf edges asOf, Opposed a b →
    mutualId tenantId a = mutualId tenantId b ∨
    (Taken tenantId nodes edges asOf (mutualId tenantId a) ∧
      (Taken tenantId nodes edges asOf (mutualId tenantId b) ∨ Settled tenantId edges asOf (mutualId tenantId b))) ∨
    (Taken tenantId nodes edges asOf (mutualId tenantId b) ∧
      (Taken tenantId nodes edges asOf (mutualId tenantId a) ∨ Settled tenantId edges asOf (mutualId tenantId a)))

end Ids

section Keys
variable {order : HashOrder} {chrono : DateParsers} {tenantId : String} {nodes : List GraphNode}
  {edges : List GraphEdge} {asOf : DateTime} {about : AboutWork} {blocks : List GraphEdge} {c d : ConflictCard}
  {k : String × ConflictKind × ConflictSeverity} {x : String}

theorem taken_iff (order : HashOrder) : Taken tenantId nodes edges asOf x ↔
    ∃ c ∈ ownerCards order tenantId (aboutOf nodes edges asOf), c.conflictId = x := by
  constructor
  · rintro ⟨w, ⟨howners, rfl⟩ | ⟨hnot, hboth, rfl⟩⟩
    · obtain ⟨c, hc⟩ := ownersCard_isSome order tenantId w (.inl howners)
      rcases (ownersCard_spec hc).id with ⟨-, hid⟩ | ⟨hnot, -⟩
      · exact ⟨c, mem_ownerCards.mpr ⟨w, hc⟩, hid⟩
      · exact absurd howners hnot
    · obtain ⟨c, hc⟩ := ownersCard_isSome order tenantId w (.inr hboth)
      rcases (ownersCard_spec hc).id with ⟨howners, -⟩ | ⟨-, hid⟩
      · exact absurd howners hnot
      · exact ⟨c, mem_ownerCards.mpr ⟨w, hc⟩, hid⟩
  · rintro ⟨c, hc, rfl⟩
    obtain ⟨w, hw⟩ := mem_ownerCards.mp hc
    have hspec := ownersCard_spec hw
    rcases hspec.id with howners | ⟨hnot, hid⟩
    · exact ⟨w, .inl howners⟩
    · rcases hspec.kind with ⟨hboth, -⟩ | ⟨-, howners, -⟩
      · exact ⟨w, .inr ⟨hnot, hboth, hid⟩⟩
      · exact absurd howners hnot

/-- No stem begins another. -/
theorem stems_apart : ∀ s ∈ stems, ∀ t ∈ stems, s.1.toList <+: t.1.toList → s = t := by decide

theorem eq_of_stem {s t : String × ConflictKind × ConflictSeverity} {rest rest' : List Char} (hs : s ∈ stems)
    (ht : t ∈ stems) (h : s.1.toList ++ rest = t.1.toList ++ rest') : s = t := by
  rcases List.prefix_or_prefix_of_prefix (List.prefix_append s.1.toList rest)
      (h.symm ▸ List.prefix_append t.1.toList rest') with h | h
  · exact stems_apart s hs t ht h
  · exact (stems_apart t ht s hs h).symm

/-- Apart from competing intents, the id says what the card is. -/
theorem key_of_id
    (hc : c ∈ mutualCards tenantId about blocks ++ otherCards order chrono tenantId nodes about blocks asOf)
    (hd : d ∈ mutualCards tenantId about blocks ++ otherCards order chrono tenantId nodes about blocks asOf)
    (hid : c.conflictId = d.conflictId) : c.key = d.key := by
  obtain ⟨s, hs, rest, hckey⟩ := stem_of_mem_rest hc
  obtain ⟨t, ht, rest', hdkey⟩ := stem_of_mem_rest hd
  have hcid : c.conflictId = cardId tenantId (s.1 ++ rest) := congrArg Prod.fst hckey
  have hdid : d.conflictId = cardId tenantId (t.1 ++ rest') := congrArg Prod.fst hdkey
  have heq : s.1.toList ++ rest.toList = t.1.toList ++ rest'.toList := by
    rw [← String.toList_append, ← String.toList_append, cardId_inj (hcid.symm.trans (hid.trans hdid))]
  obtain rfl := eq_of_stem hs ht heq
  rw [hckey, hdkey, ← hcid, ← hdid, hid]

theorem not_taken_iff : ¬ Taken tenantId nodes edges asOf x ↔
    (ownerCards order tenantId (aboutOf nodes edges asOf)).find? (fun d => d.conflictId = x) = none := by
  rw [taken_iff order, List.find?_eq_none]
  simp

/-- What is reported: the cards of competing intents, and the first with each id that these leave. -/
theorem mem_detectConflicts_iff : c ∈ detectConflicts order chrono tenantId nodes edges asOf ↔
    c ∈ ownerCards order tenantId (aboutOf nodes edges asOf) ∨
    (¬ Taken tenantId nodes edges asOf c.conflictId ∧
      (mutualCards tenantId (aboutOf nodes edges asOf) (blocksOf edges asOf) ++
        otherCards order chrono tenantId nodes (aboutOf nodes edges asOf) (blocksOf edges asOf) asOf).find?
          (fun d => d.conflictId = c.conflictId) = some c) := by
  constructor
  · intro h
    rw [mem_detectConflicts] at h
    unfold foundCards at h
    dsimp only at h
    rw [List.find?_append] at h
    cases hfind : (ownerCards order tenantId (aboutOf nodes edges asOf)).find? (fun d => d.conflictId = c.conflictId) with
    | some d =>
      rw [hfind, Option.some_or] at h
      exact .inl (Option.some.inj h ▸ List.mem_of_find?_eq_some hfind)
    | none =>
      rw [hfind, Option.none_or] at h
      exact .inr ⟨not_taken_iff.mpr hfind, h⟩
  · rintro (h | ⟨htaken, h⟩)
    · exact mem_detectConflicts_of_owners h
    · rw [mem_detectConflicts]
      unfold foundCards
      dsimp only
      rw [List.find?_append, not_taken_iff.mp htaken, Option.none_or, h]

theorem mem_keys : k ∈ (detectConflicts order chrono tenantId nodes edges asOf).map ConflictCard.key ↔
    (∃ c ∈ ownerCards order tenantId (aboutOf nodes edges asOf), c.key = k) ∨
    (¬ Taken tenantId nodes edges asOf k.1 ∧
      ∃ c ∈ mutualCards tenantId (aboutOf nodes edges asOf) (blocksOf edges asOf) ++
        otherCards order chrono tenantId nodes (aboutOf nodes edges asOf) (blocksOf edges asOf) asOf, c.key = k) := by
  rw [List.mem_map]
  constructor
  · rintro ⟨c, hc, rfl⟩
    rcases mem_detectConflicts_iff.mp hc with howner | ⟨htaken, hfind⟩
    · exact .inl ⟨c, howner, rfl⟩
    · exact .inr ⟨htaken, c, List.mem_of_find?_eq_some hfind, rfl⟩
  · rintro (⟨c, hc, rfl⟩ | ⟨htaken, c, hc, rfl⟩)
    · exact ⟨c, mem_detectConflicts_of_owners hc, rfl⟩
    · cases hfind : (mutualCards tenantId (aboutOf nodes edges asOf) (blocksOf edges asOf) ++
          otherCards order chrono tenantId nodes (aboutOf nodes edges asOf) (blocksOf edges asOf) asOf).find?
            (fun d => d.conflictId = c.conflictId) with
      | none => exact absurd (decide_eq_true rfl) (List.find?_eq_none.mp hfind c hc)
      | some d =>
        have hid : d.conflictId = c.conflictId := by simpa using List.find?_some hfind
        refine ⟨d, mem_detectConflicts_iff.mpr (.inr ⟨?_, ?_⟩), key_of_id (List.mem_of_find?_eq_some hfind) hc hid⟩
        · rw [hid]
          exact htaken
        · rw [hid]
          exact hfind

end Keys

/-! ## The same rows -/

/-- The same rows in any order, an edge any number of times. -/
structure SameRows (nodes nodes' : List GraphNode) (edges edges' : List GraphEdge) : Prop where
  nodup : (nodes.map GraphNode.nodeId).Nodup
  nodup' : (nodes'.map GraphNode.nodeId).Nodup
  node : ∀ n, n ∈ nodes ↔ n ∈ nodes'
  edge : ∀ e, e ∈ edges ↔ e ∈ edges'

section SameRows
variable {order order' : HashOrder} {chrono : DateParsers} {tenantId w : String} {nodes nodes' : List GraphNode}
  {edges edges' : List GraphEdge} {asOf : DateTime} {list list' : List GraphNode} {c c' : ConflictCard} {i : GraphNode}
  {e : GraphEdge} {x t : String}

theorem SameRows.symm (h : SameRows nodes nodes' edges edges') : SameRows nodes' nodes edges' edges :=
  ⟨h.nodup', h.nodup, fun n => (h.node n).symm, fun e => (h.edge e).symm⟩

theorem SameRows.of_perm (hnodes : (nodes.map GraphNode.nodeId).Nodup) (hn : nodes'.Perm nodes) (he : edges'.Perm edges) :
    SameRows nodes nodes' edges edges' :=
  ⟨hnodes, (hn.map GraphNode.nodeId).nodup_iff.mpr hnodes, fun _ => hn.mem_iff.symm, fun _ => he.mem_iff.symm⟩

theorem SameRows.mem_intentsOf (h : SameRows nodes nodes' edges edges') : i ∈ intentsOf nodes ↔ i ∈ intentsOf nodes' := by
  unfold intentsOf
  rw [List.mem_filter, List.mem_filter, h.node]

theorem SameRows.mem_blocksOf (h : SameRows nodes nodes' edges edges') :
    e ∈ blocksOf edges asOf ↔ e ∈ blocksOf edges' asOf := by
  unfold blocksOf
  rw [List.mem_filter, List.mem_filter, List.mem_filter, List.mem_filter, h.edge]

theorem SameRows.mem_intentsAbout (h : SameRows nodes nodes' edges edges') :
    i ∈ intentsAbout nodes edges asOf w ↔ i ∈ intentsAbout nodes' edges' asOf w := by
  refine (mem_aboutOf h.nodup).trans (Iff.trans ?_ (mem_aboutOf h.nodup').symm)
  exact and_congr h.mem_intentsOf (or_congr_left (exists_congr fun e => and_congr_left fun _ => h.edge e))

theorem Claims.congr (h : ∀ i, i ∈ list ↔ i ∈ list') : Claims list t ↔ Claims list' t :=
  exists_congr fun i => and_congr_left fun _ => h i

theorem ShipAndFreeze.congr (h : ∀ i, i ∈ list ↔ i ∈ list') : ShipAndFreeze list ↔ ShipAndFreeze list' :=
  and_congr (Claims.congr h) (Claims.congr h)

theorem SeveralOwners.congr (h : ∀ i, i ∈ list ↔ i ∈ list') : SeveralOwners list ↔ SeveralOwners list' :=
  exists_congr fun i => and_congr (h i) (exists_congr fun j => and_congr_left fun _ => h j)

theorem OwnersCard.key_eq (hlist : ∀ i, i ∈ list ↔ i ∈ list') (h : OwnersCard tenantId w list c)
    (h' : OwnersCard tenantId w list' c') : c.key = c'.key := by
  have hid : c.conflictId = c'.conflictId := by
    rcases h.id with ⟨howners, hid⟩ | ⟨hnot, hid⟩
    · rcases h'.id with ⟨-, hid'⟩ | ⟨hnot', -⟩
      · exact hid.trans hid'.symm
      · exact absurd ((SeveralOwners.congr hlist).mp howners) hnot'
    · rcases h'.id with ⟨howners', -⟩ | ⟨-, hid'⟩
      · exact absurd ((SeveralOwners.congr hlist).mpr howners') hnot
      · exact hid.trans hid'.symm
  unfold ConflictCard.key
  rcases h.kind with ⟨hboth, hkind, hsev⟩ | ⟨hnot, -, hkind, hsev⟩
  · rcases h'.kind with ⟨-, hkind', hsev'⟩ | ⟨hnot', -⟩
    · rw [hid, hkind, hsev, hkind', hsev']
    · exact absurd ((ShipAndFreeze.congr hlist).mp hboth) hnot'
  · rcases h'.kind with ⟨hboth', -⟩ | ⟨-, -, hkind', hsev'⟩
    · exact absurd ((ShipAndFreeze.congr hlist).mpr hboth') hnot
    · rw [hid, hkind, hsev, hkind', hsev']

theorem SameRows.taken (h : SameRows nodes nodes' edges edges') :
    Taken tenantId nodes edges asOf x ↔ Taken tenantId nodes' edges' asOf x := by
  unfold Taken
  refine exists_congr fun w => ?_
  rw [SeveralOwners.congr fun _ => h.mem_intentsAbout, ShipAndFreeze.congr fun _ => h.mem_intentsAbout]

theorem SameRows.owners (h : SameRows nodes nodes' edges edges')
    (hc : c ∈ ownerCards order tenantId (aboutOf nodes edges asOf)) :
    ∃ c' ∈ ownerCards order' tenantId (aboutOf nodes' edges' asOf), c'.key = c.key := by
  obtain ⟨w, hw⟩ := mem_ownerCards.mp hc
  have hspec : OwnersCard tenantId w (intentsAbout nodes edges asOf w) c := ownersCard_spec hw
  have hsome : SeveralOwners (intentsAbout nodes' edges' asOf w) ∨ ShipAndFreeze (intentsAbout nodes' edges' asOf w) := by
    rw [← SeveralOwners.congr fun _ => h.mem_intentsAbout, ← ShipAndFreeze.congr fun _ => h.mem_intentsAbout]
    rcases hspec.kind with ⟨hboth, -⟩ | ⟨-, howners, -⟩
    · exact .inr hboth
    · exact .inl howners
  obtain ⟨c', hc'⟩ := ownersCard_isSome order' tenantId w hsome
  exact ⟨c', mem_ownerCards.mpr ⟨w, hc'⟩, (ownersCard_spec hc').key_eq (fun _ => h.mem_intentsAbout.symm) hspec⟩

/-- A work item is there because of an intent. -/
theorem get_indexEdge_ne_nil {about : AboutWork} {intents : List GraphNode} (h : ∀ w, about.get w ≠ some []) :
    ∀ w, (indexEdge intents about e).get w ≠ some [] := by
  intro w
  unfold indexEdge
  split_ifs
  · split
    · rw [KMap.get_put]
      split_ifs
      · simp
      · exact h w
    · exact h w
  · exact h w

theorem get_indexProperty_ne_nil {about : AboutWork} (h : ∀ w, about.get w ≠ some []) :
    ∀ w, (indexProperty about i).get w ≠ some [] := by
  intro w
  unfold indexProperty
  split
  · rw [KMap.get_put]
    split_ifs
    · intro heq
      have hkeys := Option.some.inj heq
      unfold addBy at hkeys
      split_ifs at hkeys with hmem
      · rw [hkeys] at hmem
        cases hmem
      · simp at hkeys
    · exact h w
  · exact h w

theorem get_aboutOf_ne_nil (w : String) : (aboutOf nodes edges asOf).get w ≠ some [] := by
  unfold aboutOf aboutWork
  refine List.foldlRecOn (motive := fun about : AboutWork => ∀ w, about.get w ≠ some []) _ indexProperty ?_
    (fun about h i _ => get_indexProperty_ne_nil h) w
  refine List.foldlRecOn (motive := fun about : AboutWork => ∀ w, about.get w ≠ some []) _ (indexEdge (intentsOf nodes))
    ?_ fun about h e _ => get_indexEdge_ne_nil h
  intro w
  rw [KMap.get_empty]
  nofun

theorem mem_workIds : w ∈ workIds nodes (aboutOf nodes edges asOf) ↔
    (∃ i, i ∈ intentsAbout nodes edges asOf w) ∨ ∃ n ∈ nodes, isWorkNode n = true ∧ n.nodeId = w := by
  unfold workIds intentsAbout
  rw [List.mem_dedup, List.mem_append]
  refine or_congr ?_ (by simp [and_assoc])
  constructor
  · intro h
    obtain ⟨⟨w', list⟩, hitem, rfl⟩ := List.mem_map.mp h
    have hget := KMap.mem_items.mp hitem
    rw [hget]
    refine List.exists_mem_of_ne_nil list ?_
    rintro rfl
    exact get_aboutOf_ne_nil w' hget
  · rintro ⟨i, hi⟩
    cases hget : (aboutOf nodes edges asOf).get w with
    | none =>
      rw [hget] at hi
      cases hi
    | some list => exact List.mem_map.mpr ⟨(w, list), KMap.mem_items.mpr hget, rfl⟩

theorem blocksShipCard_isSome (tenantId : String) {about : AboutWork} (h : Claims ((about.get e.toNodeId).getD []) "SHIP") :
    ∃ c, blocksShipCard tenantId about e = some c := by
  unfold blocksShipCard
  obtain ⟨i, hi, hship⟩ := h
  cases hget : about.get e.toNodeId with
  | none =>
    rw [hget] at hi
    cases hi
  | some list =>
    rw [hget] at hi
    have hany : (list.any fun i => intentTypeOf i = "SHIP") = true := List.any_eq_true.mpr ⟨i, hi, decide_eq_true hship⟩
    exact ⟨_, Option.bind_eq_some_iff.mpr ⟨list, rfl, if_pos hany⟩⟩

/-- With each id once, it does not matter which end the search begins at. -/
theorem find?_reverse_iff (hnodes : (nodes.map GraphNode.nodeId).Nodup) :
    nodes.reverse.find? (fun n => n.nodeId = w) = some i ↔ i ∈ nodes ∧ i.nodeId = w := by
  constructor
  · intro h
    exact ⟨List.mem_reverse.mp (List.mem_of_find?_eq_some h), by simpa using List.find?_some h⟩
  · rintro ⟨hi, hid⟩
    cases hfind : nodes.reverse.find? (fun n => n.nodeId = w) with
    | none => exact absurd (decide_eq_true hid) (List.find?_eq_none.mp hfind i (List.mem_reverse.mpr hi))
    | some j =>
      have hj : j.nodeId = w := by simpa using List.find?_some hfind
      have hmem : j ∈ nodes := List.mem_reverse.mp (List.mem_of_find?_eq_some hfind)
      rw [List.inj_on_of_nodup_map hnodes hmem hi (hj.trans hid.symm)]

theorem SameRows.others (h : SameRows nodes nodes' edges edges')
    (hc : c ∈ otherCards order chrono tenantId nodes (aboutOf nodes edges asOf) (blocksOf edges asOf) asOf) :
    ∃ c' ∈ otherCards order' chrono tenantId nodes' (aboutOf nodes' edges' asOf) (blocksOf edges' asOf) asOf,
      c'.key = c.key := by
  have hship : ∀ w, Claims (intentsAbout nodes edges asOf w) "SHIP" ↔ Claims (intentsAbout nodes' edges' asOf w) "SHIP" :=
    fun w => Claims.congr fun _ => h.mem_intentsAbout
  rcases mem_otherCards.mp hc with ⟨i, hi, hcard⟩ | ⟨e, he, hcard⟩ | ⟨w, hw, hcard⟩
  · exact ⟨c, mem_otherCards.mpr (.inl ⟨i, h.mem_intentsOf.mp hi, hcard⟩), rfl⟩
  · obtain ⟨hclaims, hkey, -⟩ := blocksShipCard_spec hcard
    obtain ⟨c', hc'⟩ := blocksShipCard_isSome tenantId ((hship e.toNodeId).mp hclaims)
    exact ⟨c', mem_otherCards.mpr (.inr (.inl ⟨e, h.mem_blocksOf.mp he, hc'⟩)),
      (blocksShipCard_spec hc').2.1.trans hkey.symm⟩
  · have hw' : w ∈ workIds nodes' (aboutOf nodes' edges' asOf) := by
      rw [mem_workIds] at hw ⊢
      exact hw.imp (fun ⟨i, hi⟩ => ⟨i, h.mem_intentsAbout.mp hi⟩) fun ⟨n, hn, hwork⟩ => ⟨n, (h.node n).mp hn, hwork⟩
    obtain ⟨work, hfind, hwork⟩ := mem_keys_frictionCards.mp (List.mem_map_of_mem hcard)
    have hfind' : nodes'.reverse.find? (fun n => n.nodeId = w) = some work := by
      obtain ⟨hmem, hid⟩ := (find?_reverse_iff h.nodup).mp hfind
      exact (find?_reverse_iff h.nodup').mpr ⟨(h.node work).mp hmem, hid⟩
    have hkey : c.key ∈ (frictionCards chrono tenantId asOf nodes' (aboutOf nodes' edges' asOf) w).map ConflictCard.key :=
      mem_keys_frictionCards.mpr
        ⟨work, hfind', hwork.imp id (Or.imp id fun ⟨hclaims, hci⟩ => ⟨(hship w).mp hclaims, hci⟩)⟩
    obtain ⟨c', hc', heq⟩ := List.mem_map.mp hkey
    exact ⟨c', mem_otherCards.mpr (.inr (.inr ⟨w, hw', hc'⟩)), heq⟩

end SameRows

/-! ## Entities that block one another -/

section Mutual
variable {order : HashOrder} {chrono : DateParsers} {tenantId : String} {nodes nodes' : List GraphNode}
  {edges edges' : List GraphEdge} {asOf : DateTime} {about : AboutWork} {blocks : List GraphEdge} {a b : GraphEdge}
  {c d : ConflictCard} {k : String × ConflictKind × ConflictSeverity} {x : String}

theorem mem_mutualCards : c ∈ mutualCards tenantId about blocks ↔
    ∃ a b, [a, b].Sublist blocks ∧ mutualCard tenantId about (a, b) = some c := by
  unfold mutualCards
  rw [List.mem_filterMap, Prod.exists]
  exact exists_congr fun a => exists_congr fun b => and_congr_left fun _ => mem_pairs

theorem mutualCard_isSome (tenantId : String) (about : AboutWork) (h : Opposed a b) :
    ∃ c, mutualCard tenantId about (a, b) = some c := by
  unfold mutualCard
  exact ⟨_, if_pos h⟩

theorem blocksOf_append : blocksOf (edges ++ edges') asOf = blocksOf edges asOf ++ blocksOf edges' asOf := by
  unfold blocksOf
  rw [List.filter_append, List.filter_append]

theorem blocksOf_reverse : blocksOf edges.reverse asOf = (blocksOf edges asOf).reverse := by
  unfold blocksOf
  rw [List.filter_reverse, List.filter_reverse]

theorem blocksOf_filter (p : GraphEdge → Bool) : blocksOf (edges.filter p) asOf = (blocksOf edges asOf).filter p := by
  unfold blocksOf
  rw [List.filter_comm (activeEdge asOf) p, List.filter_comm _ p]

theorem blocksOf_perm (h : edges'.Perm edges) : (blocksOf edges' asOf).Perm (blocksOf edges asOf) :=
  (h.filter _).filter _

theorem blocksOf_cons_of_mem (h : a ∈ blocksOf edges asOf) : blocksOf (a :: edges') asOf = a :: blocksOf edges' asOf := by
  obtain ⟨hmem, hkind⟩ := List.mem_filter.mp h
  unfold blocksOf
  rw [List.filter_cons, if_pos (List.mem_filter.mp hmem).2, List.filter_cons, if_pos hkind]

theorem Settled.of_perm (he : edges'.Perm edges) (h : Settled tenantId edges asOf x) : Settled tenantId edges' asOf x := by
  obtain ⟨a, b, hab, hopposed, ha, hb⟩ := h
  rcases pair_sublist_of_perm (blocksOf_perm he.symm) hab with hab | hba
  · exact ⟨a, b, hab, hopposed, ha, hb⟩
  · exact ⟨b, a, hba, ⟨hopposed.2.symm, hopposed.1.symm⟩, hb, ha⟩

theorem OneName.of_perm (h : SameRows nodes nodes' edges edges') (he : edges'.Perm edges)
    (hone : OneName tenantId nodes edges asOf) : OneName tenantId nodes' edges' asOf := by
  intro a ha b hb hopposed
  have hsettled : ∀ {x}, Settled tenantId edges asOf x → Settled tenantId edges' asOf x := fun hx => hx.of_perm he
  rw [← h.taken, ← h.taken]
  refine (hone a (h.mem_blocksOf.mpr ha) b (h.mem_blocksOf.mpr hb) hopposed).imp id (Or.imp ?_ ?_)
  · exact fun ⟨ha, hb⟩ => ⟨ha, hb.imp id hsettled⟩
  · exact fun ⟨hb, ha⟩ => ⟨hb, ha.imp id hsettled⟩

/-- The card says that the two entities block one another. -/
def ConflictCard.MutualOf (c : ConflictCard) (v w : String) : Prop :=
  c.kind = .dualBlocks ∧ c.intentTypes = ["BLOCKED"] ∧ (c.nodeIds = [v, w] ∨ c.nodeIds = [w, v])

variable (chrono tenantId nodes edges asOf) in
/-- The order of the rows does not show, and entities that block one another have one card however many edges say so. -/
structure OrderFree : Prop where
  same : ∀ (order order' : HashOrder) (nodes' : List GraphNode) (edges' : List GraphEdge), nodes'.Perm nodes →
    edges'.Perm edges → ∀ k,
      k ∈ (detectConflicts order chrono tenantId nodes edges asOf).map ConflictCard.key ↔
        k ∈ (detectConflicts order' chrono tenantId nodes' edges' asOf).map ConflictCard.key
  one : ∀ (order : HashOrder) (nodes' : List GraphNode) (edges' : List GraphEdge), nodes'.Perm nodes →
    (∀ e, e ∈ edges ↔ e ∈ edges') → ∀ v w, ∀ c ∈ detectConflicts order chrono tenantId nodes' edges' asOf,
      ∀ d ∈ detectConflicts order chrono tenantId nodes' edges' asOf, c.MutualOf v w → d.MutualOf v w → c = d

theorem mutualId_ne_of_mem_otherCards (h : c ∈ otherCards order chrono tenantId nodes about blocks asOf) :
    c.conflictId ≠ mutualId tenantId a := by
  obtain ⟨s, hs, rest, hkey⟩ := stem_of_mem_otherCards h
  have hid : c.conflictId = cardId tenantId (s.1 ++ rest) := congrArg Prod.fst hkey
  intro heq
  have hrest : s.1 ++ rest = "mutual_" ++ (a.fromNodeId ++ "_" ++ a.toNodeId) := cardId_inj (hid.symm.trans heq)
  have hstem : s = ("mutual_", .dualBlocks, .high) := by
    have hlists : s.1.toList ++ rest.toList = "mutual_".toList ++ (a.fromNodeId ++ "_" ++ a.toNodeId).toList := by
      rw [← String.toList_append, hrest, String.toList_append]
    exact eq_of_stem (List.mem_of_mem_tail hs) (by decide) hlists
  subst hstem
  exact absurd hs (by decide)

/-- Where the edges of a pair go by one id, it is there in every order. -/
theorem keys_subset (h : SameRows nodes nodes' edges edges') (he : edges'.Perm edges)
    (hone : OneName tenantId nodes edges asOf) {order' : HashOrder}
    (hk : k ∈ (detectConflicts order chrono tenantId nodes edges asOf).map ConflictCard.key) :
    k ∈ (detectConflicts order' chrono tenantId nodes' edges' asOf).map ConflictCard.key := by
  rw [mem_keys] at hk ⊢
  rw [← h.taken]
  rcases hk with ⟨c, hc, rfl⟩ | ⟨htaken, c, hc, rfl⟩
  · exact .inl (h.owners hc)
  refine .inr ⟨htaken, ?_⟩
  rcases List.mem_append.mp hc with hmutual | hother
  · obtain ⟨a, b, hab, hcard⟩ := mem_mutualCards.mp hmutual
    obtain ⟨hopposed, hkey, -⟩ := mutualCard_spec hcard
    have hid : c.conflictId = mutualId tenantId a := congrArg Prod.fst hkey
    have htaken' : ¬ Taken tenantId nodes edges asOf (mutualId tenantId a) := hid ▸ htaken
    have hsettled : Settled tenantId edges asOf (mutualId tenantId a) := by
      rcases hone a (hab.subset List.mem_cons_self) b (hab.subset (List.mem_cons_of_mem _ List.mem_cons_self)) hopposed
        with heq | ⟨ha, -⟩ | ⟨-, ha⟩
      · exact ⟨a, b, hab, hopposed, rfl, heq.symm⟩
      · exact absurd ha htaken'
      · exact ha.resolve_left htaken'
    obtain ⟨a', b', hab', hopposed', ha', -⟩ := hsettled.of_perm he
    obtain ⟨c', hc'⟩ := mutualCard_isSome tenantId (aboutOf nodes' edges' asOf) hopposed'
    refine ⟨c', List.mem_append_left _ (mem_mutualCards.mpr ⟨a', b', hab', hc'⟩), ?_⟩
    rw [(mutualCard_spec hc').2.1, hkey, ha']
  · obtain ⟨c', hc', hkey⟩ := h.others hother
    exact ⟨c', List.mem_append_right _ hc', hkey⟩

/-- A reported card of two entities is that of two opposed edges, and its id is not taken. -/
theorem mutual_of_mem (hc : c ∈ detectConflicts order chrono tenantId nodes edges asOf) {v w : String}
    (hm : c.MutualOf v w) :
    ∃ a ∈ blocksOf edges asOf, c.conflictId = mutualId tenantId a ∧ c.nodeIds = [a.fromNodeId, a.toNodeId] ∧
      ¬ Taken tenantId nodes edges asOf (mutualId tenantId a) := by
  obtain ⟨hkind, htypes, -⟩ := hm
  rcases mem_detectConflicts_iff.mp hc with howner | ⟨htaken, hfind⟩
  · obtain ⟨w', hw'⟩ := mem_ownerCards.mp howner
    rcases (ownersCard_spec hw').kind with ⟨-, hship, -⟩ | ⟨-, -, hdual, -⟩
    · exact nomatch hkind.symm.trans hship
    · exact nomatch hkind.symm.trans hdual
  rcases List.mem_append.mp (List.mem_of_find?_eq_some hfind) with hmutual | hother
  · obtain ⟨a, b, hab, hcard⟩ := mem_mutualCards.mp hmutual
    obtain ⟨-, hkey, hnodes, -⟩ := mutualCard_spec hcard
    have hid : c.conflictId = mutualId tenantId a := congrArg Prod.fst hkey
    exact ⟨a, hab.subset List.mem_cons_self, hid, hnodes, hid ▸ htaken⟩
  · rcases mem_otherCards.mp hother with ⟨i, -, hcard⟩ | ⟨e, -, hcard⟩ | ⟨w, -, hcard⟩
    · exact nomatch hkind.symm.trans (congrArg (fun k => k.2.1) (blockedCard_spec hcard))
    · exact absurd (htypes.symm.trans (blocksShipCard_spec hcard).2.2) (by decide)
    · obtain ⟨work, -, ⟨-, hkey⟩ | ⟨-, hkey⟩ | ⟨-, -, hkey⟩⟩ := mem_keys_frictionCards.mp (List.mem_map_of_mem hcard)
      · exact nomatch hkind.symm.trans (congrArg (fun k => k.2.1) hkey)
      · exact nomatch hkind.symm.trans (congrArg (fun k => k.2.1) hkey)
      · exact nomatch hkind.symm.trans (congrArg (fun k => k.2.1) hkey)

theorem OneName.one (hone : OneName tenantId nodes edges asOf) (h : SameRows nodes nodes' edges edges') {v w : String}
    (hc : c ∈ detectConflicts order chrono tenantId nodes' edges' asOf)
    (hd : d ∈ detectConflicts order chrono tenantId nodes' edges' asOf) (hcm : c.MutualOf v w) (hdm : d.MutualOf v w) :
    c = d := by
  obtain ⟨a, ha, hca, hcnodes, hafree⟩ := mutual_of_mem hc hcm
  obtain ⟨b, hb, hdb, hdnodes, hbfree⟩ := mutual_of_mem hd hdm
  suffices hid : mutualId tenantId a = mutualId tenantId b from
    List.inj_on_of_nodup_map detectConflicts_ids_nodup hc hd (hca.trans (hid.trans hdb.symm))
  have hends : (a.fromNodeId = b.fromNodeId ∧ a.toNodeId = b.toNodeId) ∨ Opposed a b := by
    unfold Opposed
    rcases hcm.2.2 with hcv | hcv <;> rcases hdm.2.2 with hdv | hdv <;>
      · rw [hcnodes] at hcv
        rw [hdnodes] at hdv
        simp only [List.cons.injEq, and_true] at hcv hdv
        simp [hcv, hdv]
  rcases hends with ⟨hfrom, hto⟩ | hopposed
  · unfold mutualId
    rw [hfrom, hto]
  · rw [← h.taken] at hafree hbfree
    rcases hone a (h.mem_blocksOf.mpr ha) b (h.mem_blocksOf.mpr hb) hopposed with heq | ⟨ha, -⟩ | ⟨hb, -⟩
    · exact heq
    · exact absurd ha hafree
    · exact absurd hb hbfree

/-- The card of the second edge is found too, where the first edge comes again. -/
theorem find?_mutual_second {rest : List ConflictCard} (hne : mutualId tenantId a ≠ mutualId tenantId b)
    (hd : mutualCard tenantId about (b, a) = some d) :
    (mutualCards tenantId about (a :: b :: a :: blocks) ++ rest).find? (fun e => e.conflictId = mutualId tenantId b) =
      some d := by
  have hpairs : pairs (a :: b :: a :: blocks) =
      (b :: a :: blocks).map (a, ·) ++ ((b, a) :: (blocks.map (b, ·) ++ pairs (a :: blocks))) := rfl
  have hfirst : (((b :: a :: blocks).map (a, ·)).filterMap (mutualCard tenantId about)).find?
      (fun e => e.conflictId = mutualId tenantId b) = none := by
    rw [List.find?_eq_none]
    intro e he
    obtain ⟨pair, hpair, hcard⟩ := List.mem_filterMap.mp he
    obtain ⟨y, -, rfl⟩ := List.mem_map.mp hpair
    have hid : e.conflictId = mutualId tenantId a := congrArg Prod.fst (mutualCard_spec hcard).2.1
    simpa [hid] using hne
  have hid : d.conflictId = mutualId tenantId b := congrArg Prod.fst (mutualCard_spec hd).2.1
  unfold mutualCards
  rw [hpairs, List.filterMap_append, List.filterMap_cons_some hd, List.append_assoc, List.find?_append, hfirst,
    Option.none_or, List.cons_append, List.find?_cons_of_pos (by simpa using hid)]

theorem find?_mutual_first {rest : List ConflictCard} (hc : mutualCard tenantId about (a, b) = some c) :
    (mutualCards tenantId about (a :: b :: blocks) ++ rest).find? (fun e => e.conflictId = mutualId tenantId a) =
      some c := by
  have hpairs : pairs (a :: b :: blocks) = (a, b) :: (blocks.map (a, ·) ++ pairs (b :: blocks)) := rfl
  have hid : c.conflictId = mutualId tenantId a := congrArg Prod.fst (mutualCard_spec hc).2.1
  unfold mutualCards
  rw [hpairs, List.filterMap_cons_some hc, List.cons_append, List.find?_cons_of_pos (by simpa using hid)]

/-- With the first edge twice there would be two cards, if neither id were taken. -/
theorem OrderFree.taken (order : HashOrder) (hfree : OrderFree chrono tenantId nodes edges asOf)
    (hnodes : (nodes.map GraphNode.nodeId).Nodup) (ha : a ∈ blocksOf edges asOf) (hb : b ∈ blocksOf edges asOf)
    (hopposed : Opposed a b) (hne : mutualId tenantId a ≠ mutualId tenantId b) :
    Taken tenantId nodes edges asOf (mutualId tenantId a) ∨ Taken tenantId nodes edges asOf (mutualId tenantId b) := by
  by_contra hnot
  rw [not_or] at hnot
  have hmem : ∀ {e}, e ∈ blocksOf edges asOf → e ∈ edges := fun he => List.mem_of_mem_filter (List.mem_of_mem_filter he)
  have hsame : ∀ e, e ∈ edges ↔ e ∈ a :: b :: a :: edges := by
    intro e
    simp only [List.mem_cons]
    refine ⟨fun he => .inr (.inr (.inr he)), ?_⟩
    rintro (rfl | rfl | rfl | he)
    · exact hmem ha
    · exact hmem hb
    · exact hmem ha
    · exact he
  have hrows : SameRows nodes nodes edges (a :: b :: a :: edges) := ⟨hnodes, hnodes, fun _ => Iff.rfl, hsame⟩
  have hblocks : blocksOf (a :: b :: a :: edges) asOf = a :: b :: a :: blocksOf edges asOf := by
    rw [blocksOf_cons_of_mem ha, blocksOf_cons_of_mem hb, blocksOf_cons_of_mem ha]
  obtain ⟨c, hc⟩ := mutualCard_isSome tenantId (aboutOf nodes (a :: b :: a :: edges) asOf) hopposed
  obtain ⟨d, hd⟩ := mutualCard_isSome tenantId (aboutOf nodes (a :: b :: a :: edges) asOf)
    (⟨hopposed.2.symm, hopposed.1.symm⟩ : Opposed b a)
  obtain ⟨-, hckey, hcnodes, hctypes⟩ := mutualCard_spec hc
  obtain ⟨-, hdkey, hdnodes, hdtypes⟩ := mutualCard_spec hd
  have hcid : c.conflictId = mutualId tenantId a := congrArg Prod.fst hckey
  have hdid : d.conflictId = mutualId tenantId b := congrArg Prod.fst hdkey
  have hcmem : c ∈ detectConflicts order chrono tenantId nodes (a :: b :: a :: edges) asOf := by
    refine mem_detectConflicts_iff.mpr (.inr ?_)
    rw [hcid, hblocks, ← hrows.taken]
    exact ⟨hnot.1, find?_mutual_first hc⟩
  have hdmem : d ∈ detectConflicts order chrono tenantId nodes (a :: b :: a :: edges) asOf := by
    refine mem_detectConflicts_iff.mpr (.inr ?_)
    rw [hdid, hblocks, ← hrows.taken]
    exact ⟨hnot.2, find?_mutual_second hne hd⟩
  have hcd : c = d := by
    refine hfree.one order nodes _ (List.Perm.refl nodes) hsame a.fromNodeId a.toNodeId c hcmem d hdmem ?_ ?_
    · exact ⟨congrArg (fun k => k.2.1) hckey, hctypes, .inl hcnodes⟩
    · refine ⟨congrArg (fun k => k.2.1) hdkey, hdtypes, .inr ?_⟩
      rw [hdnodes, hopposed.1, hopposed.2]
  exact hne (hcid.symm.trans ((congrArg ConflictCard.conflictId hcd).trans hdid))

theorem key_of_pair (hab : [a, b].Sublist (blocksOf edges asOf)) (hopposed : Opposed a b)
    (htaken : ¬ Taken tenantId nodes edges asOf (mutualId tenantId a)) :
    (mutualId tenantId a, .dualBlocks, .high) ∈
      (detectConflicts order chrono tenantId nodes edges asOf).map ConflictCard.key := by
  obtain ⟨c, hc⟩ := mutualCard_isSome tenantId (aboutOf nodes edges asOf) hopposed
  exact mem_keys.mpr
    (.inr ⟨htaken, c, List.mem_append_left _ (mem_mutualCards.mpr ⟨a, b, hab, hc⟩), (mutualCard_spec hc).2.1⟩)

/-- With the edges that go by the id at the end, they come after those opposed to them. -/
theorem settled_of_pair_at_end {p : GraphEdge → Bool} (hp : ∀ e, p e = false ↔ mutualId tenantId e = x)
    (hab : [a, b].Sublist (blocksOf (edges.filter p ++ edges.filter fun e => !p e) asOf)) (hopposed : Opposed a b)
    (ha : mutualId tenantId a = x) : Settled tenantId edges asOf x := by
  rw [blocksOf_append, blocksOf_filter, blocksOf_filter] at hab
  obtain ⟨l₁, l₂, heq, h₁, h₂⟩ := List.sublist_append_iff.mp hab
  cases l₁ with
  | nil =>
    rw [List.nil_append] at heq
    subst heq
    have hb : (!p b) = true := (List.mem_filter.mp (h₂.subset (List.mem_cons_of_mem _ List.mem_cons_self))).2
    rw [Bool.not_eq_true', hp] at hb
    exact ⟨a, b, h₂.trans List.filter_sublist, hopposed, ha, hb⟩
  | cons e l₁ =>
    obtain ⟨rfl, -⟩ := List.cons.inj heq
    have hpa : p a = true := List.of_mem_filter (h₁.subset List.mem_cons_self)
    rw [(hp a).mpr ha] at hpa
    cases hpa

/-- An id that comes and goes with the order would show it. -/
theorem OrderFree.settled (order : HashOrder) (hfree : OrderFree chrono tenantId nodes edges asOf)
    (hnodes : (nodes.map GraphNode.nodeId).Nodup) (ha : a ∈ blocksOf edges asOf) (hb : b ∈ blocksOf edges asOf)
    (hopposed : Opposed a b) (hne : mutualId tenantId a ≠ mutualId tenantId b) :
    Taken tenantId nodes edges asOf (mutualId tenantId a) ∨ Settled tenantId edges asOf (mutualId tenantId a) := by
  rw [or_iff_not_imp_left]
  intro htaken
  have hhere : (mutualId tenantId a, .dualBlocks, .high) ∈
      (detectConflicts order chrono tenantId nodes edges asOf).map ConflictCard.key := by
    rcases pair_sublist_or ha hb (fun hab => hne (congrArg _ hab)) with hab | hba
    · exact key_of_pair hab hopposed htaken
    · have hrows : SameRows nodes nodes edges edges.reverse :=
        .of_perm hnodes (List.Perm.refl nodes) (List.reverse_perm edges)
      rw [hfree.same order order nodes edges.reverse (List.Perm.refl nodes) (List.reverse_perm edges)]
      refine key_of_pair ?_ hopposed (by rwa [← hrows.taken])
      rw [blocksOf_reverse]
      exact hba.reverse
  have hperm := List.filter_append_perm (fun e => mutualId tenantId e ≠ mutualId tenantId a) edges
  rw [hfree.same order order nodes _ (List.Perm.refl nodes) hperm, mem_keys] at hhere
  have hrows := SameRows.of_perm hnodes (List.Perm.refl nodes) hperm
  rcases hhere with ⟨c, hc, hkey⟩ | ⟨-, c, hc, hkey⟩
  · rw [hrows.taken, taken_iff order] at htaken
    exact absurd ⟨c, hc, congrArg Prod.fst hkey⟩ htaken
  rcases List.mem_append.mp hc with hmutual | hother
  · obtain ⟨a', b', hab', hcard⟩ := mem_mutualCards.mp hmutual
    obtain ⟨hopposed', hkey', -⟩ := mutualCard_spec hcard
    exact settled_of_pair_at_end (by simp) hab' hopposed' (congrArg Prod.fst (hkey'.symm.trans hkey))
  · exact absurd (congrArg Prod.fst hkey) (mutualId_ne_of_mem_otherCards hother)

/-- Nothing depends on the order of the rows exactly if edges back and forth go by one name. -/
theorem orderFree_iff (chrono : DateParsers) (tenantId : String) (nodes : List GraphNode) (edges : List GraphEdge)
    (asOf : DateTime) (hnodes : (nodes.map GraphNode.nodeId).Nodup) :
    OrderFree chrono tenantId nodes edges asOf ↔ OneName tenantId nodes edges asOf := by
  constructor
  · intro hfree a ha b hb hopposed
    have order : HashOrder := ⟨id, List.Perm.refl⟩
    by_cases hne : mutualId tenantId a = mutualId tenantId b
    · exact .inl hne
    have hsettled := hfree.settled order hnodes ha hb hopposed hne
    have hsettled' := hfree.settled order hnodes hb ha ⟨hopposed.2.symm, hopposed.1.symm⟩ (Ne.symm hne)
    rcases hfree.taken order hnodes ha hb hopposed hne with htaken | htaken
    · exact .inr (.inl ⟨htaken, hsettled'⟩)
    · exact .inr (.inr ⟨htaken, hsettled⟩)
  · intro hone
    constructor
    case same =>
      intro order order' nodes' edges' hn he k
      have hrows := SameRows.of_perm hnodes hn he
      exact ⟨keys_subset hrows he hone, keys_subset hrows.symm he.symm (hone.of_perm hrows he)⟩
    case one =>
      intro order nodes' edges' hn he v w c hc d hd hcm hdm
      have hrows : SameRows nodes nodes' edges edges' :=
        ⟨hnodes, (hn.map GraphNode.nodeId).nodup_iff.mpr hnodes, fun _ => hn.mem_iff.symm, he⟩
      exact hone.one hrows hc hd hcm hdm

/-- An edge that says what blocks what. -/
def blocking (id v w : String) : GraphEdge := ⟨"t", id, "BLOCKS", v, w, 1, none, "ev", .null, false, [], 0⟩

theorem blocking_orderFree :
    OrderFree ⟨fun _ => none, fun _ _ => none, fun _ _ => none⟩ "t" [] [blocking "e1" "pr:1" "pr:2"] 5 := by
  refine (orderFree_iff ⟨fun _ => none, fun _ _ => none, fun _ _ => none⟩ "t" [] [blocking "e1" "pr:1" "pr:2"] 5
    List.nodup_nil).mpr ?_
  have hblocks : blocksOf [blocking "e1" "pr:1" "pr:2"] 5 = [blocking "e1" "pr:1" "pr:2"] := by rfl
  intro a ha b hb hopposed
  rw [hblocks, List.mem_singleton] at ha hb
  subst ha hb
  exact absurd hopposed (by decide)

/-- The other way round, the card goes by another name. -/
theorem blocking_back_not_orderFree :
    ¬ OrderFree ⟨fun _ => none, fun _ _ => none, fun _ _ => none⟩ "t" []
      [blocking "e1" "pr:1" "pr:2", blocking "e2" "pr:2" "pr:1"] 5 := by
  intro hfree
  have hkey := (hfree.same ⟨id, List.Perm.refl⟩ ⟨id, List.Perm.refl⟩ []
    [blocking "e2" "pr:2" "pr:1", blocking "e1" "pr:1" "pr:2"] (List.Perm.refl [])
    (List.Perm.swap _ _ []) ("cfl_t_mutual_pr:1_pr:2", .dualBlocks, .high)).mp (by decide +kernel)
  exact absurd hkey (by decide +kernel)

end Mutual

end AiManager.Graph
