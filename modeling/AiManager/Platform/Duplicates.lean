import AiManager.Platform.TwinEdits

/-! # Twins of one chat user

Of the twins that have one chat user, one is kept and the others are disabled; what they are known by goes to the one
that is kept. Each folded id that can be one of the graph also gets a row of the Slack map, whoever else has the id. -/

namespace AiManager.Platform

open Lib Twins

/-! ## Groups -/

section Groups
variable {α : Type} {groups : List (String × List α)} {key k : String} {v : α} {g : List α}

theorem mem_keys_pushGroup : k ∈ (pushGroup key v groups).map Prod.fst ↔ k = key ∨ k ∈ groups.map Prod.fst := by
  induction groups with
  | nil => simp [pushGroup]
  | cons e rest ih =>
    obtain ⟨k', g'⟩ := e
    rw [pushGroup]
    split_ifs with hk
    · simp [hk]
    · rw [List.map_cons, List.mem_cons, ih, List.map_cons, List.mem_cons, or_left_comm]

theorem nodup_pushGroup (h : (groups.map Prod.fst).Nodup) : ((pushGroup key v groups).map Prod.fst).Nodup := by
  induction groups with
  | nil => simp [pushGroup]
  | cons e rest ih =>
    obtain ⟨k', g'⟩ := e
    obtain ⟨hnot, hrest⟩ := List.nodup_cons.mp h
    rw [pushGroup]
    split_ifs with hk
    · exact h
    · refine List.nodup_cons.mpr ⟨?_, ih hrest⟩
      rw [mem_keys_pushGroup]
      rintro (heq | hmem)
      · exact hk heq
      · exact hnot hmem

theorem mem_pushGroup (h : (groups.map Prod.fst).Nodup) : (k, g) ∈ pushGroup key v groups ↔
    (k ≠ key ∧ (k, g) ∈ groups) ∨
      (k = key ∧ ((∃ g₀, (key, g₀) ∈ groups ∧ g = g₀ ++ [v]) ∨ (key ∉ groups.map Prod.fst ∧ g = [v]))) := by
  induction groups with
  | nil => simp [pushGroup]
  | cons e rest ih =>
    obtain ⟨k', g'⟩ := e
    obtain ⟨hnot, hrest⟩ := List.nodup_cons.mp h
    rw [pushGroup]
    split_ifs with hk
    · subst hk
      have hno : ∀ g₀, (k', g₀) ∉ rest := fun g₀ hg₀ => hnot (List.mem_map.mpr ⟨(k', g₀), hg₀, rfl⟩)
      simp only [List.mem_cons, Prod.mk.injEq, hno, or_false, List.map_cons, true_or, not_true, false_and,
        true_and, exists_eq_left]
      constructor
      · rintro (⟨rfl, rfl⟩ | hmem)
        · exact .inr ⟨rfl, rfl⟩
        · refine .inl ⟨?_, .inr hmem⟩
          rintro rfl
          exact hno g hmem
      · rintro (⟨hne, ⟨rfl, -⟩ | hmem⟩ | ⟨rfl, rfl⟩)
        · exact absurd rfl hne
        · exact .inr hmem
        · exact .inl ⟨rfl, rfl⟩
    · rw [List.mem_cons, ih hrest]
      have hne : ¬ key = k' := fun heq => hk heq.symm
      simp only [List.mem_cons, Prod.mk.injEq, hne, false_and, false_or, List.map_cons]
      constructor
      · rintro (⟨rfl, rfl⟩ | ⟨hkey, hmem⟩ | hpush)
        · exact .inl ⟨hk, .inl ⟨rfl, rfl⟩⟩
        · exact .inl ⟨hkey, .inr hmem⟩
        · exact .inr hpush
      · rintro (⟨hkey, ⟨rfl, rfl⟩ | hmem⟩ | hpush)
        · exact .inl ⟨rfl, rfl⟩
        · exact .inr (.inl ⟨hkey, hmem⟩)
        · exact .inr (.inr hpush)

/-- The groups of a list by a key; what has no key is in none. -/
structure GroupedBy (f : α → String) (ts : List α) (groups : List (String × List α)) : Prop where
  keys : (groups.map Prod.fst).Nodup
  mem : ∀ k g, (k, g) ∈ groups ↔ k ≠ "" ∧ g ≠ [] ∧ g = ts.filter fun t => f t = k

theorem groupedBy_foldl (f : α → String) (ts : List α) :
    GroupedBy f ts (ts.foldl (fun groups t => if f t = "" then groups else pushGroup (f t) t groups) []) := by
  induction ts using List.reverseRecOn with
  | nil => exact ⟨List.nodup_nil, fun k g => by simp⟩
  | append_singleton ts t ih =>
    rw [List.foldl_append]
    show GroupedBy f (ts ++ [t]) (if f t = "" then _ else pushGroup (f t) t _)
    generalize ts.foldl (fun groups t => if f t = "" then groups else pushGroup (f t) t groups) [] = groups at ih ⊢
    have hother : ∀ k, f t ≠ k → (ts ++ [t]).filter (fun t => f t = k) = ts.filter fun t => f t = k := by
      intro k hk
      rw [List.filter_append, List.filter_cons_of_neg (by simpa using hk), List.filter_nil, List.append_nil]
    split_ifs with hft
    · refine ⟨ih.keys, fun k g => ?_⟩
      rw [ih.mem]
      refine and_congr_right fun hk => ?_
      rw [hother k (by rw [hft]; exact hk.symm)]
    · refine ⟨nodup_pushGroup ih.keys, fun k g => ?_⟩
      have hself : (ts ++ [t]).filter (fun u => f u = f t) = ts.filter (fun u => f u = f t) ++ [t] := by
        rw [List.filter_append, List.filter_cons_of_pos (by simp), List.filter_nil]
      rw [mem_pushGroup ih.keys]
      by_cases hk : k = f t
      · subst hk
        rw [hself]
        simp only [ne_eq, not_true, false_and, true_and, false_or, hft, not_false_eq_true]
        constructor
        · rintro (⟨g₀, hg₀, rfl⟩ | ⟨hnone, rfl⟩)
          · obtain ⟨-, -, rfl⟩ := (ih.mem _ _).mp hg₀
            exact ⟨by simp, rfl⟩
          · have hempty : ts.filter (fun u => f u = f t) = [] := by
              by_contra hne
              exact hnone (List.mem_map_of_mem ((ih.mem _ _).mpr ⟨hft, hne, rfl⟩))
            rw [hempty]
            exact ⟨by simp, rfl⟩
        · rintro ⟨-, rfl⟩
          by_cases hempty : ts.filter (fun u => f u = f t) = []
          · refine .inr ⟨?_, by rw [hempty]; rfl⟩
            intro hmem
            obtain ⟨⟨k', g'⟩, hg', heq⟩ := List.mem_map.mp hmem
            obtain rfl : k' = f t := heq
            obtain ⟨-, hne, rfl⟩ := (ih.mem _ _).mp hg'
            exact hne hempty
          · exact .inl ⟨_, (ih.mem _ _).mpr ⟨hft, hempty, rfl⟩, rfl⟩
      · rw [ih.mem, hother k (Ne.symm hk)]
        simp [hk]

end Groups

/-! ## What a run writes -/

/-- The chat user of a subject. -/
def slackOf (st : InMemoryTwinStore) (tenantId subjectId : String) : String :=
  ((st.getSlackMap tenantId subjectId).map (·.slackUserId)).getD ""

/-- The enabled person twins of the tenant, by chat user. -/
def slackGroups (st : InMemoryTwinStore) (tenantId : String) : List (String × List Twin) :=
  bySlack (listSlackMaps st tenantId) (st.listTwins tenantId)

/-- The twins of a group that are disabled. -/
def deadOf (group : List Twin) : List Twin := (group.insertionSort keptBefore).tail

/-- What the disabled twins are known by. -/
def foldOf (group : List Twin) : List String := (deadOf group).flatMap fun t => t.subjectId :: twinAliasList t

/-- The folded ids that get a row of the Slack map. -/
def mappedIds (group : List Twin) : List String :=
  (foldOf group).filter fun k => Text.startsWith k "gu_" || isNumeric k

/-- The twin that is kept, with what the others are known by. -/
def keeperAfter (now : DateTime) (group : List Twin) (keep : Twin) : Twin :=
  { mergeAliasesIntoTwin keep (foldOf group) with updatedAt := now }

def prunedTwins (now : DateTime) (group : List Twin) : List Twin :=
  match group.insertionSort keptBefore with
  | [] => []
  | keep :: dead =>
    if dead.isEmpty then [] else dead.map (disabledDuplicate keep · now) ++ [keeperAfter now group keep]

def prunedMaps (tenantId slack : String) (group : List Twin) : List SlackUserMap :=
  (mappedIds group).map fun k => ⟨tenantId, k, slack, ""⟩

/-- The store after the groups have been gone through. -/
def prunedStore (tenantId : String) (now : DateTime) (groups : List (String × List Twin)) (st : InMemoryTwinStore) :
    InMemoryTwinStore :=
  { st with
    twins := st.twins.putAll (groups.flatMap fun g => prunedTwins now g.2)
    slackMap := st.slackMap.putAll (groups.flatMap fun g => prunedMaps tenantId g.1 g.2) }

section Runs
variable {tenantId : String} {now : DateTime} {s : DeliveryState} {api : TwinApi}

/-- The store does not fail. -/
def Choice.quiet (c : Choice) : Prop := c.fault = none

/-- The program returns and leaves the store so. -/
abbrev Leaves (prog : TwinM Unit) (s : DeliveryState) (st : InMemoryTwinStore) : Prop :=
  prog.run.Ensures twinAnswer Choice.quiet (fun r s' => r = .ok () ∧ s' = { s with store := st }) s

theorem Leaves.bind {p q : TwinM Unit} {st st' : InMemoryTwinStore} (hp : Leaves p s st)
    (hq : Leaves q { s with store := st } st') : Leaves (p >>= fun _ => q) s st' := by
  apply bind_ensures hp
  · rintro _ s' ⟨-, rfl⟩
    exact hq
  · rintro e s' ⟨he, -⟩
    cases he

theorem tryTwin_leaves {op : TwinOp} {st : InMemoryTwinStore}
    (h : ∀ c r s', Choice.quiet c → twinAnswer c op s = some (r, s') → s' = { s with store := st }) :
    Leaves (tryTwin op) s st := by
  apply attempt_bind_ensures (R := fun _ s' => s' = { s with store := st })
  · exact ask_ensures h
  · rintro r s' rfl
    exact ⟨rfl, rfl⟩

theorem upsertTwin_leaves (twin : Twin) (edit : TwinEdit) :
    Leaves (tryTwin (.upsertTwin twin edit)) s { s.store with twins := s.store.twins.put twin } := by
  apply tryTwin_leaves
  intro c r s' hc hs
  have hfault : c.fault = none := hc
  simp only [twinAnswer, DeliveryState.writing, hfault] at hs
  exact (Prod.mk.inj (Option.some.inj hs)).2.symm

theorem putSlackMap_leaves (m : SlackUserMap) :
    Leaves (tryTwin (.putSlackMap m)) s { s.store with slackMap := s.store.slackMap.put m } := by
  apply tryTwin_leaves
  intro c r s' hc hs
  have hfault : c.fault = none := hc
  simp only [twinAnswer, DeliveryState.writing, hfault] at hs
  exact (Prod.mk.inj (Option.some.inj hs)).2.symm

theorem disableDuplicates_leaves (keep : Twin) (dead : List Twin) :
    Leaves (disableDuplicates keep now dead) s
      { s.store with twins := s.store.twins.putAll (dead.map (disabledDuplicate keep · now)) } := by
  induction dead generalizing s with
  | nil => exact ⟨rfl, rfl⟩
  | cons t dead ih => exact (upsertTwin_leaves _ _).bind ih

theorem tryPutSlackMaps_leaves (slack : String) (ks : List String) :
    Leaves (tryPutSlackMaps tenantId slack ks) s
      { s.store with slackMap := s.store.slackMap.putAll (ks.map fun k => ⟨tenantId, k, slack, ""⟩) } := by
  induction ks generalizing s with
  | nil => exact ⟨rfl, rfl⟩
  | cons k ks ih => exact (putSlackMap_leaves _).bind ih

theorem pruneGroup_leaves (slack : String) (group : List Twin) :
    Leaves (pruneGroup tenantId slack now group) s (prunedStore tenantId now [(slack, group)] s.store) := by
  unfold pruneGroup prunedStore prunedMaps mappedIds
  rw [List.flatMap_singleton, List.flatMap_singleton, prunedTwins]
  unfold keeperAfter foldOf deadOf
  cases hsort : group.insertionSort keptBefore with
  | nil => exact ⟨rfl, rfl⟩
  | cons keep dead =>
    dsimp only [List.tail_cons]
    split_ifs with hdead
    · rw [List.isEmpty_iff.mp hdead]
      exact ⟨rfl, rfl⟩
    · have hputAll : ∀ rows row, (s.store.twins.putAll rows).put row = s.store.twins.putAll (rows ++ [row]) := by
        intro rows row
        rw [Table.putAll, Table.putAll, List.foldl_append]
        rfl
      rw [← hputAll]
      exact (disableDuplicates_leaves keep dead).bind ((upsertTwin_leaves _ _).bind (tryPutSlackMaps_leaves slack _))

theorem pruneGroups_leaves (groups : List (String × List Twin)) :
    Leaves (pruneGroups tenantId now groups) s (prunedStore tenantId now groups s.store) := by
  induction groups generalizing s with
  | nil => exact ⟨rfl, rfl⟩
  | cons g rest ih =>
    obtain ⟨slack, group⟩ := g
    have hstep : prunedStore tenantId now ((slack, group) :: rest) s.store =
        prunedStore tenantId now rest (prunedStore tenantId now [(slack, group)] s.store) := by
      unfold prunedStore Table.putAll
      simp only [List.flatMap_cons, List.flatMap_nil, List.append_nil, List.foldl_append]
    rw [hstep]
    exact (pruneGroup_leaves slack group).bind ih

/-- The whole run, at some time. -/
theorem pruneDuplicateSlackTwins_leaves :
    (pruneDuplicateSlackTwins api tenantId).run.Ensures twinAnswer Choice.quiet
      (fun r s' => r = .ok () ∧ ∃ now, s' =
        { s with store := prunedStore tenantId now (api.teamOrder (slackGroups s.store tenantId)) s.store }) s := by
  have hlist : ∀ {op : TwinOp} {a : op.Val}, (∀ c, twinAnswer c op s = s.reading c a) →
      (askTwin op).run.Ensures twinAnswer Choice.quiet (fun r s' => r = .ok a ∧ s' = s) s := by
    intro op a hop
    apply ask_ensures
    intro c r s' hc hs
    have hfault : c.fault = none := hc
    rw [hop, DeliveryState.reading, hfault] at hs
    obtain ⟨rfl, rfl⟩ := Prod.mk.inj (Option.some.inj hs)
    exact ⟨rfl, rfl⟩
  unfold pruneDuplicateSlackTwins
  apply attempt_bind_ensures (hlist (a := listSlackMaps s.store tenantId) fun _ => rfl)
  rintro maps s' ⟨rfl, rfl⟩
  apply attempt_bind_ensures (hlist (a := s'.store.listTwins tenantId) fun _ => rfl)
  rintro twins s' ⟨rfl, rfl⟩
  apply ask_bind_ensures
  · intro c now s'' _ hs
    obtain ⟨-, rfl⟩ := Prod.mk.inj (Option.some.inj hs)
    refine (pruneGroups_leaves _).mono ?_
    rintro r s'' ⟨hr, rfl⟩
    exact ⟨hr, now, rfl⟩
  · intro c e s'' _ hs
    cases hs

/-- The call is answered in every state. -/
def TwinOp.Answered (op : TwinOp) : Prop := ∀ c s, ∃ r s', twinAnswer c op s = some (r, s')

theorem pruneDuplicateSlackTwins_answered : (pruneDuplicateSlackTwins api tenantId).run.CallsOnly TwinOp.Answered := by
  have hread : ∀ {α : Type} (c : Choice) (s : DeliveryState) (v : α), ∃ r s', s.reading c v = some (r, s') := by
    intro α c s v
    unfold DeliveryState.reading
    split <;> exact ⟨_, _, rfl⟩
  have hwrite : ∀ (c : Choice) (s : DeliveryState) (f : InMemoryTwinStore → TwinResult Unit × InMemoryTwinStore),
      ∃ r s', s.writing c f = some (r, s') := by
    intro c s f
    unfold DeliveryState.writing
    split <;> exact ⟨_, _, rfl⟩
  apply pruneDuplicateSlackTwins_calls
  exact ⟨fun _ _ => ⟨_, _, rfl⟩, fun _ => ⟨fun c s => hread c s _, fun c s => hread c s _⟩,
    fun m c s => hwrite c s fun st => st.putSlackMap m,
    fun keep dead now c s => hwrite c s fun st => st.upsertTwin (disabledDuplicate keep dead now),
    fun keep fold now c s =>
      hwrite c s fun st => st.upsertTwin { mergeAliasesIntoTwin keep fold with updatedAt := now }⟩

/-- A run comes to its end. -/
theorem pruneDuplicateSlackTwins_exec (api : TwinApi) (tenantId : String) (s : DeliveryState) (cs : ℕ → Choice)
    (hquiet : ∀ n, Choice.quiet (cs n)) :
    ∃ now, (pruneDuplicateSlackTwins api tenantId).run.exec twinAnswer cs s = some (.ok (),
      { s with store := prunedStore tenantId now (api.teamOrder (slackGroups s.store tenantId)) s.store }) := by
  obtain ⟨r, s', hexec⟩ := pruneDuplicateSlackTwins_answered.exec_of_total (fun _ h => h) cs s
  obtain ⟨rfl, now, rfl⟩ := pruneDuplicateSlackTwins_leaves.of_exec hquiet hexec
  exact ⟨now, hexec⟩

end Runs

/-! ## Members of groups -/

section Members
variable {st : InMemoryTwinStore} {tenantId slack slack' : String} {group group' : List Twin} {t t' keep : Twin}
  {dead : List Twin}

theorem find?_listSlackMaps (st : InMemoryTwinStore) (tenantId k : String) :
    (listSlackMaps st tenantId).find? (fun m => m.globalUserId = k) = st.getSlackMap tenantId k := by
  have hrow : ∀ m, m ∈ listSlackMaps st tenantId ∧ m.globalUserId = k ↔ st.getSlackMap tenantId k = some m := by
    intro m
    rw [listSlackMaps, List.mem_filter, decide_eq_true_iff, Table.mem_values]
    constructor
    · rintro ⟨⟨hget, rfl⟩, rfl⟩
      exact hget
    · intro hget
      have hkey : SlackUserMap.key m = (tenantId, k) := Table.key_of_get hget
      obtain ⟨rfl, rfl⟩ := Prod.mk.inj hkey
      exact ⟨⟨hget, rfl⟩, rfl⟩
  cases hget : st.getSlackMap tenantId k with
  | none =>
    rw [List.find?_eq_none]
    intro m hm hk
    cases ((hrow m).mp ⟨hm, of_decide_eq_true hk⟩).symm.trans hget
  | some m =>
    cases hfind : (listSlackMaps st tenantId).find? (fun m => m.globalUserId = k) with
    | none =>
      obtain ⟨hm, hk⟩ := (hrow m).mpr hget
      exact absurd (decide_eq_true hk) (List.find?_eq_none.mp hfind m hm)
    | some m' =>
      have hk' : m'.globalUserId = k := by simpa using List.find?_some hfind
      have hget' := (hrow m').mp ⟨List.mem_of_find?_eq_some hfind, hk'⟩
      rw [← hget, hget']

/-- Enabled twins of people. -/
def Living (t : Twin) : Prop := t.twinKind = .person ∧ t.enabled = true

theorem slackGroups_groupedBy (st : InMemoryTwinStore) (tenantId : String) :
    GroupedBy (fun t : Twin => slackOf st tenantId t.subjectId)
      ((st.listTwins tenantId).filter fun t => t.twinKind = .person && t.enabled) (slackGroups st tenantId) := by
  have hgroups : slackGroups st tenantId =
      ((st.listTwins tenantId).filter fun t => t.twinKind = .person && t.enabled).foldl
        (fun groups t => if slackOf st tenantId t.subjectId = "" then groups
          else pushGroup (slackOf st tenantId t.subjectId) t groups) [] := by
    unfold slackGroups bySlack
    simp only [find?_listSlackMaps]
    rfl
  rw [hgroups]
  exact groupedBy_foldl (fun t : Twin => slackOf st tenantId t.subjectId) _

theorem mem_group_iff (h : (slack, group) ∈ slackGroups st tenantId) :
    t ∈ group ↔ t ∈ st.listTwins tenantId ∧ Living t ∧ slackOf st tenantId t.subjectId = slack := by
  obtain ⟨-, -, rfl⟩ := ((slackGroups_groupedBy st tenantId).mem _ _).mp h
  rw [List.mem_filter, List.mem_filter, Bool.and_eq_true, decide_eq_true_iff, decide_eq_true_iff, and_assoc]
  rfl

/-- A twin with a chat user has its group. -/
theorem exists_group (ht : t ∈ st.listTwins tenantId) (hliving : Living t)
    (hslack : slackOf st tenantId t.subjectId ≠ "") :
    ∃ group, (slackOf st tenantId t.subjectId, group) ∈ slackGroups st tenantId ∧ t ∈ group := by
  have hmem : t ∈ ((st.listTwins tenantId).filter fun t => t.twinKind = .person && t.enabled).filter
      fun u => slackOf st tenantId u.subjectId = slackOf st tenantId t.subjectId := by
    rw [List.mem_filter, List.mem_filter, Bool.and_eq_true, decide_eq_true_iff, decide_eq_true_iff]
    exact ⟨⟨ht, hliving⟩, rfl⟩
  exact ⟨_, ((slackGroups_groupedBy st tenantId).mem _ _).mpr ⟨hslack, List.ne_nil_of_mem hmem, rfl⟩, hmem⟩

theorem group_eq (h : (slack, group) ∈ slackGroups st tenantId) (h' : (slack', group') ∈ slackGroups st tenantId)
    (ht : t ∈ group) (ht' : t ∈ group') : slack = slack' ∧ group = group' := by
  obtain rfl : slack = slack' := ((mem_group_iff h).mp ht).2.2.symm.trans ((mem_group_iff h').mp ht').2.2
  obtain ⟨-, -, rfl⟩ := ((slackGroups_groupedBy st tenantId).mem _ _).mp h
  obtain ⟨-, -, rfl⟩ := ((slackGroups_groupedBy st tenantId).mem _ _).mp h'
  exact ⟨rfl, rfl⟩

theorem nodup_group (h : (slack, group) ∈ slackGroups st tenantId) : group.Nodup := by
  obtain ⟨-, -, rfl⟩ := ((slackGroups_groupedBy st tenantId).mem _ _).mp h
  exact ((st.twins.values_nodup.filter _).filter _).filter _

theorem mem_sorted_iff : t ∈ group.insertionSort keptBefore ↔ t ∈ group := List.mem_insertionSort _

theorem mem_of_mem_deadOf (h : t ∈ deadOf group) : t ∈ group :=
  mem_sorted_iff.mp (List.mem_of_mem_tail h)

/-- The one that is kept is not disabled. -/
theorem keep_notMem_deadOf (h : (slack, group) ∈ slackGroups st tenantId)
    (hsort : group.insertionSort keptBefore = keep :: dead) : keep ∉ deadOf group := by
  have hnodup := (List.perm_insertionSort keptBefore group).nodup_iff.mpr (nodup_group h)
  rw [hsort] at hnodup
  rw [deadOf, hsort]
  exact (List.nodup_cons.mp hnodup).1

/-- Two twins with one key are one. -/
theorem eq_of_key (ht : t ∈ st.listTwins tenantId) (ht' : t' ∈ st.listTwins tenantId) (h : t.key = t'.key) : t = t' := by
  have hget := Table.mem_values.mp (List.mem_filter.mp ht).1
  have hget' := Table.mem_values.mp (List.mem_filter.mp ht').1
  rw [h] at hget
  exact Option.some.inj (hget.symm.trans hget')

end Members

/-! ## Aliases -/

section Aliases
variable {t keep : Twin} {a : String} {fold : List String}

theorem mem_twinAliasList (h : a ∈ twinAliasList t) : Text.trim a = a ∧ a ≠ "" := by
  unfold twinAliasList at h
  split at h
  · obtain ⟨hmem, hne⟩ := List.mem_filter.mp h
    obtain ⟨x, -, hx⟩ := List.mem_filterMap.mp hmem
    obtain ⟨s, -, rfl⟩ := Option.map_eq_some_iff.mp hx
    exact ⟨Text.trim_trim s, of_decide_eq_true hne⟩
  · cases h

theorem mem_foldl_addAlias (extra aliases : List String) :
    a ∈ extra.foldl addAlias aliases ↔ a ∈ aliases ∨ (a ∈ extra ∧ a ≠ "") := by
  induction extra generalizing aliases with
  | nil => simp
  | cons e extra ih =>
    rw [List.foldl_cons, ih, List.mem_cons]
    unfold addAlias
    split_ifs with he
    · constructor
      · rintro (h | ⟨h, hne⟩)
        · exact .inl h
        · exact .inr ⟨.inr h, hne⟩
      · rintro (h | ⟨rfl | h, hne⟩)
        · exact .inl h
        · exact .inl (he.resolve_left hne)
        · exact .inr ⟨h, hne⟩
    · rw [List.mem_append, List.mem_singleton]
      constructor
      · rintro ((h | rfl) | ⟨h, hne⟩)
        · exact .inl h
        · exact .inr ⟨.inl rfl, fun hempty => he (.inl hempty)⟩
        · exact .inr ⟨.inr h, hne⟩
      · rintro (h | ⟨rfl | h, hne⟩)
        · exact .inl (.inl h)
        · exact .inl (.inr rfl)
        · exact .inr ⟨h, hne⟩

/-- A list of aliases reads back. -/
theorem twinAliasList_of_get {aliases : List String} (h : t.configJson.get "provider_aliases" = some (.ofStrings aliases))
    (htrim : ∀ a ∈ aliases, Text.trim a = a ∧ a ≠ "") : twinAliasList t = aliases := by
  have hread : (aliases.map Json.str).filterMap (fun a => a.asStr.map Text.trim) = aliases := by
    rw [List.filterMap_map]
    calc aliases.filterMap ((fun a => a.asStr.map Text.trim) ∘ Json.str)
        = aliases.filterMap some := List.filterMap_congr fun a ha => congrArg some (htrim a ha).1
      _ = aliases := List.filterMap_some
  unfold twinAliasList
  rw [h]
  show ((aliases.map Json.str).filterMap fun a => a.asStr.map Text.trim).filter (fun s => s ≠ "") = aliases
  rw [hread]
  exact List.filter_eq_self.mpr fun a ha => decide_eq_true (htrim a ha).2

theorem twinAliasList_mergeAliasesIntoTwin (keep : Twin) (fold : List String) :
    twinAliasList (mergeAliasesIntoTwin keep fold) = (fold.map Text.trim).foldl addAlias (twinAliasList keep) := by
  apply twinAliasList_of_get
  · apply Json.get_insert_self
    split_ifs with hobj
    · exact hobj
    · rfl
  · intro a ha
    rcases (mem_foldl_addAlias _ _).mp ha with hold | ⟨hnew, hne⟩
    · exact mem_twinAliasList hold
    · obtain ⟨b, -, rfl⟩ := List.mem_map.mp hnew
      exact ⟨Text.trim_trim b, hne⟩

/-- What is folded in is known, if it is an alias as it stands. -/
theorem mem_mergeAliasesIntoTwin (h : a ∈ fold) (htrim : Text.trim a = a) (hne : a ≠ "") :
    a ∈ twinAliasList (mergeAliasesIntoTwin keep fold) := by
  rw [twinAliasList_mergeAliasesIntoTwin, mem_foldl_addAlias]
  exact .inr ⟨List.mem_map.mpr ⟨a, h, htrim⟩, hne⟩

end Aliases

/-! ## The store after a run -/

/-- What a run writes for a twin of a group. -/
inductive PrunedTo (now : DateTime) (group : List Twin) : Twin → Twin → Prop
  | dead {keep t : Twin} {dead : List Twin} (hsort : group.insertionSort keptBefore = keep :: dead) (ht : t ∈ dead) :
    PrunedTo now group t (disabledDuplicate keep t now)
  | kept {keep : Twin} {dead : List Twin} (hsort : group.insertionSort keptBefore = keep :: dead) (hne : dead ≠ []) :
    PrunedTo now group keep (keeperAfter now group keep)

section Rows
variable {now : DateTime} {group : List Twin} {t u v : Twin}

theorem PrunedTo.mem (h : PrunedTo now group t u) : t ∈ group := by
  cases h with
  | dead hsort ht => exact mem_sorted_iff.mp (hsort ▸ List.mem_cons_of_mem _ ht)
  | kept hsort _ => exact mem_sorted_iff.mp (hsort ▸ List.mem_cons_self)

theorem PrunedTo.key (h : PrunedTo now group t u) : u.key = t.key := by
  cases h <;> rfl

theorem PrunedTo.subjectId (h : PrunedTo now group t u) : u.subjectId = t.subjectId := by
  cases h <;> rfl

theorem PrunedTo.twinKind (h : PrunedTo now group t u) : u.twinKind = t.twinKind := by
  cases h <;> rfl

theorem PrunedTo.unique (hnodup : group.Nodup) (h : PrunedTo now group t u) (h' : PrunedTo now group t v) : u = v := by
  have hsorted := (List.perm_insertionSort keptBefore group).nodup_iff.mpr hnodup
  cases h with
  | dead hsort ht =>
    cases h' with
    | dead hsort' ht' =>
      obtain ⟨rfl, rfl⟩ := List.cons.inj (hsort.symm.trans hsort')
      rfl
    | kept hsort' hne' =>
      obtain ⟨rfl, rfl⟩ := List.cons.inj (hsort.symm.trans hsort')
      rw [hsort] at hsorted
      exact absurd ht (List.nodup_cons.mp hsorted).1
  | kept hsort hne =>
    cases h' with
    | dead hsort' ht' =>
      obtain ⟨rfl, rfl⟩ := List.cons.inj (hsort.symm.trans hsort')
      rw [hsort] at hsorted
      exact absurd ht' (List.nodup_cons.mp hsorted).1
    | kept hsort' hne' => rfl

theorem prunedTo_of_mem_deadOf (now : DateTime) (h : t ∈ deadOf group) :
    ∃ keep dead, group.insertionSort keptBefore = keep :: dead ∧ dead ≠ [] ∧
      PrunedTo now group t (disabledDuplicate keep t now) := by
  unfold deadOf at h
  cases hsort : group.insertionSort keptBefore with
  | nil =>
    rw [hsort] at h
    cases h
  | cons keep dead =>
    rw [hsort] at h
    exact ⟨keep, dead, rfl, List.ne_nil_of_mem h, .dead hsort h⟩

theorem mem_prunedTwins : u ∈ prunedTwins now group ↔ ∃ t, PrunedTo now group t u := by
  unfold prunedTwins
  cases hsort : group.insertionSort keptBefore with
  | nil =>
    constructor
    · exact fun h => nomatch h
    · rintro ⟨t, h⟩
      cases h with
      | dead hsort' _ => cases hsort.symm.trans hsort'
      | kept hsort' _ => cases hsort.symm.trans hsort'
  | cons keep dead =>
    dsimp only
    constructor
    · intro h
      split_ifs at h with hempty
      · cases h
      · rcases List.mem_append.mp h with hdead | hkept
        · obtain ⟨t, ht, rfl⟩ := List.mem_map.mp hdead
          exact ⟨t, .dead hsort ht⟩
        · obtain rfl := List.mem_singleton.mp hkept
          exact ⟨keep, .kept hsort fun hnil => hempty (List.isEmpty_iff.mpr hnil)⟩
    · rintro ⟨t, h⟩
      cases h with
      | dead hsort' ht =>
        obtain ⟨rfl, rfl⟩ := List.cons.inj (hsort.symm.trans hsort')
        rw [if_neg fun hnil => List.ne_nil_of_mem ht (List.isEmpty_iff.mp hnil)]
        exact List.mem_append_left _ (List.mem_map_of_mem ht)
      | kept hsort' hne =>
        obtain ⟨rfl, rfl⟩ := List.cons.inj (hsort.symm.trans hsort')
        rw [if_neg fun hnil => hne (List.isEmpty_iff.mp hnil)]
        exact List.mem_append_right _ (List.mem_singleton_self _)

end Rows

section After
variable {st : InMemoryTwinStore} {tenantId slack k : String} {now : DateTime} {groups : List (String × List Twin)}
  {group : List Twin} {g : String × List Twin} {t t' u : Twin}

theorem mem_listTwins_iff : t ∈ st.listTwins tenantId ↔ st.twins.get t.key = some t ∧ t.tenantId = tenantId := by
  rw [InMemoryTwinStore.listTwins, List.mem_filter, Table.mem_values, decide_eq_true_iff]

/-- A twin of a group is replaced by what is written for it. -/
theorem get_prunedStore_of_pruned (hperm : groups.Perm (slackGroups st tenantId)) (hg : g ∈ groups)
    (h : PrunedTo now g.2 t u) : (prunedStore tenantId now groups st).twins.get t.key = some u := by
  rw [← h.key]
  apply Table.get_putAll_of_mem
  · exact List.mem_flatMap.mpr ⟨g, hg, mem_prunedTwins.mpr ⟨t, h⟩⟩
  · intro v hv hkey
    obtain ⟨g', hg', hmem⟩ := List.mem_flatMap.mp hv
    obtain ⟨t', h'⟩ := mem_prunedTwins.mp hmem
    have hgroup : (g.1, g.2) ∈ slackGroups st tenantId := hperm.mem_iff.mp hg
    have hgroup' : (g'.1, g'.2) ∈ slackGroups st tenantId := hperm.mem_iff.mp hg'
    have hkeys : t'.key = t.key := h'.key.symm.trans (hkey.trans h.key)
    obtain rfl : t' = t := eq_of_key ((mem_group_iff hgroup').mp h'.mem).1 ((mem_group_iff hgroup).mp h.mem).1 hkeys
    obtain ⟨-, heq⟩ := group_eq hgroup' hgroup h'.mem h.mem
    rw [heq] at h'
    exact h'.unique (nodup_group hgroup) h

/-- A twin for which nothing is written stays. -/
theorem get_prunedStore_of_unpruned (now : DateTime) (hperm : groups.Perm (slackGroups st tenantId))
    (ht : t ∈ st.listTwins tenantId) (h : ∀ g ∈ groups, ∀ u, ¬ PrunedTo now g.2 t u) :
    (prunedStore tenantId now groups st).twins.get t.key = some t := by
  have hget : (prunedStore tenantId now groups st).twins.get t.key = st.twins.get t.key := by
    apply Table.get_putAll_of_notMem
    intro v hv hkey
    obtain ⟨g, hg, hmem⟩ := List.mem_flatMap.mp hv
    obtain ⟨t', h'⟩ := mem_prunedTwins.mp hmem
    have hgroup : (g.1, g.2) ∈ slackGroups st tenantId := hperm.mem_iff.mp hg
    obtain rfl : t' = t := eq_of_key ((mem_group_iff hgroup).mp h'.mem).1 ht (h'.key.symm.trans hkey)
    exact h g hg v h'
  rw [hget]
  exact (mem_listTwins_iff.mp ht).1

theorem mem_listTwins_pruned (hperm : groups.Perm (slackGroups st tenantId)) (hg : g ∈ groups)
    (h : PrunedTo now g.2 t u) : u ∈ (prunedStore tenantId now groups st).listTwins tenantId := by
  have hgroup : (g.1, g.2) ∈ slackGroups st tenantId := hperm.mem_iff.mp hg
  have ht : t ∈ st.listTwins tenantId := ((mem_group_iff hgroup).mp h.mem).1
  have hkey : u.key = t.key := h.key
  have htenant : u.tenantId = t.tenantId := (Prod.mk.inj hkey).1
  rw [mem_listTwins_iff, hkey, htenant]
  exact ⟨get_prunedStore_of_pruned hperm hg h, (mem_listTwins_iff.mp ht).2⟩

/-- An enabled twin after a run was enabled before it, and no twin that is disabled. -/
theorem enabled_before (hperm : groups.Perm (slackGroups st tenantId))
    (ht' : t' ∈ (prunedStore tenantId now groups st).listTwins tenantId) (henabled : t'.enabled = true) :
    ∃ t ∈ st.listTwins tenantId, t.enabled = true ∧ t.key = t'.key ∧ t.subjectId = t'.subjectId ∧
      t.twinKind = t'.twinKind ∧ ∀ g ∈ groups, t ∉ deadOf g.2 := by
  obtain ⟨hget', htenant⟩ := mem_listTwins_iff.mp ht'
  by_cases hrow : ∃ g ∈ groups, ∃ t u, PrunedTo now g.2 t u ∧ t.key = t'.key
  · obtain ⟨g, hg, t, u, h, hkey⟩ := hrow
    have hgroup : (g.1, g.2) ∈ slackGroups st tenantId := hperm.mem_iff.mp hg
    have ht := (mem_group_iff hgroup).mp h.mem
    have hget := get_prunedStore_of_pruned hperm hg h
    rw [hkey, hget'] at hget
    obtain rfl : t' = u := Option.some.inj hget
    refine ⟨t, ht.1, ht.2.1.2, hkey, h.subjectId.symm, h.twinKind.symm, ?_⟩
    intro g' hg' hdead
    have hgroup' : (g'.1, g'.2) ∈ slackGroups st tenantId := hperm.mem_iff.mp hg'
    obtain ⟨-, heq⟩ := group_eq hgroup' hgroup (mem_of_mem_deadOf hdead) h.mem
    rw [heq] at hdead
    cases h with
    | dead hsort htdead => cases henabled
    | kept hsort hne => exact keep_notMem_deadOf hgroup hsort hdead
  · have hsame : (prunedStore tenantId now groups st).twins.get t'.key = st.twins.get t'.key := by
      apply Table.get_putAll_of_notMem
      intro v hv hkey
      obtain ⟨g, hg, hmem⟩ := List.mem_flatMap.mp hv
      obtain ⟨t, h⟩ := mem_prunedTwins.mp hmem
      exact hrow ⟨g, hg, t, v, h, h.key.symm.trans hkey⟩
    rw [hsame] at hget'
    refine ⟨t', mem_listTwins_iff.mpr ⟨hget', htenant⟩, henabled, rfl, rfl, rfl, ?_⟩
    intro g hg hdead
    obtain ⟨keep, dead, -, -, h⟩ := prunedTo_of_mem_deadOf now hdead
    exact hrow ⟨g, hg, t', _, h, rfl⟩

/-- An enabled twin that is not disabled is enabled after a run. -/
theorem enabled_after (now : DateTime) (hperm : groups.Perm (slackGroups st tenantId)) (ht : t ∈ st.listTwins tenantId)
    (henabled : t.enabled = true) (hdead : ∀ g ∈ groups, t ∉ deadOf g.2) :
    ∃ t' ∈ (prunedStore tenantId now groups st).listTwins tenantId, t'.enabled = true ∧ t'.subjectId = t.subjectId := by
  by_cases hrow : ∃ g ∈ groups, ∃ u, PrunedTo now g.2 t u
  · obtain ⟨g, hg, u, h⟩ := hrow
    refine ⟨u, mem_listTwins_pruned hperm hg h, ?_, h.subjectId⟩
    cases h with
    | dead hsort htdead =>
      refine absurd ?_ (hdead g hg)
      rw [deadOf, hsort]
      exact htdead
    | kept hsort hne => exact henabled
  · have hget := get_prunedStore_of_unpruned now hperm ht fun g hg u h => hrow ⟨g, hg, u, h⟩
    exact ⟨t, mem_listTwins_iff.mpr ⟨hget, (mem_listTwins_iff.mp ht).2⟩, henabled, rfl⟩

/-! ### Chat users -/

theorem slackOf_of_get {m : SlackUserMap} (h : st.slackMap.get (tenantId, k) = some m) :
    slackOf st tenantId k = m.slackUserId := by
  unfold slackOf InMemoryTwinStore.getSlackMap
  rw [h]
  rfl

theorem key_of_mem_prunedMaps {m : SlackUserMap} (h : m ∈ prunedMaps tenantId slack group) :
    ∃ k ∈ mappedIds group, m = ⟨tenantId, k, slack, ""⟩ := by
  obtain ⟨k, hk, rfl⟩ := List.mem_map.mp h
  exact ⟨k, hk, rfl⟩

/-- An id that is not folded keeps its chat user. -/
theorem slackOf_prunedStore_of_notMapped (h : ∀ g ∈ groups, k ∉ mappedIds g.2) :
    slackOf (prunedStore tenantId now groups st) tenantId k = slackOf st tenantId k := by
  have hget : (prunedStore tenantId now groups st).slackMap.get (tenantId, k) = st.slackMap.get (tenantId, k) := by
    apply Table.get_putAll_of_notMem
    intro m hm hkey
    obtain ⟨g, hg, hmem⟩ := List.mem_flatMap.mp hm
    obtain ⟨k', hk', rfl⟩ := key_of_mem_prunedMaps hmem
    obtain rfl : k' = k := (Prod.mk.inj hkey).2
    exact h g hg hk'
  unfold slackOf InMemoryTwinStore.getSlackMap
  rw [hget]

/-- An id that is folded into groups of one chat user has that user. -/
theorem slackOf_prunedStore_of_mapped (hg : g ∈ groups) (hk : k ∈ mappedIds g.2)
    (honly : ∀ g' ∈ groups, k ∈ mappedIds g'.2 → g'.1 = g.1) :
    slackOf (prunedStore tenantId now groups st) tenantId k = g.1 := by
  have hget : (prunedStore tenantId now groups st).slackMap.get (tenantId, k) = some ⟨tenantId, k, g.1, ""⟩ := by
    refine Table.get_putAll_of_mem (v := (⟨tenantId, k, g.1, ""⟩ : SlackUserMap)) ?_ ?_ _
    · exact List.mem_flatMap.mpr ⟨g, hg, List.mem_map.mpr ⟨k, hk, rfl⟩⟩
    · intro m hm hkey
      obtain ⟨g', hg', hmem⟩ := List.mem_flatMap.mp hm
      obtain ⟨k', hk', rfl⟩ := key_of_mem_prunedMaps hmem
      obtain rfl : k' = k := (Prod.mk.inj hkey).2
      rw [honly g' hg' hk']
  exact slackOf_of_get hget

/-- The last group has the last word. -/
theorem slackOf_prunedStore_last (hk : k ∈ mappedIds g.2) :
    slackOf (prunedStore tenantId now (groups ++ [g]) st) tenantId k = g.1 := by
  have hlast : prunedStore tenantId now (groups ++ [g]) st =
      prunedStore tenantId now [g] (prunedStore tenantId now groups st) := by
    unfold prunedStore Table.putAll
    simp only [List.flatMap_append, List.foldl_append]
  rw [hlast]
  apply slackOf_prunedStore_of_mapped (List.mem_singleton_self g) hk
  rintro g' hg' -
  rw [List.mem_singleton.mp hg']

end After

/-! ## The fixed point -/

/-- An enabled twin of a person that is no longer enabled. -/
def FoldedAway (tenantId : String) (st st' : InMemoryTwinStore) (t : Twin) : Prop :=
  t ∈ st.listTwins tenantId ∧ Living t ∧ ∃ t' ∈ st'.listTwins tenantId, t'.twinId = t.twinId ∧ t'.enabled = false

/-- What a run is to have done. -/
structure Folded (tenantId : String) (st st' : InMemoryTwinStore) : Prop where
  /-- no two living twins have one chat user -/
  apart : ∀ t ∈ st'.listTwins tenantId, ∀ t' ∈ st'.listTwins tenantId, Living t → Living t' →
    slackOf st' tenantId t.subjectId ≠ "" →
    slackOf st' tenantId t.subjectId = slackOf st' tenantId t'.subjectId → t = t'
  /-- a folded twin is known as an alias of the one that is kept -/
  known : ∀ t, FoldedAway tenantId st st' t → ∃ keep ∈ st'.listTwins tenantId, Living keep ∧
    slackOf st tenantId keep.subjectId = slackOf st tenantId t.subjectId ∧
    ∀ a ∈ t.subjectId :: twinAliasList t, a ∈ twinAliasList keep
  /-- the `gu_` ids of a folded twin have its chat user -/
  mapped : ∀ t, FoldedAway tenantId st st' t → ∀ k ∈ t.subjectId :: twinAliasList t,
    Text.startsWith k "gu_" = true → slackOf st' tenantId k = slackOf st tenantId t.subjectId
  /-- an enabled twin has the chat user that it had -/
  unchanged : ∀ t ∈ st'.listTwins tenantId, t.enabled = true →
    slackOf st' tenantId t.subjectId = slackOf st tenantId t.subjectId

/-- In whatever order a run goes through the groups, it folds them, and another run changes nothing. -/
def ReachesFixedPoint (tenantId : String) (s : DeliveryState) : Prop :=
  ∀ (api : TwinApi) (cs : ℕ → Choice), (∀ groups, (api.teamOrder groups).Perm groups) → (∀ n, Choice.quiet (cs n)) →
    ∃ s', (pruneDuplicateSlackTwins api tenantId).run.exec twinAnswer cs s = some (.ok (), s') ∧
      Folded tenantId s.store s'.store ∧
      ∀ (api' : TwinApi) (cs' : ℕ → Choice), (∀ groups, (api'.teamOrder groups).Perm groups) →
        (∀ n, Choice.quiet (cs' n)) →
        (pruneDuplicateSlackTwins api' tenantId).run.exec twinAnswer cs' s' = some (.ok (), s')

/-- What is folded is nobody else's. -/
structure Foldable (tenantId : String) (st : InMemoryTwinStore) : Prop where
  /-- subjects that are disabled are aliases as they stand -/
  trimmed : ∀ g ∈ slackGroups st tenantId, ∀ t ∈ deadOf g.2, Text.trim t.subjectId = t.subjectId ∧ t.subjectId ≠ ""
  /-- no folded id is the subject of an enabled twin with another chat user -/
  strangers : ∀ g ∈ slackGroups st tenantId, ∀ k ∈ mappedIds g.2, ∀ t ∈ st.listTwins tenantId, t.enabled = true →
    (∀ g' ∈ slackGroups st tenantId, t ∉ deadOf g'.2) → t.subjectId = k → slackOf st tenantId k = g.1
  /-- no `gu_` id is folded for two chat users -/
  once : ∀ g ∈ slackGroups st tenantId, ∀ g' ∈ slackGroups st tenantId, ∀ k ∈ mappedIds g.2, k ∈ mappedIds g'.2 →
    Text.startsWith k "gu_" = true → g.1 = g'.1

section FixedPoint
variable {st st₀ : InMemoryTwinStore} {tenantId k : String} {now : DateTime} {groups : List (String × List Twin)}
  {g : String × List Twin} {t : Twin}

theorem foldedAway_iff (hperm : groups.Perm (slackGroups st tenantId)) :
    FoldedAway tenantId st (prunedStore tenantId now groups st) t ↔ ∃ g ∈ groups, t ∈ deadOf g.2 := by
  constructor
  · rintro ⟨ht, hliving, t', ht', hid, hdisabled⟩
    obtain ⟨hget', htenant'⟩ := mem_listTwins_iff.mp ht'
    have hkey : t'.key = t.key := Prod.ext (htenant'.trans (mem_listTwins_iff.mp ht).2.symm) hid
    rw [hkey] at hget'
    by_cases hrow : ∃ g ∈ groups, ∃ u, PrunedTo now g.2 t u
    · obtain ⟨g, hg, u, h⟩ := hrow
      have hget := get_prunedStore_of_pruned hperm hg h
      rw [hget'] at hget
      obtain rfl : t' = u := Option.some.inj hget
      refine ⟨g, hg, ?_⟩
      cases h with
      | dead hsort htdead =>
        rw [deadOf, hsort]
        exact htdead
      | kept hsort hne =>
        -- the kept twin is as enabled as it was
        cases hliving.2.symm.trans hdisabled
    · have hget := get_prunedStore_of_unpruned now hperm ht fun g hg u h => hrow ⟨g, hg, u, h⟩
      rw [hget'] at hget
      obtain rfl : t' = t := Option.some.inj hget
      cases hliving.2.symm.trans hdisabled
  · rintro ⟨g, hg, hdead⟩
    have hgroup : (g.1, g.2) ∈ slackGroups st tenantId := hperm.mem_iff.mp hg
    obtain ⟨ht, hliving, -⟩ := (mem_group_iff hgroup).mp (mem_of_mem_deadOf hdead)
    obtain ⟨keep, dead, -, -, h⟩ := prunedTo_of_mem_deadOf now hdead
    exact ⟨ht, hliving, _, mem_listTwins_pruned hperm hg h, rfl, rfl⟩

theorem mem_foldOf (h : t ∈ deadOf g.2) (hk : k ∈ t.subjectId :: twinAliasList t) : k ∈ foldOf g.2 :=
  List.mem_flatMap.mpr ⟨t, h, hk⟩

theorem mem_mappedIds (h : t ∈ deadOf g.2) (hk : k ∈ t.subjectId :: twinAliasList t)
    (hgu : Text.startsWith k "gu_" = true) : k ∈ mappedIds g.2 :=
  List.mem_filter.mpr ⟨mem_foldOf h hk, by rw [hgu, Bool.true_or]⟩

theorem exists_of_mem_mappedIds (h : k ∈ mappedIds g.2) : ∃ t ∈ deadOf g.2, k ∈ t.subjectId :: twinAliasList t :=
  List.mem_flatMap.mp (List.mem_filter.mp h).1

/-- Two living twins of one chat user are in one group, which keeps one. -/
theorem eq_of_survivors {t' : Twin} (ht : t ∈ st.listTwins tenantId) (ht' : t' ∈ st.listTwins tenantId)
    (hliving : Living t) (hliving' : Living t') (hne : slackOf st tenantId t.subjectId ≠ "")
    (hslack : slackOf st tenantId t.subjectId = slackOf st tenantId t'.subjectId)
    (hkeep : ∀ g ∈ slackGroups st tenantId, t ∉ deadOf g.2) (hkeep' : ∀ g ∈ slackGroups st tenantId, t' ∉ deadOf g.2) :
    t = t' := by
  obtain ⟨group, hgroup, hmem⟩ := exists_group ht hliving hne
  have hmem' : t' ∈ group := (mem_group_iff hgroup).mpr ⟨ht', hliving', hslack.symm⟩
  have hhead : ∀ u ∈ group, u ∉ deadOf group → (group.insertionSort keptBefore).head? = some u := by
    intro u hu hdead
    have hsorted := mem_sorted_iff.mpr hu
    unfold deadOf at hdead
    cases hsort : group.insertionSort keptBefore with
    | nil =>
      rw [hsort] at hsorted
      cases hsorted
    | cons keep dead =>
      rw [hsort] at hsorted hdead
      rw [List.head?_cons, (List.mem_cons.mp hsorted).resolve_right hdead]
  have h := hhead t hmem (hkeep _ hgroup)
  rw [hhead t' hmem' (hkeep' _ hgroup)] at h
  exact (Option.some.inj h).symm

theorem folded_of_foldable (now : DateTime) (hperm : groups.Perm (slackGroups st tenantId)) (h : Foldable tenantId st) :
    Folded tenantId st (prunedStore tenantId now groups st) := by
  have hunchanged : ∀ t ∈ (prunedStore tenantId now groups st).listTwins tenantId, t.enabled = true →
      slackOf (prunedStore tenantId now groups st) tenantId t.subjectId = slackOf st tenantId t.subjectId := by
    intro t' ht' henabled'
    obtain ⟨t, ht, henabled, -, hsubject, -, hdead⟩ := enabled_before hperm ht' henabled'
    rw [← hsubject]
    have hown : ∀ g ∈ groups, t.subjectId ∈ mappedIds g.2 → g.1 = slackOf st tenantId t.subjectId := by
      intro g hg hk
      have hstays : ∀ g' ∈ slackGroups st tenantId, t ∉ deadOf g'.2 := fun g' hg' => hdead g' (hperm.mem_iff.mpr hg')
      exact (h.strangers g (hperm.mem_iff.mp hg) _ hk t ht henabled hstays rfl).symm
    by_cases hmapped : ∃ g ∈ groups, t.subjectId ∈ mappedIds g.2
    · obtain ⟨g, hg, hk⟩ := hmapped
      rw [← hown g hg hk]
      exact slackOf_prunedStore_of_mapped hg hk fun g' hg' hk' => (hown g' hg' hk').trans (hown g hg hk).symm
    · exact slackOf_prunedStore_of_notMapped fun g hg hk => hmapped ⟨g, hg, hk⟩
  refine ⟨?_, ?_, ?_, hunchanged⟩
  · intro u hu u' hu' hliving hliving' hne hslack
    rw [hunchanged u hu hliving.2] at hne hslack
    rw [hunchanged u' hu' hliving'.2] at hslack
    obtain ⟨t, ht, henabled, hkey, hsubject, hkind, hdead⟩ := enabled_before hperm hu hliving.2
    obtain ⟨t', ht', henabled', hkey', hsubject', hkind', hdead'⟩ := enabled_before hperm hu' hliving'.2
    rw [← hsubject] at hne hslack
    rw [← hsubject'] at hslack
    have hsame : t = t' := eq_of_survivors ht ht' ⟨hkind.trans hliving.1, henabled⟩ ⟨hkind'.trans hliving'.1, henabled'⟩
      hne hslack (fun g hg => hdead g (hperm.mem_iff.mpr hg)) fun g hg => hdead' g (hperm.mem_iff.mpr hg)
    have hkeys : u.key = u'.key := by rw [← hkey, hsame, hkey']
    exact eq_of_key hu hu' hkeys
  · intro t haway
    obtain ⟨g, hg, hdead⟩ := (foldedAway_iff hperm).mp haway
    have hgroup : (g.1, g.2) ∈ slackGroups st tenantId := hperm.mem_iff.mp hg
    obtain ⟨keep, dead, hsort, hne, -⟩ := prunedTo_of_mem_deadOf now hdead
    have hkept : PrunedTo now g.2 keep (keeperAfter now g.2 keep) := .kept hsort hne
    obtain ⟨-, hliving, hslack⟩ := (mem_group_iff hgroup).mp hkept.mem
    have htslack := ((mem_group_iff hgroup).mp (mem_of_mem_deadOf hdead)).2.2
    refine ⟨_, mem_listTwins_pruned hperm hg hkept, hliving, hslack.trans htslack.symm, ?_⟩
    intro a ha
    have htrim : Text.trim a = a ∧ a ≠ "" := by
      rcases List.mem_cons.mp ha with rfl | hmem
      · exact h.trimmed _ hgroup t hdead
      · exact mem_twinAliasList hmem
    exact mem_mergeAliasesIntoTwin (mem_foldOf hdead ha) htrim.1 htrim.2
  · intro t haway k hk hgu
    obtain ⟨g, hg, hdead⟩ := (foldedAway_iff hperm).mp haway
    have hgroup : (g.1, g.2) ∈ slackGroups st tenantId := hperm.mem_iff.mp hg
    rw [((mem_group_iff hgroup).mp (mem_of_mem_deadOf hdead)).2.2]
    have hmem := mem_mappedIds hdead hk hgu
    exact slackOf_prunedStore_of_mapped hg hmem fun g' hg' hk' =>
      h.once g' (hperm.mem_iff.mp hg') g hgroup k hk' hmem hgu

/-- Where no two living twins have one chat user, there is nothing to do. -/
theorem prunedStore_of_folded (h : Folded tenantId st₀ st) (hperm : groups.Perm (slackGroups st tenantId)) :
    prunedStore tenantId now groups st = st := by
  have hsingle : ∀ g ∈ groups, deadOf g.2 = [] := by
    intro g hg
    have hgroup : (g.1, g.2) ∈ slackGroups st tenantId := hperm.mem_iff.mp hg
    have hne : g.1 ≠ "" := (((slackGroups_groupedBy st tenantId).mem _ _).mp hgroup).1
    have hsame : ∀ t ∈ g.2, ∀ t' ∈ g.2, t = t' := by
      intro t ht t' ht'
      obtain ⟨hlist, hliving, hslack⟩ := (mem_group_iff hgroup).mp ht
      obtain ⟨hlist', hliving', hslack'⟩ := (mem_group_iff hgroup).mp ht'
      exact h.apart t hlist t' hlist' hliving hliving' (hslack ▸ hne) (hslack.trans hslack'.symm)
    rw [List.eq_nil_iff_forall_not_mem]
    intro t ht
    obtain ⟨keep, dead, hsort, -, -⟩ := prunedTo_of_mem_deadOf now ht
    have hkeep : keep ∈ g.2 := mem_sorted_iff.mp (hsort ▸ List.mem_cons_self)
    rw [hsame t (mem_of_mem_deadOf ht) keep hkeep] at ht
    exact keep_notMem_deadOf hgroup hsort ht
  have htwins : groups.flatMap (fun g => prunedTwins now g.2) = [] := by
    rw [List.flatMap_eq_nil_iff]
    intro g hg
    have hdead := hsingle g hg
    unfold prunedTwins
    unfold deadOf at hdead
    cases hsort : g.2.insertionSort keptBefore with
    | nil => rfl
    | cons keep dead =>
      rw [hsort] at hdead
      obtain rfl : dead = [] := hdead
      rfl
  have hmaps : groups.flatMap (fun g => prunedMaps tenantId g.1 g.2) = [] := by
    rw [List.flatMap_eq_nil_iff]
    intro g hg
    unfold prunedMaps mappedIds foldOf
    rw [hsingle g hg]
    rfl
  unfold prunedStore
  rw [htwins, hmaps]
  rfl

/-- The groups with those of one chat user at the end. -/
def withLast (slack : String) (groups : List (String × List Twin)) : List (String × List Twin) :=
  groups.filter (fun g => g.1 ≠ slack) ++ groups.filter fun g => g.1 = slack

theorem withLast_perm (slack : String) (groups : List (String × List Twin)) :
    (withLast slack groups).Perm groups := by
  have hsplit := List.filter_append_perm (fun g : String × List Twin => decide (g.1 ≠ slack)) groups
  have hnot : (fun g : String × List Twin => !decide (g.1 ≠ slack)) = fun g => decide (g.1 = slack) := by
    funext g
    simp
  rw [hnot] at hsplit
  exact hsplit

theorem filter_eq_of_keys (hkeys : (groups.map Prod.fst).Nodup) (hg : g ∈ groups) :
    groups.filter (fun g' => g'.1 = g.1) = [g] := by
  induction groups with
  | nil => cases hg
  | cons e rest ih =>
    obtain ⟨hnot, hrest⟩ := List.nodup_cons.mp hkeys
    rcases List.mem_cons.mp hg with rfl | hmem
    · rw [List.filter_cons_of_pos (by simp)]
      congr 1
      refine List.filter_eq_nil_iff.mpr fun g' hg' heq => ?_
      exact hnot (List.mem_map.mpr ⟨g', hg', of_decide_eq_true heq⟩)
    · rw [List.filter_cons_of_neg, ih hrest hmem]
      intro heq
      exact hnot (List.mem_map.mpr ⟨g, hmem, (of_decide_eq_true heq).symm⟩)

end FixedPoint

/-- The service that goes through groups in this order. -/
def orderedApi (order : List (String × List Twin) → List (String × List Twin)) : TwinApi :=
  { mockApi with teamOrder := order }

theorem ReachesFixedPoint.folded {tenantId : String} {s : DeliveryState} (h : ReachesFixedPoint tenantId s)
    (order : List (String × List Twin) → List (String × List Twin)) (hperm : ∀ groups, (order groups).Perm groups) :
    ∃ now, Folded tenantId s.store (prunedStore tenantId now (order (slackGroups s.store tenantId)) s.store) := by
  let calm : ℕ → Choice := fun _ => ⟨0, "", .error (.storage ""), .error (.storage ""), none⟩
  obtain ⟨s', hexec, hfolded, -⟩ := h (orderedApi order) calm hperm fun _ => rfl
  obtain ⟨now, hexec'⟩ := pruneDuplicateSlackTwins_exec (orderedApi order) tenantId s calm fun _ => rfl
  rw [hexec] at hexec'
  obtain rfl := (Prod.mk.inj (Option.some.inj hexec')).2
  exact ⟨now, hfolded⟩

theorem reachesFixedPoint_iff (tenantId : String) (s : DeliveryState) :
    ReachesFixedPoint tenantId s ↔ Foldable tenantId s.store := by
  constructor
  · intro h
    obtain ⟨now, hfolded⟩ := h.folded id fun _ => List.Perm.refl _
    have hperm := List.Perm.refl (slackGroups s.store tenantId)
    refine ⟨?_, ?_, ?_⟩
    · intro g hg t hdead
      obtain ⟨keep, -, -, -, haliases⟩ := hfolded.known t ((foldedAway_iff hperm).mpr ⟨g, hg, hdead⟩)
      exact mem_twinAliasList (haliases t.subjectId List.mem_cons_self)
    · intro g hg k hk t ht henabled hdead hsubject
      -- the order in which the group comes last
      obtain ⟨now, hfolded⟩ := h.folded (withLast g.1) (withLast_perm g.1)
      have hlast : withLast g.1 (slackGroups s.store tenantId) =
          (slackGroups s.store tenantId).filter (fun g' => g'.1 ≠ g.1) ++ [g] := by
        rw [withLast, filter_eq_of_keys (slackGroups_groupedBy _ _).keys hg]
      have hgroups := withLast_perm g.1 (slackGroups s.store tenantId)
      obtain ⟨t', ht', henabled', hsubject'⟩ := enabled_after now hgroups ht henabled
        fun g' hg' => hdead g' (hgroups.mem_iff.mp hg')
      have hsame := hfolded.unchanged t' ht' henabled'
      rw [hsubject', hsubject, hlast, slackOf_prunedStore_last hk] at hsame
      exact hsame.symm
    · intro g hg g' hg' k hk hk' hgu
      have hslack : ∀ e ∈ slackGroups s.store tenantId, k ∈ mappedIds e.2 → slackOf
          (prunedStore tenantId now (slackGroups s.store tenantId) s.store) tenantId k = e.1 := by
        intro e he hke
        obtain ⟨t, hdead, hid⟩ := exists_of_mem_mappedIds hke
        have hgroup : (e.1, e.2) ∈ slackGroups s.store tenantId := he
        refine (hfolded.mapped t ((foldedAway_iff hperm).mpr ⟨e, he, hdead⟩) k hid hgu).trans ?_
        exact ((mem_group_iff hgroup).mp (mem_of_mem_deadOf hdead)).2.2
      exact (hslack g hg hk).symm.trans (hslack g' hg' hk')
  · intro h api cs hperm hquiet
    obtain ⟨now, hexec⟩ := pruneDuplicateSlackTwins_exec api tenantId s cs hquiet
    have hfolded := folded_of_foldable now (hperm (slackGroups s.store tenantId)) h
    refine ⟨_, hexec, hfolded, ?_⟩
    generalize hs₁ : ({ s with
      store := prunedStore tenantId now (api.teamOrder (slackGroups s.store tenantId)) s.store } : DeliveryState) = s₁
    replace hfolded : Folded tenantId s.store s₁.store := hs₁ ▸ hfolded
    intro api' cs' hperm' hquiet'
    obtain ⟨now', hexec'⟩ := pruneDuplicateSlackTwins_exec api' tenantId s₁ cs' hquiet'
    rw [prunedStore_of_folded hfolded (hperm' _)] at hexec'
    exact hexec'

/-- A person's twin, enabled, with these aliases. -/
def aliasedTwin (subjectId : String) (aliases : List String) (updatedAt : DateTime) : Twin :=
  { newTwin "ten_demo" (personTwinId subjectId) subjectId .person updatedAt with
    configJson := .obj [("provider_aliases", .ofStrings aliases)] }

/-- Two twins of Alice, the older with an alias that is the subject of Bob. -/
def aliasOfBobStore : InMemoryTwinStore :=
  { InMemoryTwinStore.new with
    twins := Table.putAll ∅ [aliasedTwin "gu_alice" [] 1, aliasedTwin "gu_old" ["gu_bob"] 0, aliasedTwin "gu_bob" [] 0]
    slackMap := Table.putAll ∅ [⟨"ten_demo", "gu_alice", "U1", ""⟩, ⟨"ten_demo", "gu_old", "U1", ""⟩,
      ⟨"ten_demo", "gu_bob", "U2", ""⟩] }

/-- Bob gets the chat user of Alice. -/
theorem not_reachesFixedPoint : ¬ ∀ tenantId s, ReachesFixedPoint tenantId s := by
  intro h
  obtain ⟨now, hfolded⟩ := (h "ten_demo" ⟨aliasOfBobStore, [], []⟩).folded id fun _ => List.Perm.refl _
  have hbob := hfolded.unchanged (aliasedTwin "gu_bob" [] 0) (mem_listTwins_iff.mpr ⟨rfl, rfl⟩) rfl
  have hslack : slackOf (prunedStore "ten_demo" now (slackGroups aliasOfBobStore "ten_demo") aliasOfBobStore)
      "ten_demo" "gu_bob" = "U1" := by rfl
  exact absurd (hslack.symm.trans hbob) (by decide)

end AiManager.Platform
