import AiManager.Graph.MapEvent
import AiManager.Graph.StoreCrdb

/-! # Two writers of entity states

The merge rule is written once in the embedded store and once as the condition of an update. Both read the
row that is there and nothing else, so that the stores are compared key by key, as two registers
(`writers_agree_iff`). -/

namespace AiManager.Graph

open Lib

/-- What is compared of a row. -/
def EntityState.valueAndTime (s : EntityState) : String × DateTime := (s.stateValue, s.asOf)

/-- The stores hold the same values, as of the same times. -/
def SameStates (st : InMemoryGraphStore) (db : CrdbGraphStore) : Prop :=
  ∀ key, (st.states.get key).map EntityState.valueAndTime =
    (db.states.get key).map EntityState.valueAndTime

/-- The stored value and `s` differ as of one time. -/
def Clash (e s : EntityState) : Prop := s.asOf = e.asOf ∧ s.stateValue ≠ e.stateValue

instance (e s : EntityState) : Decidable (Clash e s) := inferInstanceAs (Decidable (_ ∧ _))

section Alike
variable (column : DateTime → DateTime)

/-- The two rules do the same with `s`, given the row that the embedded store holds. -/
def WritesAlike (held : Option EntityState) (s : EntityState) : Prop :=
  match held with
  | none => column s.asOf = s.asOf
  | some e =>
    if s.asOf < e.asOf then CrdbGraphStore.overwrites e (CrdbGraphStore.stateRow column s) = false
    else
      -- a tie is decided by event and priority in one store, by the value alone in the other
      column s.asOf = s.asOf ∧ (Clash e s →
        (e.eventId = s.eventId ∨
            InMemoryGraphStore.prio s.stateValue ≥ InMemoryGraphStore.prio e.stateValue ↔
          s.stateValue = "CLOSED" ∨ s.stateValue = "MERGED"))

/-- The row of a key in both stores, the embedded one first. -/
abbrev RowPair := Option EntityState × Option EntityState

def writeRow (held : RowPair) (s : EntityState) : RowPair :=
  (some (InMemoryGraphStore.settle held.1 s), some (CrdbGraphStore.settle column held.2 s))

def RowsAgree (held : RowPair) : Prop :=
  held.1.map EntityState.valueAndTime = held.2.map EntityState.valueAndTime

/-- What the production store holds is as its columns keep it. -/
def Kept (held : RowPair) : Prop := ∀ e ∈ held.2, column e.asOf = e.asOf

variable {column}

theorem kept_writeRow (hcolumn : ∀ t, column (column t) = column t) {held : RowPair}
    (h : Kept column held) (s : EntityState) : Kept column (writeRow column held s) := by
  intro e he
  obtain rfl := Option.some.inj he
  unfold CrdbGraphStore.settle
  split
  · exact hcolumn _
  · next existing hexisting =>
    split_ifs
    · exact hcolumn _
    · exact h existing hexisting

theorem settle_of_clash {e s : EntityState} (h : Clash e s) : InMemoryGraphStore.settle (some e) s =
    if e.eventId = s.eventId ∨
      InMemoryGraphStore.prio s.stateValue ≥ InMemoryGraphStore.prio e.stateValue then s else e := by
  have hnot : ¬ e.asOf > s.asOf := by rw [h.1]; exact lt_irrefl _
  have htie : InMemoryGraphStore.ties e s = true ↔ e.eventId ≠ s.eventId := by
    simp [InMemoryGraphStore.ties, h.1, Ne.symm h.2]
  unfold InMemoryGraphStore.settle
  dsimp only
  rw [if_neg hnot]
  by_cases hid : e.eventId = s.eventId
  · rw [if_neg (by simp [htie, hid]), if_pos (.inl hid)]
  · rw [if_pos (htie.mpr hid)]
    simp [hid]

theorem settle_of_not_clash {e s : EntityState} (hnot : ¬ s.asOf < e.asOf) (h : ¬ Clash e s) :
    InMemoryGraphStore.settle (some e) s = s := by
  have htie : InMemoryGraphStore.ties e s = false := by
    by_contra hties
    simp only [InMemoryGraphStore.ties, Bool.not_eq_false, Bool.and_eq_true, decide_eq_true_eq] at hties
    exact h ⟨hties.1.1.symm, Ne.symm hties.2⟩
  unfold InMemoryGraphStore.settle
  dsimp only
  rw [if_neg hnot, if_neg (by simp [htie])]

theorem overwrites_congr {e d : EntityState} (h : e.valueAndTime = d.valueAndTime)
    (row : EntityState) : CrdbGraphStore.overwrites e row = CrdbGraphStore.overwrites d row := by
  obtain ⟨hvalue, htime⟩ := Prod.mk.inj h
  unfold CrdbGraphStore.overwrites
  rw [hvalue, htime]

theorem overwrites_iff_of_clash {e s row : EntityState} (h : Clash e s) (hvalue : row.stateValue = s.stateValue)
    (htime : row.asOf = s.asOf) : CrdbGraphStore.overwrites e row = true ↔
      s.stateValue = "CLOSED" ∨ s.stateValue = "MERGED" := by
  simp [CrdbGraphStore.overwrites, hvalue, htime, h.1, Ne.symm h.2]

/-- A row that is overwritten changes. -/
theorem valueAndTime_ne_of_overwrites {e row : EntityState}
    (h : CrdbGraphStore.overwrites e row = true) : e.valueAndTime ≠ row.valueAndTime := by
  intro heq
  obtain ⟨hvalue, htime⟩ := Prod.mk.inj heq
  simp [CrdbGraphStore.overwrites, hvalue, htime] at h

variable (column) in
/-- What the production store holds after a write to a row that agrees with `e`. -/
def keptRow (e s : EntityState) : String × DateTime :=
  if CrdbGraphStore.overwrites e (CrdbGraphStore.stateRow column s) then
    (s.stateValue, column s.asOf) else e.valueAndTime

theorem valueAndTime_settle {d e : EntityState} (hd : d.valueAndTime = e.valueAndTime)
    (s : EntityState) : (CrdbGraphStore.settle column (some d) s).valueAndTime = keptRow column e s := by
  unfold CrdbGraphStore.settle keptRow
  dsimp only
  rw [overwrites_congr hd]
  split_ifs
  · rfl
  · exact hd

/-- A late write. -/
theorem late_alike_iff {e s : EntityState} (hlate : s.asOf < e.asOf) :
    (InMemoryGraphStore.settle (some e) s).valueAndTime = keptRow column e s ↔
      CrdbGraphStore.overwrites e (CrdbGraphStore.stateRow column s) = false := by
  have hsettle : InMemoryGraphStore.settle (some e) s = e := if_pos hlate
  have hrow : (CrdbGraphStore.stateRow column s).valueAndTime = (s.stateValue, column s.asOf) := rfl
  unfold keptRow
  rw [hsettle]
  cases hover : CrdbGraphStore.overwrites e (CrdbGraphStore.stateRow column s) with
  | false => simp
  | true => simpa [← hrow] using valueAndTime_ne_of_overwrites hover

/-- A tie: by event and priority in one store, by the value alone in the other. -/
theorem clash_alike_iff {e s : EntityState} (hfixed : column e.asOf = e.asOf) (hclash : Clash e s) :
    (InMemoryGraphStore.settle (some e) s).valueAndTime = keptRow column e s ↔
      (e.eventId = s.eventId ∨
          InMemoryGraphStore.prio s.stateValue ≥ InMemoryGraphStore.prio e.stateValue ↔
        s.stateValue = "CLOSED" ∨ s.stateValue = "MERGED") := by
  have hcolumn : column s.asOf = s.asOf := by rw [hclash.1, hfixed]
  have hover : CrdbGraphStore.overwrites e (CrdbGraphStore.stateRow column s) = true ↔
      s.stateValue = "CLOSED" ∨ s.stateValue = "MERGED" :=
    overwrites_iff_of_clash hclash rfl hcolumn
  have hne : e.valueAndTime ≠ s.valueAndTime := fun heq => hclash.2 (Prod.mk.inj heq).1.symm
  have hs : (s.stateValue, column s.asOf) = s.valueAndTime := by rw [hcolumn]; rfl
  unfold keptRow
  rw [settle_of_clash hclash, hs, ← hover]
  by_cases htakes : e.eventId = s.eventId ∨
      InMemoryGraphStore.prio s.stateValue ≥ InMemoryGraphStore.prio e.stateValue
  · rw [if_pos htakes]
    cases CrdbGraphStore.overwrites e (CrdbGraphStore.stateRow column s) <;>
      simp [htakes, hne.symm]
  · rw [if_neg htakes]
    cases CrdbGraphStore.overwrites e (CrdbGraphStore.stateRow column s) <;>
      simp [htakes, hne]

/-- Neither: both stores take the write, at the precision of the column in one. -/
theorem newer_alike_iff {e s : EntityState} (hfixed : column e.asOf = e.asOf) (hnot : ¬ s.asOf < e.asOf)
    (hclash : ¬ Clash e s) :
    (InMemoryGraphStore.settle (some e) s).valueAndTime = keptRow column e s ↔
      column s.asOf = s.asOf := by
  unfold keptRow
  rw [settle_of_not_clash hnot hclash]
  constructor
  · intro hsame
    by_cases hover : CrdbGraphStore.overwrites e (CrdbGraphStore.stateRow column s) = true
    · rw [if_pos hover] at hsame
      exact (Prod.mk.inj hsame).2.symm
    · rw [if_neg hover] at hsame
      rw [(Prod.mk.inj hsame).2, hfixed]
  · intro hcolumn
    by_cases hover : CrdbGraphStore.overwrites e (CrdbGraphStore.stateRow column s) = true
    · rw [if_pos hover, hcolumn]
      rfl
    · -- then nothing is newer, and without a clash nothing differs
      rw [if_neg hover]
      have htime : s.asOf = e.asOf := by
        by_contra hne
        have hlt : e.asOf < s.asOf := lt_of_le_of_ne (not_lt.mp hnot) (Ne.symm hne)
        exact hover (by simp [CrdbGraphStore.overwrites, CrdbGraphStore.stateRow, hcolumn, hlt])
      have hvalue : s.stateValue = e.stateValue := by
        by_contra hne
        exact hclash ⟨htime, hne⟩
      exact Prod.ext hvalue htime

/-- **One write.** -/
theorem rowsAgree_writeRow_iff {held : RowPair} (hkept : Kept column held) (h : RowsAgree held)
    (s : EntityState) : RowsAgree (writeRow column held s) ↔ WritesAlike column held.1 s := by
  obtain ⟨held₁, held₂⟩ := held
  cases held₁ with
  | none =>
    obtain rfl : held₂ = none := Option.map_eq_none_iff.mp h.symm
    show some s.valueAndTime = some (s.stateValue, column s.asOf) ↔ column s.asOf = s.asOf
    rw [Option.some.injEq, EntityState.valueAndTime, Prod.mk.injEq]
    exact ⟨fun h => h.2.symm, fun h => ⟨rfl, h.symm⟩⟩
  | some e =>
    obtain ⟨d, rfl, hd⟩ := Option.map_eq_some_iff.mp h.symm
    have hfixed : column e.asOf = e.asOf := by
      rw [← (Prod.mk.inj hd).2]
      exact hkept d rfl
    have hagree : RowsAgree (writeRow column (some e, some d) s) ↔
        (InMemoryGraphStore.settle (some e) s).valueAndTime = keptRow column e s := by
      rw [← valueAndTime_settle hd]
      exact Option.some_inj
    rw [hagree]
    unfold WritesAlike
    dsimp only
    by_cases hlate : s.asOf < e.asOf
    · rw [if_pos hlate]
      exact late_alike_iff hlate
    · rw [if_neg hlate]
      by_cases hclash : Clash e s
      · have hcolumn : column s.asOf = s.asOf := by rw [hclash.1, hfixed]
        rw [clash_alike_iff hfixed hclash, and_iff_right hcolumn, forall_prop_of_true hclash]
      · rw [newer_alike_iff hfixed hlate hclash, forall_prop_of_false hclash, and_true]

/-! ## Sequences of calls -/

variable (column)

def memoryAfter (calls : List GraphMutation) : InMemoryGraphStore :=
  calls.foldl InMemoryGraphStore.applyMutation .new

def crdbAfter (calls : List GraphMutation) : CrdbGraphStore :=
  calls.foldl (CrdbGraphStore.applyMutation column) .new

/-- The rows that the calls write under a key. -/
def writesAt (key : String × String × String) (calls : List GraphMutation) : List EntityState :=
  calls.flatMap fun m => m.statesAt key

/-- Every write finds a row on which the two rules do the same with it. -/
def AllAlike (calls : List GraphMutation) : Prop := ∀ key, EachStep (writeRow column)
  (fun held s => WritesAlike column held.1 s) (none, none) (writesAt key calls)

variable {column}

theorem runFrom_writeRow (ws : List EntityState) : ∀ held, runFrom (writeRow column) held ws =
    (register InMemoryGraphStore.settle held.1 ws, register (CrdbGraphStore.settle column) held.2 ws) := by
  induction ws with
  | nil => intro held; rfl
  | cons w ws ih => intro held; exact ih _

theorem kept_run (hcolumn : ∀ t, column (column t) = column t) (ws : List EntityState) :
    Kept column (runFrom (writeRow column) (none, none) ws) := by
  have hsteps : EachStep (writeRow column) (fun _ _ => True) (none, none) ws :=
    EachStep.of_forall (fun _ _ => trivial) (none, none) ws
  refine Throughout.last (throughout_of_eachStep (fun held s _ h => ?_) hsteps ?_)
  · exact kept_writeRow hcolumn h s
  · exact fun e he => nomatch he

/-- Both rows of a key after the calls. -/
theorem rowsAfter (key : String × String × String) (calls : List GraphMutation) :
    ((memoryAfter calls).states.get key, (crdbAfter column calls).states.get key) =
      runFrom (writeRow column) (none, none) (writesAt key calls) := by
  have hmemory : (memoryAfter calls).states.get key =
      register InMemoryGraphStore.settle none (writesAt key calls) :=
    read_foldl (fun st : InMemoryGraphStore => st.states.get key) _
      (fun st m => st.applyMutation_states m key) calls .new
  have hcrdb : (crdbAfter column calls).states.get key =
      register (CrdbGraphStore.settle column) none (writesAt key calls) :=
    read_foldl (fun db : CrdbGraphStore => db.states.get key) _
      (fun db m => db.applyMutation_states_get m key) calls .new
  rw [runFrom_writeRow, hmemory, hcrdb]

theorem writesAt_append (key : String × String × String) (calls calls' : List GraphMutation) :
    writesAt key (calls ++ calls') = writesAt key calls ++ writesAt key calls' :=
  List.flatMap_append

theorem sameStates_iff (calls : List GraphMutation) :
    SameStates (memoryAfter calls) (crdbAfter column calls) ↔
      ∀ key, RowsAgree (runFrom (writeRow column) (none, none) (writesAt key calls)) := by
  refine forall_congr' fun key => ?_
  rw [← rowsAfter]
  exact Iff.rfl

theorem sameStates_of_allAlike (hcolumn : ∀ t, column (column t) = column t)
    {calls : List GraphMutation} (h : AllAlike column calls) :
    SameStates (memoryAfter calls) (crdbAfter column calls) := by
  refine (sameStates_iff calls).mpr fun key => ?_
  have hrun : Throughout (writeRow column) RowsAgree (none, none) (writesAt key calls) :=
    (throughout_iff_of_invariant (I := Kept column) (fun held s hkept _ => kept_writeRow hcolumn hkept s)
      (fun held s hkept hagree => rowsAgree_writeRow_iff hkept hagree s) (kept_run hcolumn []) rfl).mpr
      (h key)
  exact hrun.last

/-- A call that writes every key once writes at most one row under a key. -/
theorem statesAt_of_nodup {m : GraphMutation} (h : (m.states.map EntityState.key).Nodup)
    (key : String × String × String) : m.statesAt key = [] ∨ ∃ s, m.statesAt key = [s] := by
  have hpair : (m.statesAt key).Pairwise fun a b => a.key ≠ b.key :=
    (List.pairwise_map.mp h).filter _
  have hkey : ∀ s ∈ m.statesAt key, s.key = key := fun s hs =>
    of_decide_eq_true (List.mem_filter.mp hs).2
  cases hrows : m.statesAt key with
  | nil => exact .inl rfl
  | cons s rows =>
    cases rows with
    | nil => exact .inr ⟨s, rfl⟩
    | cons t rows =>
      rw [hrows] at hpair hkey
      have hs := hkey s List.mem_cons_self
      have ht := hkey t (List.mem_cons_of_mem _ List.mem_cons_self)
      exact absurd (hs.trans ht.symm) ((List.pairwise_cons.mp hpair).1 t List.mem_cons_self)

theorem allAlike_of_sameStates (hcolumn : ∀ t, column (column t) = column t)
    {calls : List GraphMutation} (honce : ∀ m ∈ calls, (m.states.map EntityState.key).Nodup)
    (h : ∀ before, before <+: calls → SameStates (memoryAfter before) (crdbAfter column before)) :
    AllAlike column calls := by
  induction calls using List.reverseRecOn with
  | nil => exact fun _ => trivial
  | append_singleton calls m ih =>
    -- the earlier calls by induction; the stores agree before the last one and after it
    have hbefore : AllAlike column calls := by
      refine ih (fun m hm => honce m (List.mem_append_left _ hm)) fun before hstart => ?_
      exact h before (hstart.trans (List.prefix_append _ _))
    intro key
    have hagree := (sameStates_iff calls).mp (h calls (List.prefix_append _ _)) key
    have hagree' := (sameStates_iff (calls ++ [m])).mp (h _ (List.prefix_refl _)) key
    have hlast : writesAt key [m] = m.statesAt key := List.flatMap_singleton _ m
    rw [writesAt_append, hlast] at hagree' ⊢
    refine eachStep_append.mpr ⟨hbefore key, ?_⟩
    rcases statesAt_of_nodup (honce m (List.mem_append_right _ (List.mem_singleton_self m))) key with
      hnone | ⟨s, hone⟩
    · rw [hnone]
      trivial
    · rw [hone] at hagree' ⊢
      have hstep : runFrom (writeRow column) (none, none) (writesAt key calls ++ [s]) =
          writeRow column (runFrom (writeRow column) (none, none) (writesAt key calls)) s :=
        List.foldl_concat _ _ _ _
      rw [hstep] at hagree'
      exact ⟨(rowsAgree_writeRow_iff (kept_run hcolumn _) hagree s).mp hagree', trivial⟩

/-- **The writers agree after every call exactly if every write is treated alike.** The condition is
enough for any calls, and necessary for calls that write a state once, as those of an event do. -/
theorem writers_agree_iff (hcolumn : ∀ t, column (column t) = column t) (calls : List GraphMutation) :
    (AllAlike column calls →
      ∀ before, before <+: calls → SameStates (memoryAfter before) (crdbAfter column before)) ∧
    ((∀ m ∈ calls, (m.states.map EntityState.key).Nodup) →
      ((∀ before, before <+: calls → SameStates (memoryAfter before) (crdbAfter column before)) ↔
        AllAlike column calls)) := by
  have henough : AllAlike column calls →
      ∀ before, before <+: calls → SameStates (memoryAfter before) (crdbAfter column before) := by
    rintro halike before ⟨rest, rfl⟩
    refine sameStates_of_allAlike hcolumn fun key => ?_
    have hall := halike key
    rw [writesAt_append] at hall
    exact (eachStep_append.mp hall).1
  exact ⟨henough, fun honce => ⟨allAlike_of_sameStates hcolumn honce, henough⟩⟩

end Alike

/-- An event writes a state once. -/
theorem mapEvent_states_nodup (isAlphanumeric : Char → Bool) (event : V1CanonicalEvent) :
    ((mapEvent isAlphanumeric event).states.map EntityState.key).Nodup := by
  rcases mapEvent_states isAlphanumeric event with hnone | ⟨_, _, _, hone⟩
  · rw [hnone]
    exact List.nodup_nil
  · rw [hone]
    exact List.nodup_singleton _

/-- A call that writes a lifecycle value of one pull request. -/
def lifecycleCall (eventId stateValue : String) (asOf : DateTime) : GraphMutation :=
  { states := [{ tenantId := "t", nodeId := "pr:1", stateKey := "lifecycle", stateValue := stateValue,
                 asOf := asOf, eventId := eventId, isPrivate := false, allowedGroupIds := [] }] }

/-- Closed and merged at one moment, in that order. -/
theorem writers_agree_iff_closed_and_merged : SameStates
    (memoryAfter [lifecycleCall "c" "CLOSED" 1000, lifecycleCall "m" "MERGED" 1000])
    (crdbAfter DateTime.truncMicros
      [lifecycleCall "c" "CLOSED" 1000, lifecycleCall "m" "MERGED" 1000]) := by
  refine (writers_agree_iff DateTime.truncMicros_truncMicros _).1 (fun key => ?_) _ (List.prefix_refl _)
  by_cases hkey : ("t", "pr:1", "lifecycle") = key
  · obtain rfl := hkey
    exact ⟨rfl, ⟨rfl, fun _ => by decide⟩, trivial⟩
  · have hnone : writesAt key [lifecycleCall "c" "CLOSED" 1000, lifecycleCall "m" "MERGED" 1000] = [] := by
      simp [writesAt, GraphMutation.statesAt, lifecycleCall, EntityState.key, hkey]
    rw [hnone]
    trivial

/-- Merged and closed at one moment: one store keeps the more final value, the other the later one. -/
theorem closed_overwrites_merged : ¬ SameStates
    (memoryAfter [lifecycleCall "m" "MERGED" 1000, lifecycleCall "c" "CLOSED" 1000])
    (crdbAfter DateTime.truncMicros
      [lifecycleCall "m" "MERGED" 1000, lifecycleCall "c" "CLOSED" 1000]) := by
  intro hsame
  have hpr := hsame ("t", "pr:1", "lifecycle")
  revert hpr
  decide

end AiManager.Graph
