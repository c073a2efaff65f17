import Mathlib.Data.List.Sort
import AiManager.Lib.Multimap

/-! # Stand-ins

Members of a list that are of one class are shown as one: the first of them in some order stays, and the ids of the
others lead to it. What stands for a member then depends on its class only, and two members are shown as one just if
they are the same or of one class (`standIn_eq_iff`), in whatever order the classes were gone through. -/

namespace AiManager.Lib

section Rebuild
variable {K V : Type} [DecidableEq K]

/-- Entries inserted one after the other. -/
def inserted (es : List (K × V)) : KMap K V := rebuild (fun _ => true) es

variable {es : List (K × V)} {k : K} {v : V}

theorem mem_of_get_inserted (h : (inserted es).get k = some v) : (k, v) ∈ es := by
  rw [inserted, get_rebuild, if_pos rfl] at h
  obtain ⟨e, he, rfl⟩ := List.mem_map.mp (List.mem_of_getLast? h)
  obtain ⟨he, hk⟩ := List.mem_filter.mp he
  rw [← of_decide_eq_true hk]
  exact he

theorem exists_get_inserted (h : (k, v) ∈ es) : ∃ v', (inserted es).get k = some v' := by
  rw [inserted, get_rebuild, if_pos rfl, ← Option.isSome_iff_exists, List.getLast?_isSome]
  exact List.ne_nil_of_mem (List.mem_map_of_mem (List.mem_filter.mpr ⟨h, decide_eq_true rfl⟩))

/-- A key that is entered with one value only has that value. -/
theorem get_inserted (h : (k, v) ∈ es) (hone : ∀ v', (k, v') ∈ es → v' = v) : (inserted es).get k = some v := by
  obtain ⟨v', hv'⟩ := exists_get_inserted h
  rw [hv', hone v' (mem_of_get_inserted hv')]

theorem get_inserted_eq_none : (inserted es).get k = none ↔ ∀ v, (k, v) ∉ es := by
  refine ⟨fun h v hv => ?_, fun h => ?_⟩
  · obtain ⟨v', hv'⟩ := exists_get_inserted hv
    rw [h] at hv'
    cases hv'
  · cases hget : (inserted es).get k with
    | none => rfl
    | some v => exact absurd (mem_of_get_inserted hget) (h v)

end Rebuild

/-! ## One class after the other -/

section StandIns
variable {α I L : Type} [DecidableEq I] [DecidableEq L] (r : α → α → Prop) [DecidableRel r] (id : α → I)
  (cls : α → Option L)

/-- The others of a group lead to its first. -/
def groupEntries (group : List α) : List (I × I) :=
  if group.length ≤ 1 then []
  else
    match group.insertionSort r with
    | [] => []
    | first :: rest => rest.map fun x => (id x, id first)

/-- The members of a class, in the order of the list. -/
def classOf (ns : List α) (l : L) : List α := ns.filter fun x => cls x = some l

/-- The entries of the classes with these labels. -/
def standIns (labels : List L) (ns : List α) : KMap I I :=
  inserted (labels.flatMap fun l => groupEntries r id (classOf cls ns l))

/-- What is shown for an id. -/
def standIn (m : KMap I I) (i : I) : I := (m.get i).getD i

variable {r id cls} {labels : List L} {ns : List α} {l : L} {x y : α}

theorem mem_classOf : x ∈ classOf cls ns l ↔ x ∈ ns ∧ cls x = some l := by
  rw [classOf, List.mem_filter, decide_eq_true_eq]

omit [DecidableEq I] in
theorem mem_groupEntries {group : List α} {e : I × I} : e ∈ groupEntries r id group ↔
    ∃ first rest, group.insertionSort r = first :: rest ∧ ∃ x ∈ rest, e = (id x, id first) := by
  unfold groupEntries
  have hlength : (group.insertionSort r).length = group.length := List.length_insertionSort r group
  split_ifs with hone
  · refine iff_of_false List.not_mem_nil ?_
    rintro ⟨first, rest, hsort, x, hx, -⟩
    rw [hsort, List.length_cons] at hlength
    have hrest := List.length_pos_of_mem hx
    omega
  · cases hsort : group.insertionSort r with
    | nil => simp
    | cons first rest =>
      simp only [List.mem_map, List.cons.injEq]
      constructor
      · rintro ⟨x, hx, rfl⟩
        exact ⟨first, rest, ⟨rfl, rfl⟩, x, hx, rfl⟩
      · rintro ⟨_, _, ⟨rfl, rfl⟩, x, hx, rfl⟩
        exact ⟨x, hx, rfl⟩

/-- The first of its class. -/
def Leads (r : α → α → Prop) [DecidableRel r] (cls : α → Option L) (ns : List α) (l : L) (y : α) : Prop :=
  ((classOf cls ns l).insertionSort r).head? = some y

theorem Leads.mem (h : Leads r cls ns l y) : y ∈ ns ∧ cls y = some l :=
  mem_classOf.mp ((List.mem_insertionSort r).mp (List.mem_of_head? h))

theorem exists_leads (hx : x ∈ ns) (hl : cls x = some l) : ∃ y, Leads r cls ns l y := by
  refine Option.isSome_iff_exists.mp (List.isSome_head?.mpr ?_)
  exact List.ne_nil_of_mem ((List.mem_insertionSort r).mpr (mem_classOf.mpr ⟨hx, hl⟩))

/-- Nothing of its class comes before it. -/
theorem Leads.first [Std.Total r] [IsTrans α r] (h : Leads r cls ns l y) (hx : x ∈ ns) (hl : cls x = some l) :
    x = y ∨ r y x := by
  have hmem : x ∈ (classOf cls ns l).insertionSort r := (List.mem_insertionSort r).mpr (mem_classOf.mpr ⟨hx, hl⟩)
  have hsorted := List.pairwise_insertionSort r (classOf cls ns l)
  unfold Leads at h
  cases hsort : (classOf cls ns l).insertionSort r with
  | nil =>
    rw [hsort] at h
    cases h
  | cons first rest =>
    rw [hsort] at h hmem hsorted
    cases h
    exact (List.mem_cons.mp hmem).imp_right (List.rel_of_pairwise_cons hsorted)

variable (hids : (ns.map id).Nodup) (hlabels : ∀ x ∈ ns, ∀ l, cls x = some l → l ∈ labels)
include hids

omit [DecidableEq I] [DecidableEq L] in
theorem id_inj (hx : x ∈ ns) (hy : y ∈ ns) (h : id x = id y) : x = y := List.inj_on_of_nodup_map hids hx hy h

omit [DecidableEq I] in
theorem mem_entries {i j : I} : (i, j) ∈ labels.flatMap (fun l => groupEntries r id (classOf cls ns l)) ↔
    ∃ l ∈ labels, ∃ y, Leads r cls ns l y ∧ j = id y ∧ ∃ x ∈ ns, cls x = some l ∧ x ≠ y ∧ i = id x := by
  rw [List.mem_flatMap]
  refine exists_congr fun l => and_congr_right fun _ => ?_
  rw [mem_groupEntries]
  constructor
  · rintro ⟨first, rest, hsort, x, hx, he⟩
    obtain ⟨rfl, rfl⟩ := Prod.mk.inj he
    have hleads : Leads r cls ns l first := by rw [Leads, hsort, List.head?_cons]
    have hmem : x ∈ (classOf cls ns l).insertionSort r := hsort ▸ List.mem_cons_of_mem first hx
    obtain ⟨hns, hl⟩ := mem_classOf.mp ((List.mem_insertionSort r).mp hmem)
    refine ⟨first, hleads, rfl, x, hns, hl, ?_, rfl⟩
    rintro rfl
    have hnodup : ((classOf cls ns l).insertionSort r).Nodup :=
      (List.perm_insertionSort r _).nodup_iff.mpr ((hids.of_map _).filter _)
    rw [hsort] at hnodup
    exact (List.nodup_cons.mp hnodup).1 hx
  · rintro ⟨y, hleads, rfl, x, hns, hl, hne, rfl⟩
    have hmem : x ∈ (classOf cls ns l).insertionSort r := (List.mem_insertionSort r).mpr (mem_classOf.mpr ⟨hns, hl⟩)
    unfold Leads at hleads
    cases hsort : (classOf cls ns l).insertionSort r with
    | nil =>
      rw [hsort] at hleads
      cases hleads
    | cons first rest =>
      rw [hsort] at hleads hmem
      cases hleads
      exact ⟨y, rest, rfl, x, (List.mem_cons.mp hmem).resolve_left hne, rfl⟩

/-- What is no id of a member of a class stands for itself. -/
theorem standIn_of_not_class {i : I} (h : ∀ x ∈ ns, id x = i → cls x = none) :
    standIn (standIns r id cls labels ns) i = i := by
  have hnone : (standIns r id cls labels ns).get i = none := by
    refine get_inserted_eq_none.mpr fun j hj => ?_
    obtain ⟨l, -, y, -, -, x, hx, hl, -, rfl⟩ := (mem_entries hids).mp hj
    rw [h x hx rfl] at hl
    cases hl
  rw [standIn, hnone, Option.getD_none]

theorem standIn_eq_self (hx : x ∈ ns) (hl : cls x = none) : standIn (standIns r id cls labels ns) (id x) = id x :=
  standIn_of_not_class hids fun x' hx' hid => by rw [id_inj hids hx' hx hid, hl]

include hlabels

theorem get_standIns (hy : Leads r cls ns l y) (hx : x ∈ ns) (hl : cls x = some l) :
    (standIns r id cls labels ns).get (id x) = if id x = id y then none else some (id y) := by
  -- another entry of the id would be one of the same member, so of the same class
  have hone : ∀ j, (id x, j) ∈ labels.flatMap (fun l => groupEntries r id (classOf cls ns l)) → x ≠ y ∧ j = id y := by
    intro j hj
    obtain ⟨l', -, y', hy', rfl, x', hx', hl', hne, hid⟩ := (mem_entries hids).mp hj
    obtain rfl := id_inj hids hx hx' hid
    rw [hl] at hl'
    cases hl'
    unfold Leads at hy hy'
    rw [hy] at hy'
    cases hy'
    exact ⟨hne, rfl⟩
  split_ifs with heq
  · exact get_inserted_eq_none.mpr fun j hj => (hone j hj).1 (id_inj hids hx hy.mem.1 heq)
  · exact get_inserted ((mem_entries hids).mpr ⟨l, hlabels x hx l hl, y, hy, rfl, x, hx, hl,
      fun h => heq (congrArg id h), rfl⟩) fun j hj => (hone j hj).2

/-- The first of a class stands for all of it. -/
theorem standIn_of_class (hy : Leads r cls ns l y) (hx : x ∈ ns) (hl : cls x = some l) :
    standIn (standIns r id cls labels ns) (id x) = id y := by
  rw [standIn, get_standIns hids hlabels hy hx hl]
  split_ifs with heq
  · exact heq
  · rfl

/-- A member leads to a member that stands for itself. -/
theorem exists_standIn (hx : x ∈ ns) : ∃ y ∈ ns, standIn (standIns r id cls labels ns) (id x) = id y ∧
    standIn (standIns r id cls labels ns) (id y) = id y ∧
      (x = y ∨ ∃ l, cls x = some l ∧ cls y = some l ∧ Leads r cls ns l y) := by
  cases hl : cls x with
  | none =>
    have hself : standIn (standIns r id cls labels ns) (id x) = id x := standIn_eq_self hids hx hl
    exact ⟨x, hx, hself, hself, .inl rfl⟩
  | some l =>
    obtain ⟨y, hy⟩ := exists_leads (r := r) hx hl
    exact ⟨y, hy.mem.1, standIn_of_class hids hlabels hy hx hl, standIn_of_class hids hlabels hy hy.mem.1 hy.mem.2,
      .inr ⟨l, rfl, hy.mem.2, hy⟩⟩

/-- Two members are shown as one just if they are the same or of one class. -/
theorem standIn_eq_iff (hx : x ∈ ns) (hy : y ∈ ns) :
    standIn (standIns r id cls labels ns) (id x) = standIn (standIns r id cls labels ns) (id y) ↔
      x = y ∨ ∃ l, cls x = some l ∧ cls y = some l := by
  constructor
  · intro h
    obtain ⟨x', hx', hleft, -, hclass⟩ := exists_standIn (r := r) hids hlabels hx
    obtain ⟨y', hy', hright, -, hclass'⟩ := exists_standIn (r := r) hids hlabels hy
    rw [hleft, hright] at h
    obtain rfl := id_inj hids hx' hy' h
    rcases hclass with rfl | ⟨l, hl, hl', -⟩
    · rcases hclass' with rfl | ⟨l, hl, hl', -⟩
      · exact .inl rfl
      · exact .inr ⟨l, hl', hl⟩
    · rcases hclass' with rfl | ⟨l', hl₂, hl₂', -⟩
      · exact .inr ⟨l, hl, hl'⟩
      · rw [hl'] at hl₂'
        cases hl₂'
        exact .inr ⟨l, hl, hl₂⟩
  · rintro (rfl | ⟨l, hl, hl'⟩)
    · rfl
    · obtain ⟨z, hz⟩ := exists_leads (r := r) hx hl
      rw [standIn_of_class hids hlabels hz hx hl, standIn_of_class hids hlabels hz hy hl']

/-- A member is led elsewhere just if it does not stand for itself. -/
theorem has_standIns_iff (hx : x ∈ ns) : (standIns r id cls labels ns).has (id x) = true ↔
    standIn (standIns r id cls labels ns) (id x) ≠ id x := by
  cases hl : cls x with
  | none =>
    have hself : standIn (standIns r id cls labels ns) (id x) = id x := standIn_eq_self hids hx hl
    refine iff_of_false (fun hhas => ?_) (not_not_intro hself)
    obtain ⟨j, hj⟩ := KMap.has_iff.mp hhas
    obtain ⟨l, -, y, -, -, x', hx', hl', -, hid⟩ := (mem_entries hids).mp (mem_of_get_inserted hj)
    rw [← id_inj hids hx hx' hid, hl] at hl'
    cases hl'
  | some l =>
    obtain ⟨y, hy⟩ := exists_leads (r := r) hx hl
    rw [KMap.has, get_standIns hids hlabels hy hx hl, standIn_of_class hids hlabels hy hx hl]
    split_ifs with heq
    · exact iff_of_false Bool.false_ne_true (not_not_intro heq.symm)
    · exact iff_of_true rfl fun hid => heq hid.symm

end StandIns

end AiManager.Lib
