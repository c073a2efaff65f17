import Mathlib.Data.List.Induction
import AiManager.Lib.KMap

/-! # Multimaps

Entries in order, where a key may have several values. One that is rebuilt entry by entry with `insert` keeps the last
value of every key. -/

namespace AiManager.Lib

variable {K V : Type} [DecidableEq K]

/-- The values of a key, in order. -/
def valuesOf (k : K) (es : List (K × V)) : List V := (es.filter fun e => e.1 = k).map (·.2)

/-- The entries with these keys, each inserted into a map. -/
def rebuild (keep : K → Bool) (es : List (K × V)) : KMap K V :=
  es.foldl (fun acc e => if keep e.1 then acc.put e.1 e.2 else acc) ∅

section Values
variable {k : K} {keep : K → Bool}

theorem valuesOf_append (k : K) (es es' : List (K × V)) : valuesOf k (es ++ es') = valuesOf k es ++ valuesOf k es' := by
  unfold valuesOf
  rw [List.filter_append, List.map_append]

private theorem valuesOf_entries {entries : List (Sigma fun _ : K => V)} (hkeys : entries.NodupKeys) :
    valuesOf k (entries.map fun e => (e.1, e.2)) = (entries.dlookup k).toList := by
  induction entries with
  | nil => rfl
  | cons e es ih =>
    obtain ⟨k', v⟩ := e
    obtain ⟨hk', hes⟩ := List.nodupKeys_cons.mp hkeys
    rw [List.map_cons, ← List.singleton_append, valuesOf_append, ih hes]
    by_cases hkk : k' = k
    · subst hkk
      rw [List.dlookup_cons_eq, List.dlookup_eq_none.mpr hk']
      simp [valuesOf]
    · rw [List.dlookup_cons_ne _ _ (Ne.symm hkk)]
      simp [valuesOf, hkk]

/-- A map has at most one value of a key. -/
theorem valuesOf_items (m : KMap K V) (k : K) : valuesOf k m.items = (m.get k).toList := valuesOf_entries m.nodupKeys

theorem rebuild_singleton (keep : K → Bool) (k : K) (h : keep k = true) (v : V) :
    (rebuild keep [(k, v)]).items = [(k, v)] := by
  unfold rebuild
  rw [List.foldl_cons, if_pos h]
  rfl

theorem get_rebuild (es : List (K × V)) (k : K) :
    (rebuild keep es).get k = if keep k then (valuesOf k es).getLast? else none := by
  induction es using List.reverseRecOn with
  | nil =>
    rw [rebuild, List.foldl_nil, KMap.get_empty]
    exact (ite_self none).symm
  | append_singleton es e ih =>
    have hstep : rebuild keep (es ++ [e]) = if keep e.1 then (rebuild keep es).put e.1 e.2 else rebuild keep es := by
      rw [rebuild, List.foldl_append]
      rfl
    rw [hstep, valuesOf_append]
    by_cases he : e.1 = k
    · subst he
      have hlast : valuesOf e.1 [e] = [e.2] := by simp [valuesOf]
      -- `insert` replaces: the values that came before are gone
      rw [hlast, List.getLast?_append_of_ne_nil _ (List.cons_ne_nil _ _)]
      cases hkeep : keep e.1 with
      | true => exact KMap.get_put_self _ _ _
      | false =>
        rw [hkeep] at ih
        exact ih
    · have hnone : valuesOf k [e] = [] := by simp [valuesOf, he]
      rw [hnone, List.append_nil, ← ih]
      split
      · exact KMap.get_put_ne _ _ fun h => he h.symm
      · rfl

theorem toList_getLast?_eq_iff {l : List V} : l.getLast?.toList = l ↔ l.length ≤ 1 := by
  cases l with
  | nil => simp
  | cons v l =>
    cases l with
    | nil => simp
    | cons w l =>
      rw [List.getLast?_eq_some_getLast (List.cons_ne_nil _ _)]
      simp

/-- All values of a key are kept just if there is at most one. -/
theorem valuesOf_rebuild_iff {es : List (K × V)} (hkeep : keep k = true) :
    valuesOf k (rebuild keep es).items = valuesOf k es ↔ (valuesOf k es).length ≤ 1 := by
  rw [valuesOf_items, get_rebuild, if_pos hkeep]
  exact toList_getLast?_eq_iff

/-- Another key that is inserted changes nothing. -/
theorem valuesOf_put_ne (m : KMap K V) {k' : K} (v : V) (h : k ≠ k') :
    valuesOf k (m.put k' v).items = valuesOf k m.items := by
  rw [valuesOf_items, valuesOf_items, KMap.get_put_ne m v h]

end Values

end AiManager.Lib
