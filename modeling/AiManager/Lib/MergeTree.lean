import Mathlib.Data.List.Induction
import Mathlib.Data.List.Nodup
import Mathlib.Data.Prod.Lex

/-! # A table that replaces rows when it is merged

Every insert adds a row. A merge, which comes at any time or not at all, drops a row that another one of
the same key outranks: one of a higher version, or of the same version and inserted later. A table can
so be in many states; `MergeState` says in which. -/

namespace AiManager.Lib

/-- A row and the number of its insertion. -/
structure StoredRow (α : Type) where
  row : α
  number : ℕ

namespace MergeTree

section MergeTree
variable {α κ : Type} (key : α → κ) (version : α → ℕ)

/-- What a row is replaced by is higher in this order. -/
def rank (a : α) (number : ℕ) : ℕ ×ₗ ℕ := toLex (version a, number)

inductive MergeState : List α → List (StoredRow α) → Prop
  | new : MergeState [] []
  | insert {rows table} (a : α) : MergeState rows table →
      MergeState (rows ++ [a]) (table ++ [⟨a, rows.length⟩])
  | merge {rows before s after} (t : StoredRow α) : MergeState rows (before ++ s :: after) →
      t ∈ before ++ after → key t.row = key s.row →
      rank version s.row s.number < rank version t.row t.number → MergeState rows (before ++ after)

variable {key version} {rows : List α} {table : List (StoredRow α)} {a : α}

/-- A stored row was inserted, at the place that its number says. -/
theorem MergeState.origin (h : MergeState key version rows table) :
    ∀ s ∈ table, rows[s.number]? = some s.row := by
  induction h with
  | new => exact List.forall_mem_nil _
  | @insert rows table a _ ih =>
    intro s hs
    rcases List.mem_append.mp hs with hold | hnew
    · have hrow := ih s hold
      rw [List.getElem?_append_left (List.getElem?_eq_some_iff.mp hrow).1]
      exact hrow
    · rw [List.mem_singleton.mp hnew]
      simp
  | @merge rows before s after t _ _ _ _ ih =>
    intro u hu
    refine ih u ?_
    rcases List.mem_append.mp hu with hu | hu
    · exact List.mem_append_left _ hu
    · exact List.mem_append_right _ (List.mem_cons_of_mem _ hu)

theorem MergeState.nodup (h : MergeState key version rows table) :
    (table.map StoredRow.number).Nodup := by
  induction h with
  | new => exact List.nodup_nil
  | @insert rows table a hold ih =>
    rw [List.map_append, List.map_singleton]
    refine List.nodup_append.mpr ⟨ih, List.nodup_singleton _, ?_⟩
    intro n hn m hm hnm
    obtain ⟨s, hs, rfl⟩ := List.mem_map.mp hn
    rw [List.mem_singleton.mp hm] at hnm
    have hlt := (List.getElem?_eq_some_iff.mp (hold.origin s hs)).1
    exact absurd hnm (Nat.ne_of_lt hlt)
  | merge t _ _ _ _ ih =>
    refine ih.sublist (List.Sublist.map _ ?_)
    exact List.Sublist.append_left (List.sublist_cons_self _ _) _

/-- A row that no other outranks is never dropped. -/
theorem MergeState.top (h : MergeState key version rows table) {i : ℕ} (hi : rows[i]? = some a)
    (htop : ∀ j b, rows[j]? = some b → key b = key a → rank version b j ≤ rank version a i) :
    ⟨a, i⟩ ∈ table := by
  induction h generalizing i a with
  | new => simp at hi
  | @insert rows table b hold ih =>
    rcases lt_or_ge i rows.length with hlt | hge
    · rw [List.getElem?_append_left hlt] at hi
      refine List.mem_append_left _ (ih hi ?_)
      intro j c hj hkey
      refine htop j c ?_ hkey
      rw [List.getElem?_append_left (List.getElem?_eq_some_iff.mp hj).1]
      exact hj
    · have hlen := (List.getElem?_eq_some_iff.mp hi).1
      rw [List.length_append, List.length_singleton] at hlen
      obtain rfl : i = rows.length := by omega
      have hab : b = a := by simpa using hi
      rw [hab]
      simp
  | @merge rows before s after t hold hmem hkey hlt ih =>
    have hin := ih hi htop
    rcases List.mem_append.mp hin with hin | hin
    · exact List.mem_append_left _ hin
    · rcases List.mem_cons.mp hin with heq | hin
      · -- the row that was dropped is outranked by `t`
        exfalso
        have hmem' : t ∈ before ++ s :: after := by
          rcases List.mem_append.mp hmem with ht | ht
          · exact List.mem_append_left _ ht
          · exact List.mem_append_right _ (List.mem_cons_of_mem _ ht)
        subst heq
        exact absurd (htop t.number t.row (hold.origin t hmem') hkey) hlt.not_ge
      · exact List.mem_append_right _ hin

theorem MergeState.split (h : MergeState key version rows table) {s : StoredRow α} (hs : s ∈ table) :
    ∃ xs ys, rows = xs ++ s.row :: ys ∧ xs.length = s.number := by
  obtain ⟨hlt, hrow⟩ := List.getElem?_eq_some_iff.mp (h.origin s hs)
  refine ⟨rows.take s.number, rows.drop (s.number + 1), ?_, List.length_take_of_le hlt.le⟩
  rw [← hrow, List.getElem_cons_drop, List.take_append_drop]

/-- A row stays that no earlier one of a higher version outranks, and no later one of the same. -/
theorem MergeState.kept {xs ys : List α} (h : MergeState key version (xs ++ a :: ys) table)
    (hxs : ∀ x ∈ xs, key x = key a → version x ≤ version a)
    (hys : ∀ y ∈ ys, key y = key a → version y < version a) : ⟨a, xs.length⟩ ∈ table := by
  refine h.top (by simp) ?_
  intro j b hj hkey
  rw [rank, rank, Prod.Lex.toLex_le_toLex]
  rcases lt_trichotomy j xs.length with hlt | rfl | hgt
  · rw [List.getElem?_append_left hlt] at hj
    rcases lt_or_eq_of_le (hxs b (List.mem_of_getElem? hj) hkey) with hv | hv
    · exact .inl hv
    · exact .inr ⟨hv, hlt.le⟩
  · have hba : a = b := by simpa using hj
    rw [hba]
    exact .inr ⟨rfl, le_rfl⟩
  · obtain ⟨n, rfl⟩ := Nat.exists_eq_add_of_lt hgt
    have hb : b ∈ ys := by
      rw [List.getElem?_append_right (by omega)] at hj
      rw [show xs.length + n + 1 - xs.length = n + 1 by omega, List.getElem?_cons_succ] at hj
      exact List.mem_of_getElem? hj
    exact .inl (hys b hb hkey)

/-- The table before any merge. -/
def unmerged (rows : List α) : List (StoredRow α) :=
  rows.zipIdx.map fun p => ⟨p.1, p.2⟩

theorem mergeState_unmerged (rows : List α) : MergeState key version rows (unmerged rows) := by
  induction rows using List.reverseRecOn with
  | nil => exact .new
  | append_singleton rows a ih =>
    have hstep : unmerged (rows ++ [a]) = unmerged rows ++ [⟨a, rows.length⟩] := by
      simp [unmerged, List.zipIdx_append]
    rw [hstep]
    exact .insert a ih

/-- A merge that drops one row, for an earlier one of a higher version. -/
theorem exists_mergeState_without {xs ys : List α} {a b : α} (hb : b ∈ xs) (hkey : key b = key a)
    (hlt : version a < version b) :
    ∃ table, MergeState key version (xs ++ a :: ys) table ∧ table.map StoredRow.row = xs ++ ys := by
  have hsplit : unmerged (xs ++ a :: ys) = unmerged xs ++ ⟨a, xs.length⟩ ::
      (ys.zipIdx (xs.length + 1)).map fun p => ⟨p.1, p.2⟩ := by
    simp [unmerged, List.zipIdx_append]
  obtain ⟨n, hn⟩ := List.mem_iff_getElem?.mp hb
  have hmem : (⟨b, n⟩ : StoredRow α) ∈ unmerged xs :=
    List.mem_map.mpr ⟨(b, n), List.mem_zipIdx_iff_getElem?.mpr hn, rfl⟩
  have hstate : MergeState key version (xs ++ a :: ys) (unmerged (xs ++ a :: ys)) :=
    mergeState_unmerged _
  rw [hsplit] at hstate
  refine ⟨_, .merge ⟨b, n⟩ hstate (List.mem_append_left _ hmem) hkey ?_, ?_⟩
  · exact Prod.Lex.toLex_lt_toLex.mpr (.inl hlt)
  · have hafter : ((ys.zipIdx (xs.length + 1)).map fun p => (⟨p.1, p.2⟩ : StoredRow α)).map
        StoredRow.row = ys := by
      rw [List.map_map]
      exact List.zipIdx_map_fst _ ys
    rw [List.map_append, hafter]
    unfold unmerged
    rw [List.map_map]
    exact congrArg (· ++ ys) (List.zipIdx_map_fst 0 xs)

theorem map_row_unmerged (rows : List α) : (unmerged rows).map StoredRow.row = rows := by
  unfold unmerged
  rw [List.map_map]
  exact List.zipIdx_map_fst 0 rows

end MergeTree

end MergeTree

end AiManager.Lib
