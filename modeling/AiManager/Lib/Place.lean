import Mathlib.Data.List.Basic
import Mathlib.Data.List.Nodup

/-! # Replace in place or append

A list that is kept like a map: a row takes the place of the row with its key, or comes to the end if
there is none. Where the row that is there stays, only a row with a new key comes to the end. -/

namespace AiManager.Lib

section Place
variable {α κ : Type} [DecidableEq κ] (key : α → κ)

def placeBy (x : α) : List α → List α
  | [] => [x]
  | y :: ys => if key y = key x then x :: ys else y :: placeBy x ys

variable {key} {x y : α} {l : List α}

theorem placeBy_of_notMem (h : key x ∉ l.map key) : placeBy key x l = l ++ [x] := by
  induction l with
  | nil => rfl
  | cons z zs ih =>
    rw [List.map_cons, List.mem_cons, not_or] at h
    have hz : ¬ key z = key x := fun hzx => h.1 hzx.symm
    show (if key z = key x then x :: zs else z :: placeBy key x zs) = _
    rw [if_neg hz, ih h.2]
    rfl

theorem map_placeBy_of_mem (h : key x ∈ l.map key) : (placeBy key x l).map key = l.map key := by
  induction l with
  | nil => cases h
  | cons z zs ih =>
    show (if key z = key x then x :: zs else z :: placeBy key x zs).map key = _
    split_ifs with hz
    · rw [List.map_cons, List.map_cons, hz]
    · rw [List.map_cons, List.map_cons, ih]
      exact (List.mem_cons.mp h).resolve_left fun hxz => hz hxz.symm

omit [DecidableEq κ] in
theorem nodup_map_concat (h : (l.map key).Nodup) (hx : key x ∉ l.map key) : ((l ++ [x]).map key).Nodup := by
  rw [List.map_append, List.map_singleton]
  refine List.nodup_append.mpr ⟨h, List.nodup_singleton _, ?_⟩
  intro a ha b hb hab
  rw [List.mem_singleton.mp hb] at hab
  exact hx (hab ▸ ha)

/-- No key becomes double. -/
theorem nodup_placeBy (h : (l.map key).Nodup) : ((placeBy key x l).map key).Nodup := by
  by_cases hx : key x ∈ l.map key
  · rwa [map_placeBy_of_mem hx]
  · rw [placeBy_of_notMem hx]
    exact nodup_map_concat h hx

theorem mem_placeBy (h : (l.map key).Nodup) :
    y ∈ placeBy key x l ↔ y = x ∨ (y ∈ l ∧ key y ≠ key x) := by
  induction l with
  | nil => simp [placeBy]
  | cons z zs ih =>
    obtain ⟨hz, hzs⟩ := List.nodup_cons.mp h
    show y ∈ (if key z = key x then x :: zs else z :: placeBy key x zs) ↔ _
    split_ifs with hzx
    · -- no row after it has this key
      have hrest : ∀ w ∈ zs, key w ≠ key x := by
        intro w hw hwx
        exact hz (List.mem_map.mpr ⟨w, hw, hwx.trans hzx.symm⟩)
      constructor
      · intro hy
        rcases List.mem_cons.mp hy with rfl | hy
        · exact .inl rfl
        · exact .inr ⟨List.mem_cons_of_mem _ hy, hrest y hy⟩
      · rintro (rfl | ⟨hy, hne⟩)
        · exact List.mem_cons_self
        · rcases List.mem_cons.mp hy with rfl | hy
          · exact absurd hzx hne
          · exact List.mem_cons_of_mem _ hy
    · rw [List.mem_cons, ih hzs, List.mem_cons]
      constructor
      · rintro (rfl | rfl | ⟨hy, hne⟩)
        · exact .inr ⟨.inl rfl, hzx⟩
        · exact .inl rfl
        · exact .inr ⟨.inr hy, hne⟩
      · rintro (rfl | ⟨rfl | hy, hne⟩)
        · exact .inr (.inl rfl)
        · exact .inl rfl
        · exact .inr (.inr ⟨hy, hne⟩)

theorem mem_of_mem_placeBy (h : y ∈ placeBy key x l) : y = x ∨ y ∈ l := by
  induction l with
  | nil => exact .inl (List.mem_singleton.mp h)
  | cons z zs ih =>
    change y ∈ (if key z = key x then x :: zs else z :: placeBy key x zs) at h
    split_ifs at h
    · exact (List.mem_cons.mp h).imp_right (List.mem_cons_of_mem z)
    · rcases List.mem_cons.mp h with rfl | hrest
      · exact .inr List.mem_cons_self
      · exact (ih hrest).imp_right (List.mem_cons_of_mem z)

theorem self_mem_placeBy : x ∈ placeBy key x l := by
  induction l with
  | nil => exact List.mem_singleton_self x
  | cons z zs ih =>
    show x ∈ (if key z = key x then x :: zs else z :: placeBy key x zs)
    split_ifs
    · exact List.mem_cons_self
    · exact List.mem_cons_of_mem _ ih

end Place

section Add
variable {α κ : Type} [DecidableEq κ] (key : α → κ)

def addBy (l : List α) (x : α) : List α := if key x ∈ l.map key then l else l ++ [x]

variable {key} {x y : α} {l xs all : List α}

theorem nodup_addBy (h : (l.map key).Nodup) : ((addBy key l x).map key).Nodup := by
  unfold addBy
  split_ifs with hx
  · exact h
  · exact nodup_map_concat h hx

theorem nodup_foldl_addBy (h : (l.map key).Nodup) : ((xs.foldl (addBy key) l).map key).Nodup := by
  induction xs generalizing l with
  | nil => exact h
  | cons x xs ih => exact ih (nodup_addBy h)

/-- Among rows without a double key, the row that is there is the one that was to be added. -/
theorem mem_addBy (hall : (all.map key).Nodup) (hl : l ⊆ all) (hx : x ∈ all) : y ∈ addBy key l x ↔ y ∈ l ∨ y = x := by
  unfold addBy
  split_ifs with hkey
  · obtain ⟨z, hz, hzx⟩ := List.mem_map.mp hkey
    have hmem : x ∈ l := List.inj_on_of_nodup_map hall (hl hz) hx hzx ▸ hz
    exact ⟨.inl, fun h => h.elim id fun hyx => hyx ▸ hmem⟩
  · rw [List.mem_append, List.mem_singleton]

theorem mem_foldl_addBy (hall : (all.map key).Nodup) (hl : l ⊆ all) (hxs : xs ⊆ all) :
    y ∈ xs.foldl (addBy key) l ↔ y ∈ l ∨ y ∈ xs := by
  induction xs generalizing l with
  | nil => exact ⟨.inl, fun h => h.elim id fun hy => by cases hy⟩
  | cons x xs ih =>
    have hx : x ∈ all := hxs List.mem_cons_self
    have hl' : addBy key l x ⊆ all := fun z hz => ((mem_addBy hall hl hx).mp hz).elim (hl ·) fun hzx => hzx ▸ hx
    rw [List.foldl_cons, ih hl' fun z hz => hxs (List.mem_cons_of_mem _ hz), mem_addBy hall hl hx, List.mem_cons, or_assoc]

/-- Of the rows of one key the first is added. -/
theorem mem_foldl_addBy_iff : y ∈ xs.foldl (addBy key) l ↔
    y ∈ l ∨ (key y ∉ l.map key ∧ xs.find? (fun x => key x = key y) = some y) := by
  induction xs generalizing l with
  | nil => simp
  | cons x xs ih =>
    rw [List.foldl_cons, ih]
    unfold addBy
    by_cases hx : key x ∈ l.map key
    · have hne : key y ∉ l.map key → ¬ key x = key y := fun hy hxy => hy (hxy ▸ hx)
      rw [if_pos hx]
      refine or_congr_right (and_congr_right fun hy => ?_)
      rw [List.find?_cons_of_neg (by simpa using hne hy)]
    · rw [if_neg hx, List.mem_append, List.mem_singleton, List.map_append, List.map_singleton, List.mem_append,
        List.mem_singleton, not_or, or_assoc]
      refine or_congr_right ?_
      by_cases hxy : key x = key y
      · rw [List.find?_cons_of_pos (by simpa using hxy)]
        constructor
        · rintro (rfl | ⟨⟨-, hne⟩, -⟩)
          · exact ⟨hx, rfl⟩
          · exact absurd hxy.symm hne
        · exact fun h => .inl (Option.some.inj h.2).symm
      · rw [List.find?_cons_of_neg (by simpa using hxy)]
        constructor
        · rintro (rfl | ⟨⟨hy, -⟩, hfind⟩)
          · exact absurd rfl hxy
          · exact ⟨hy, hfind⟩
        · exact fun h => .inr ⟨⟨h.1, fun heq => hxy heq.symm⟩, h.2⟩

end Add

end AiManager.Lib
