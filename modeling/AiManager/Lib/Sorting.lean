import Mathlib.Data.Finset.Card
import Mathlib.Data.Finset.Sort
import Mathlib.Data.List.Destutter
import Mathlib.Data.List.Sort
import Mathlib.Data.String.Basic

/-! # Stable sorting and limits

A list is sorted by a total preorder and cut off. Two facts about that: which rows come within the
limit, said of the list before it is sorted (`mem_take_insertionSort`), and that the result does not
depend on the order the rows were in if the key tells them apart (`insertionSort_congr`). -/

namespace AiManager.Lib

open List

variable {α : Type} (r : α → α → Prop) [DecidableRel r]

/-- How many rows a stable sort puts before the row `e` of `xs ++ e :: ys`: those before it that may
stay there, and those after it that must come first. -/
def rowsBefore (xs : List α) (e : α) (ys : List α) : ℕ :=
  xs.countP (fun b => r b e) + ys.countP fun b => ¬ r e b

variable {r}

section Sorted
variable [IsTrans α r]

/-- In a sorted list, the rows that must come before `a` are a prefix. -/
theorem lt_length_takeWhile_iff {s : List α} (hs : s.Pairwise r) (a : α) {k : ℕ} {e : α}
    (he : s[k]? = some e) : k < (s.takeWhile fun b => ¬ r a b).length ↔ ¬ r a e := by
  induction s generalizing k with
  | nil => simp at he
  | cons x xs ih =>
    obtain ⟨hx, hxs⟩ := List.pairwise_cons.mp hs
    by_cases hax : r a x
    · have hae : r a e := by
        cases k with
        | zero =>
          obtain rfl : x = e := by simpa using he
          exact hax
        | succ k => exact IsTrans.trans _ _ _ hax (hx e (List.mem_of_getElem? he))
      simp [hax, hae]
    · cases k with
      | zero =>
        obtain rfl : x = e := by simpa using he
        simp [hax]
      | succ k =>
        have hk := ih hxs (k := k) (by simpa using he)
        simpa [hax] using hk

/-- In a sorted list, the rows that may stand before `e` are a prefix. -/
theorem not_rel_of_mem_dropWhile {s : List α} (hs : s.Pairwise r) (e : α) {b : α}
    (hb : b ∈ s.dropWhile fun b => r b e) : ¬ r b e := by
  induction s with
  | nil => cases hb
  | cons x xs ih =>
    obtain ⟨hx, hxs⟩ := List.pairwise_cons.mp hs
    by_cases hxe : r x e
    · rw [List.dropWhile_cons_of_pos (by simpa using hxe)] at hb
      exact ih hxs hb
    · rw [List.dropWhile_cons_of_neg (by simpa using hxe)] at hb
      rcases List.mem_cons.mp hb with rfl | hb
      · exact hxe
      · exact fun hbe => hxe (IsTrans.trans _ _ _ (hx b hb) hbe)

theorem length_takeWhile_eq_countP {s : List α} (hs : s.Pairwise r) (a : α) :
    (s.takeWhile fun b => ¬ r a b).length = s.countP fun b => ¬ r a b := by
  induction s with
  | nil => rfl
  | cons x xs ih =>
    obtain ⟨hx, hxs⟩ := List.pairwise_cons.mp hs
    by_cases hax : r a x
    · have hrest : xs.countP (fun b => ¬ r a b) = 0 := by
        rw [List.countP_eq_zero]
        intro b hb
        simpa using IsTrans.trans _ _ _ hax (hx b hb)
      simpa [hax] using hrest.symm
    · simpa [hax] using ih hxs

end Sorted

section Place
variable [Std.Total r] [IsTrans α r]

/-- Where the row at the head of a list comes, and what that does to the others. -/
theorem getElem?_insertionSort_cons (a : α) (l : List α) {k : ℕ} {e : α} :
    ((a :: l).insertionSort r)[k]? = some e ↔
      (k = l.countP (fun b => ¬ r a b) ∧ a = e) ∨
      ∃ j, (l.insertionSort r)[j]? = some e ∧ k = j + if r a e then 1 else 0 := by
  have hs := List.pairwise_insertionSort r l
  have hplace : ∀ j e, (l.insertionSort r)[j]? = some e →
      (j < l.countP (fun b => ¬ r a b) ↔ ¬ r a e) := by
    intro j e he
    rw [← (List.perm_insertionSort r l).countP_eq, ← length_takeWhile_eq_countP hs a]
    exact lt_length_takeWhile_iff hs a he
  have hlength := length_takeWhile_eq_countP hs a
  rw [(List.perm_insertionSort r l).countP_eq] at hlength
  have hsplit := (List.takeWhile_append_dropWhile (p := fun b => decide (¬ r a b))
    (l := l.insertionSort r)).symm
  rw [List.insertionSort_cons_eq_take_drop]
  generalize l.countP (fun b => decide (¬ r a b)) = p at hplace hlength ⊢
  generalize (l.insertionSort r).takeWhile (fun b => decide (¬ r a b)) = T at hsplit hlength ⊢
  generalize (l.insertionSort r).dropWhile (fun b => decide (¬ r a b)) = D at hsplit ⊢
  -- before the place of `a`, at it, and after it
  rcases lt_trichotomy k p with hk | hk | hk
  · have hleft : (T ++ a :: D)[k]? = (l.insertionSort r)[k]? := by
      rw [hsplit, List.getElem?_append_left (by omega), List.getElem?_append_left (by omega)]
    rw [hleft]
    constructor
    · intro he
      have hae := (hplace k e he).mp hk
      exact .inr ⟨k, he, by simp [hae]⟩
    · rintro (⟨heq, -⟩ | ⟨j, he, heq⟩)
      · omega
      · by_cases hae : r a e
        · rw [if_pos hae] at heq
          have hj := (hplace j e he).mp (by omega)
          exact absurd hae hj
        · rw [if_neg hae] at heq
          rw [heq]
          exact he
  · have hmid : (T ++ a :: D)[k]? = some a := by
      rw [List.getElem?_append_right (by omega)]
      simp [hk, hlength]
    rw [hmid]
    constructor
    · intro he
      exact .inl ⟨hk, Option.some.inj he⟩
    · rintro (⟨-, heq⟩ | ⟨j, he, heq⟩)
      · rw [heq]
      · exfalso
        by_cases hae : r a e
        · rw [if_pos hae] at heq
          exact (hplace j e he).mp (by omega) hae
        · rw [if_neg hae] at heq
          have hj := (hplace j e he).mpr hae
          omega
  · have hright : (T ++ a :: D)[k]? = (l.insertionSort r)[k - 1]? := by
      rw [hsplit, List.getElem?_append_right (by omega), List.getElem?_append_right (by omega)]
      obtain ⟨m, hm⟩ : ∃ m, k = T.length + 1 + m := ⟨k - (T.length + 1), by omega⟩
      subst hm
      rw [show T.length + 1 + m - T.length = m + 1 by omega,
        show T.length + 1 + m - 1 - T.length = m by omega]
      exact List.getElem?_cons_succ
    rw [hright]
    constructor
    · intro he
      have hae : r a e := by
        by_contra hae
        have hj := (hplace _ e he).mpr hae
        omega
      refine .inr ⟨k - 1, he, ?_⟩
      rw [if_pos hae]
      omega
    · rintro (⟨heq, -⟩ | ⟨j, he, heq⟩)
      · omega
      · have hae : r a e := by
          by_contra hae
          have hj := (hplace j e he).mpr hae
          rw [if_neg hae] at heq
          omega
        rw [if_pos hae] at heq
        rw [heq]
        exact he

/-- **Where a stable sort puts a row.** -/
theorem getElem?_insertionSort (l : List α) {k : ℕ} {e : α} :
    (l.insertionSort r)[k]? = some e ↔ ∃ xs ys, l = xs ++ e :: ys ∧ k = rowsBefore r xs e ys := by
  induction l generalizing k with
  | nil => simp
  | cons a l ih =>
    rw [getElem?_insertionSort_cons]
    constructor
    · rintro (⟨hk, rfl⟩ | ⟨j, hj, hk⟩)
      · exact ⟨[], l, rfl, by simpa [rowsBefore] using hk⟩
      · obtain ⟨xs, ys, rfl, rfl⟩ := ih.mp hj
        refine ⟨a :: xs, ys, rfl, ?_⟩
        rw [hk]
        by_cases hae : r a e
        · simp only [rowsBefore, hae, if_true, List.countP_cons, decide_true]
          omega
        · simp [rowsBefore, hae]
    · rintro ⟨xs, ys, hl, hk⟩
      cases xs with
      | nil =>
        obtain ⟨rfl, rfl⟩ := List.cons.inj hl
        exact .inl ⟨by simpa [rowsBefore] using hk, rfl⟩
      | cons x xs =>
        obtain ⟨rfl, rfl⟩ := List.cons.inj hl
        refine .inr ⟨rowsBefore r xs e ys, ih.mpr ⟨xs, ys, rfl, rfl⟩, ?_⟩
        rw [hk]
        by_cases hae : r a e
        · simp only [rowsBefore, hae, if_true, List.countP_cons, decide_true]
          omega
        · simp [rowsBefore, hae]

/-- The rows of a sorted list that come within the limit. -/
theorem mem_take_insertionSort {l : List α} {n : ℕ} {e : α} :
    e ∈ (l.insertionSort r).take n ↔
      ∃ xs ys, l = xs ++ e :: ys ∧ rowsBefore r xs e ys < n := by
  rw [List.mem_iff_getElem?]
  constructor
  · rintro ⟨k, hk⟩
    rw [List.getElem?_take] at hk
    split_ifs at hk with hkn
    obtain ⟨xs, ys, hl, rfl⟩ := (getElem?_insertionSort l).mp hk
    exact ⟨xs, ys, hl, hkn⟩
  · rintro ⟨xs, ys, hl, hn⟩
    refine ⟨rowsBefore r xs e ys, ?_⟩
    rw [List.getElem?_take, if_pos hn]
    exact (getElem?_insertionSort l).mpr ⟨xs, ys, hl, rfl⟩

/-- How many rows must come before `e`. -/
def ahead (r : α → α → Prop) [DecidableRel r] (l : List α) (e : α) : ℕ := l.countP fun b => ¬ r e b

/-- A row with fewer than `n` rows ahead of it. -/
def AmongFirst (r : α → α → Prop) [DecidableRel r] (l : List α) (n : ℕ) (e : α) : Prop :=
  e ∈ l ∧ ahead r l e < n

omit [Std.Total r] [IsTrans α r] in
theorem AmongFirst.congr {l l' : List α} (h : l.Perm l') {n : ℕ} {e : α} :
    AmongFirst r l n e ↔ AmongFirst r l' n e := by
  unfold AmongFirst ahead
  rw [h.mem_iff, h.countP_eq]

/-- Where the order tells the rows apart, these are the rows that come within the limit. -/
theorem mem_take_insertionSort_iff {l : List α} (hl : l.Nodup)
    (hr : ∀ a ∈ l, ∀ b ∈ l, r a b → r b a → a = b) {n : ℕ} {e : α} :
    e ∈ (l.insertionSort r).take n ↔ AmongFirst r l n e := by
  have hbefore : ∀ xs ys, l = xs ++ e :: ys →
      rowsBefore r xs e ys = ahead r l e := by
    rintro xs ys rfl
    have he : ¬ ¬ r e e := not_not.mpr ((Std.Total.total (r := r) e e).elim id id)
    have hxs : xs.countP (fun b => decide (r b e)) = xs.countP fun b => decide (¬ r e b) := by
      refine List.countP_congr fun b hb => ?_
      simp only [decide_eq_true_eq]
      constructor
      · intro hbe heb
        have hsame : b = e := hr b (List.mem_append_left _ hb) e
          (List.mem_append_right _ List.mem_cons_self) hbe heb
        rw [hsame] at hb
        exact (List.nodup_append.mp hl).2.2 e hb e List.mem_cons_self rfl
      · exact fun hnot => (Std.Total.total (r := r) b e).resolve_right hnot
    unfold rowsBefore ahead
    rw [List.countP_append, List.countP_cons_of_neg (by simpa using he), hxs]
  rw [mem_take_insertionSort]
  constructor
  · rintro ⟨xs, ys, hl', hn⟩
    rw [hbefore xs ys hl'] at hn
    refine ⟨?_, hn⟩
    rw [hl']
    exact List.mem_append_right _ List.mem_cons_self
  · rintro ⟨he, hn⟩
    obtain ⟨xs, ys, hl'⟩ := List.append_of_mem he
    refine ⟨xs, ys, hl', ?_⟩
    rw [hbefore xs ys hl']
    exact hn

omit [Std.Total r] in
/-- A row that is added at the end of a sorted list comes behind those that may stay before it. -/
theorem insertionSort_append_singleton {l : List α} (h : l.Pairwise r) (e : α) :
    (l ++ [e]).insertionSort r =
      l.takeWhile (fun b => r b e) ++ e :: l.dropWhile (fun b => r b e) := by
  induction l with
  | nil => rfl
  | cons x xs ih =>
    obtain ⟨hx, hxs⟩ := List.pairwise_cons.mp h
    rw [List.cons_append, List.insertionSort_cons, ih hxs]
    by_cases hxe : r x e
    · have hrest : ∀ b ∈ xs.takeWhile (fun b => r b e) ++ e :: xs.dropWhile (fun b => r b e),
          r x b := by
        intro b hb
        rcases List.mem_append.mp hb with hb | hb
        · exact hx b (List.takeWhile_subset _ hb)
        · rcases List.mem_cons.mp hb with rfl | hb
          · exact hxe
          · exact hx b (List.dropWhile_subset _ hb)
      have hhead : List.orderedInsert r x
          (xs.takeWhile (fun b => r b e) ++ e :: xs.dropWhile (fun b => r b e)) =
          x :: (xs.takeWhile (fun b => r b e) ++ e :: xs.dropWhile (fun b => r b e)) := by
        cases hl : xs.takeWhile (fun b => r b e) ++ e :: xs.dropWhile (fun b => r b e) with
        | nil => rfl
        | cons b bs =>
          rw [hl] at hrest
          exact List.orderedInsert_cons_of_le _ _ (hrest b List.mem_cons_self)
      rw [hhead]
      simp [hxe]
    · -- then `e` goes before all of the list
      have hnone : ∀ b ∈ xs, ¬ r b e := fun b hb hbe => hxe (IsTrans.trans _ _ _ (hx b hb) hbe)
      have htake : xs.takeWhile (fun b => r b e) = [] := by
        cases xs with
        | nil => rfl
        | cons b bs => simp [hnone b List.mem_cons_self]
      have hdrop : xs.dropWhile (fun b => r b e) = xs := by
        cases xs with
        | nil => rfl
        | cons b bs => simp [hnone b List.mem_cons_self]
      have hsorted : List.orderedInsert r x xs = x :: xs := by
        cases xs with
        | nil => rfl
        | cons b bs => exact List.orderedInsert_cons_of_le _ _ (hx b List.mem_cons_self)
      rw [htake, hdrop, List.nil_append, List.orderedInsert_of_not_le _ _ hxe, hsorted]
      simp [hxe]

/-- The order before sorting does not matter where the key tells the rows apart. -/
theorem insertionSort_congr {l l' : List α} (h : l.Perm l')
    (hkey : ∀ a ∈ l, ∀ b ∈ l, r a b → r b a → a = b) :
    l.insertionSort r = l'.insertionSort r := by
  have hperm : (l.insertionSort r).Perm (l'.insertionSort r) :=
    (List.perm_insertionSort r l).trans (h.trans (List.perm_insertionSort r l').symm)
  refine hperm.eq_of_pairwise ?_ (List.pairwise_insertionSort r l)
    (List.pairwise_insertionSort r l')
  intro a b ha hb hab hba
  have hb' : b ∈ l := h.mem_iff.mpr ((List.mem_insertionSort r).mp hb)
  exact hkey a ((List.mem_insertionSort r).mp ha) b hb' hab hba

end Place

/-! ## Texts

They have names here, so that a definition that sorts texts needs no proof of its own. -/

instance string_le_trans : IsTrans String (· ≤ ·) := inferInstance

instance string_le_antisymm : Std.Antisymm fun a b : String => a ≤ b := inferInstance

/-! ## Classes of equal keys -/

section Classes
variable {β κ : Type} [LinearOrder κ] {key : α → κ} {key' : β → κ}

theorem filter_orderedInsert (a : α) (l : List α) (k : κ) :
    (l.orderedInsert (fun a b => key a ≤ key b) a).filter (fun b => key b = k) =
      (a :: l).filter fun b => key b = k := by
  induction l with
  | nil => rfl
  | cons b l ih =>
    by_cases hab : key a ≤ key b
    · rw [List.orderedInsert_cons, if_pos hab]
    · rw [List.orderedInsert_cons, if_neg hab, List.filter_cons, ih]
      by_cases hb : key b = k
      · -- then `a` is not of the class
        have ha : key a ≠ k := fun ha => hab (ha.trans hb.symm).le
        simp [ha, hb]
      · simp [List.filter_cons, hb]

/-- A stable sort leaves each class in its order. -/
theorem filter_insertionSort (l : List α) (k : κ) :
    (l.insertionSort fun a b => key a ≤ key b).filter (fun b => key b = k) = l.filter fun b => key b = k := by
  induction l with
  | nil => rfl
  | cons a l ih =>
    rw [List.insertionSort_cons, filter_orderedInsert, List.filter_cons, ih, List.filter_cons]

/-- A sorted list is known by its classes. -/
theorem eq_of_filter_eq {s t : List β} (hs : s.Pairwise fun a b => key' a ≤ key' b)
    (ht : t.Pairwise fun a b => key' a ≤ key' b)
    (h : ∀ k, s.filter (fun b => key' b = k) = t.filter fun b => key' b = k) : s = t := by
  have hmem : ∀ b, b ∈ s ↔ b ∈ t := by
    intro b
    have hb := congrArg (b ∈ ·) (h (key' b))
    simpa using hb
  induction s generalizing t with
  | nil =>
    cases t with
    | nil => rfl
    | cons b t => exact absurd ((hmem b).mpr List.mem_cons_self) List.not_mem_nil
  | cons a s ih =>
    cases t with
    | nil => exact absurd ((hmem a).mp List.mem_cons_self) List.not_mem_nil
    | cons b t =>
      obtain ⟨has, hs'⟩ := List.pairwise_cons.mp hs
      obtain ⟨hbt, ht'⟩ := List.pairwise_cons.mp ht
      have hab : key' a = key' b := by
        apply le_antisymm
        · rcases List.mem_cons.mp ((hmem b).mpr List.mem_cons_self) with rfl | hb
          · exact le_rfl
          · exact has b hb
        · rcases List.mem_cons.mp ((hmem a).mp List.mem_cons_self) with rfl | ha
          · exact le_rfl
          · exact hbt a ha
      have hclass := h (key' a)
      rw [List.filter_cons_of_pos (by simp), List.filter_cons_of_pos (by simp [hab])] at hclass
      obtain ⟨rfl, htail⟩ := List.cons.inj hclass
      have hrest : ∀ k, s.filter (fun b => key' b = k) = t.filter fun b => key' b = k := by
        intro k
        by_cases hk : key' a = k
        · rw [← hk]
          exact htail
        · have hk' := h k
          rwa [List.filter_cons_of_neg (by simpa using hk), List.filter_cons_of_neg (by simpa using hk)] at hk'
      have hmem' : ∀ b, b ∈ s ↔ b ∈ t := by
        intro b
        have hb := congrArg (b ∈ ·) (hrest (key' b))
        simpa using hb
      rw [ih hs' ht' hrest hmem']

/-- Two lists are written alike after a stable sort exactly if each class is. -/
theorem map_insertionSort_eq_iff {f : α → β} (hkey : ∀ a, key' (f a) = key a) {l l' : List α} :
    (l.insertionSort fun a b => key a ≤ key b).map f = (l'.insertionSort fun a b => key a ≤ key b).map f ↔
      ∀ k, (l.filter fun a => key a = k).map f = (l'.filter fun a => key a = k).map f := by
  have hfilter : ∀ (l : List α) k, ((l.insertionSort fun a b => key a ≤ key b).map f).filter (fun b => key' b = k) =
      (l.filter fun a => key a = k).map f := by
    intro l k
    rw [List.filter_map, ← filter_insertionSort l k]
    congr 1
    exact List.filter_congr fun a _ => by simp [hkey]
  have hsorted : ∀ l : List α, ((l.insertionSort fun a b => key a ≤ key b).map f).Pairwise
      fun a b => key' a ≤ key' b := by
    intro l
    rw [List.pairwise_map]
    refine (List.pairwise_insertionSort (fun a b => key a ≤ key b) l).imp ?_
    intro a b hab
    rw [hkey, hkey]
    exact hab
  constructor
  · intro h k
    rw [← hfilter, ← hfilter, h]
  · intro h
    apply eq_of_filter_eq (hsorted l) (hsorted l')
    intro k
    rw [hfilter, hfilter, h]

end Classes

/-! ## The greatest element -/

section Greatest
variable {β : Type} [LinearOrder β]

/-- `iter().max_by_key(key)`: the last one of several greatest elements. -/
def maxByKey (key : α → β) : List α → Option α
  | [] => none
  | x :: xs =>
    match maxByKey key xs with
    | none => some x
    | some m => if key m < key x then some x else some m

variable {key : α → β} {l : List α} {m : α}

theorem maxByKey_eq_none : maxByKey key l = none ↔ l = [] := by
  cases l with
  | nil => simp [maxByKey]
  | cons x xs =>
    simp only [maxByKey, reduceCtorEq, iff_false]
    cases maxByKey key xs with
    | none => simp
    | some m =>
      dsimp only
      split_ifs <;> simp

/-- Nothing before it is greater, and what comes after it is less. -/
theorem maxByKey_eq_some : maxByKey key l = some m ↔
    ∃ xs ys, l = xs ++ m :: ys ∧ (∀ x ∈ xs, key x ≤ key m) ∧ ∀ y ∈ ys, key y < key m := by
  induction l generalizing m with
  | nil => simp [maxByKey]
  | cons z zs ih =>
    cases hz : maxByKey key zs with
    | none =>
      obtain rfl := maxByKey_eq_none.mp hz
      simp only [maxByKey, Option.some.injEq]
      constructor
      · rintro rfl
        exact ⟨[], [], rfl, by simp, by simp⟩
      · rintro ⟨xs, ys, hl, -, -⟩
        cases xs with
        | nil => exact (List.cons.inj hl).1
        | cons x xs => simp at hl
    | some m' =>
      obtain ⟨xs', ys', hzs, hbefore, hafter⟩ := ih.mp hz
      have hall : ∀ y ∈ zs, key y ≤ key m' := by
        intro y hy
        rw [hzs] at hy
        rcases List.mem_append.mp hy with hy | hy
        · exact hbefore y hy
        · rcases List.mem_cons.mp hy with rfl | hy
          · exact le_rfl
          · exact (hafter y hy).le
      -- the head wins only by a greater key: of equal ones the last is taken
      have hunfold : maxByKey key (z :: zs) = if key m' < key z then some z else some m' := by
        simp only [maxByKey, hz]
      rw [hunfold]
      by_cases hlt : key m' < key z
      · rw [if_pos hlt, Option.some.injEq]
        constructor
        · rintro rfl
          exact ⟨[], zs, rfl, by simp, fun y hy => (hall y hy).trans_lt hlt⟩
        · rintro ⟨xs, ys, hl, hxs, hys⟩
          cases xs with
          | nil => exact (List.cons.inj hl).1
          | cons x xs =>
            obtain ⟨rfl, rfl⟩ := List.cons.inj hl
            have hle := hall m (List.mem_append_right _ List.mem_cons_self)
            exact absurd (hxs z List.mem_cons_self) (hle.trans_lt hlt).not_ge
      · rw [if_neg hlt]
        constructor
        · intro heq
          obtain rfl := Option.some.inj heq
          refine ⟨z :: xs', ys', by rw [hzs]; rfl, ?_, hafter⟩
          intro x hx
          rcases List.mem_cons.mp hx with rfl | hx
          · exact not_lt.mp hlt
          · exact hbefore x hx
        · rintro ⟨xs, ys, hl, hxs, hys⟩
          cases xs with
          | nil =>
            obtain ⟨rfl, rfl⟩ := List.cons.inj hl
            have hm' : m' ∈ zs := by rw [hzs]; simp
            exact absurd (hys m' hm') hlt
          | cons x xs =>
            obtain ⟨rfl, rfl⟩ := List.cons.inj hl
            rw [← hz]
            exact ih.mpr ⟨xs, ys, rfl, fun y hy => hxs y (List.mem_cons_of_mem _ hy), hys⟩

theorem mem_of_maxByKey (h : maxByKey key l = some m) : m ∈ l := by
  obtain ⟨xs, ys, rfl, -, -⟩ := maxByKey_eq_some.mp h
  simp

theorem le_of_maxByKey (h : maxByKey key l = some m) {x : α} (hx : x ∈ l) : key x ≤ key m := by
  obtain ⟨xs, ys, rfl, hxs, hys⟩ := maxByKey_eq_some.mp h
  rcases List.mem_append.mp hx with hx | hx
  · exact hxs x hx
  · rcases List.mem_cons.mp hx with rfl | hx
    · exact le_rfl
    · exact (hys x hx).le

/-- The same of the elements that a filter lets through. -/
theorem maxByKey_filter_eq_some {p : α → Bool} : maxByKey key (l.filter p) = some m ↔
    ∃ xs ys, l = xs ++ m :: ys ∧ p m = true ∧ (∀ x ∈ xs, p x = true → key x ≤ key m) ∧
      ∀ y ∈ ys, p y = true → key y < key m := by
  rw [maxByKey_eq_some]
  constructor
  · rintro ⟨us, vs, hfilter, hus, hvs⟩
    obtain ⟨l₁, l₂, rfl, rfl, hl₂⟩ := List.filter_eq_append_iff.mp hfilter
    obtain ⟨hidden, ys, rfl, hhidden, hm, rfl⟩ := List.filter_eq_cons_iff.mp hl₂
    refine ⟨l₁ ++ hidden, ys, (List.append_assoc _ _ _).symm, hm, ?_, ?_⟩
    · intro x hx hpx
      rcases List.mem_append.mp hx with hx | hx
      · exact hus x (List.mem_filter.mpr ⟨hx, hpx⟩)
      · exact absurd hpx (hhidden x hx)
    · intro y hy hpy
      exact hvs y (List.mem_filter.mpr ⟨hy, hpy⟩)
  · rintro ⟨xs, ys, rfl, hm, hxs, hys⟩
    refine ⟨xs.filter p, ys.filter p, ?_, ?_, ?_⟩
    · rw [List.filter_append, List.filter_cons_of_pos hm]
    · intro x hx
      exact hxs x (List.mem_filter.mp hx).1 (List.mem_filter.mp hx).2
    · intro y hy
      exact hys y (List.mem_filter.mp hy).1 (List.mem_filter.mp hy).2

/-- The order of a list does not matter if one element is the greatest. -/
theorem maxByKey_congr {l' : List α} (h : l.Perm l')
    (huniq : ∀ a ∈ l, ∀ b ∈ l, key a = key b → (∀ c ∈ l, key c ≤ key a) → a = b) :
    maxByKey key l = maxByKey key l' := by
  cases hl : maxByKey key l with
  | none =>
    obtain rfl := maxByKey_eq_none.mp hl
    rw [h.symm.eq_nil]
    rfl
  | some a =>
    cases hl' : maxByKey key l' with
    | none =>
      obtain rfl := maxByKey_eq_none.mp hl'
      obtain rfl := h.eq_nil
      cases hl
    | some b =>
      have ha := mem_of_maxByKey hl
      have hb : b ∈ l := h.mem_iff.mpr (mem_of_maxByKey hl')
      have hab : key a ≤ key b := le_of_maxByKey hl' (h.mem_iff.mp ha)
      have hba : key b ≤ key a := le_of_maxByKey hl hb
      rw [huniq a ha b hb (le_antisymm hab hba) fun c hc => le_of_maxByKey hl hc]

end Greatest

/-! ## Without repetitions -/

section Distinct
variable {α : Type} [DecidableEq α] {l : List α}

theorem mem_destutter'_ne {a x : α} (h : x ∈ a :: l) : x ∈ l.destutter' (· ≠ ·) a := by
  induction l generalizing a with
  | nil => exact h
  | cons b l ih =>
    rw [destutter'_cons]
    split_ifs with hab
    · rcases List.mem_cons.mp h with rfl | hx
      · exact List.mem_cons_self
      · exact List.mem_cons_of_mem _ (ih hx)
    · have heq : a = b := not_not.mp hab
      rw [heq] at h ⊢
      exact ih ((List.mem_cons.mp h).elim (fun hx => hx ▸ List.mem_cons_self) id)

/-- Nothing is lost where repetitions are left out. -/
theorem mem_destutter_ne {x : α} : x ∈ l.destutter (· ≠ ·) ↔ x ∈ l := by
  refine ⟨fun h => (l.destutter_sublist (· ≠ ·)).subset h, fun h => ?_⟩
  cases l with
  | nil => exact h
  | cons a l => exact mem_destutter'_ne h

theorem one_lt_length_dedup_iff : 1 < l.dedup.length ↔ ∃ a ∈ l, ∃ b ∈ l, a ≠ b := by
  rw [← List.card_toFinset, Finset.one_lt_card]
  simp only [List.mem_toFinset]

omit [DecidableEq α] in
theorem two_le_length_of_ne {a b : α} (ha : a ∈ l) (hb : b ∈ l) (hab : a ≠ b) : 2 ≤ l.length := by
  rcases l with _ | ⟨x, _ | ⟨y, l⟩⟩
  · cases ha
  · exact absurd ((List.mem_singleton.mp ha).trans (List.mem_singleton.mp hb).symm) hab
  · exact Nat.le_add_left 2 l.length

end Distinct

/-- The elements of a set in some order: `iter().collect()`. -/
def listed [LinearOrder α] (s : Finset α) : List α := s.sort (· ≤ ·)

@[simp] theorem toFinset_listed [LinearOrder α] (s : Finset α) : (listed s).toFinset = s := s.sort_toFinset (· ≤ ·)

end AiManager.Lib
