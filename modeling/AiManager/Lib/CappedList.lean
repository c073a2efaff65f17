import Mathlib.Tactic.Common

/-! # Capped lists

A list that grows at its end and keeps only its last elements. An element is found by its place from the
end, which an append moves on by one and the cap leaves alone. -/

namespace AiManager.Lib

variable {α β : Type}

/-- The last `n` elements: the elements before are drained. -/
def keepLast (n : ℕ) (xs : List α) : List α := xs.drop (xs.length - n)

/-- The `i`-th element from the end. -/
def fromEnd (xs : List α) (i : ℕ) : Option α := xs.reverse[i]?

theorem fromEnd_map (f : α → β) (xs : List α) (i : ℕ) : fromEnd (xs.map f) i = (fromEnd xs i).map f := by
  unfold fromEnd
  rw [← List.map_reverse, List.getElem?_map]

theorem fromEnd_concat_zero (xs : List α) (x : α) : fromEnd (xs ++ [x]) 0 = some x := by
  simp [fromEnd]

theorem fromEnd_concat_succ (xs : List α) (x : α) (i : ℕ) : fromEnd (xs ++ [x]) (i + 1) = fromEnd xs i := by
  simp [fromEnd]

/-- The cap takes away only what lies beyond it. -/
theorem fromEnd_keepLast {n i : ℕ} (h : i < n) (xs : List α) : fromEnd (keepLast n xs) i = fromEnd xs i := by
  unfold fromEnd keepLast
  rw [List.reverse_drop, List.getElem?_take]
  split_ifs with hi
  · rfl
  · symm
    rw [List.getElem?_eq_none_iff, List.length_reverse]
    omega

theorem length_keepLast (n : ℕ) (xs : List α) : (keepLast n xs).length = min n xs.length := by
  unfold keepLast
  rw [List.length_drop]
  omega

/-- A list that its own last element fills is not changed by one more. -/
theorem keepLast_concat_replicate (n : ℕ) (x : α) :
    keepLast n (List.replicate n x ++ [x]) = List.replicate n x := by
  rw [← List.replicate_succ']
  unfold keepLast
  rw [List.drop_replicate, List.length_replicate]
  congr 1
  omega

theorem eq_replicate_of_concat_eq_cons {x y : α} {xs : List α} (h : xs ++ [x] = y :: xs) :
    xs = List.replicate xs.length x ∧ y = x := by
  induction xs generalizing y with
  | nil => exact ⟨rfl, (List.cons.inj h).1.symm⟩
  | cons z zs ih =>
    obtain ⟨hz, hrest⟩ := List.cons.inj h
    obtain ⟨hzs, hzx⟩ := ih hrest
    subst hzx
    refine ⟨?_, hz.symm⟩
    rw [List.length_cons, List.replicate_succ, ← hzs]

/-- A list within the cap that one more element does not change is full of it. -/
theorem eq_replicate_of_keepLast_concat {n : ℕ} {xs : List α} {x : α} (hcap : xs.length ≤ n)
    (h : keepLast n (xs ++ [x]) = xs) : xs = List.replicate n x := by
  have hfull : xs.length = n := by
    have hlength := congrArg List.length h
    rw [length_keepLast, List.length_append, List.length_singleton] at hlength
    omega
  unfold keepLast at h
  rw [List.length_append, List.length_singleton, hfull, Nat.add_sub_cancel_left] at h
  cases xs with
  | nil => rw [← hfull]; rfl
  | cons y ys =>
    obtain ⟨hys, rfl⟩ := eq_replicate_of_concat_eq_cons h
    rw [← hfull, List.length_cons, List.replicate_succ, ← hys]

theorem map_keepLast (f : α → β) (n : ℕ) (xs : List α) : (keepLast n xs).map f = keepLast n (xs.map f) := by
  unfold keepLast
  rw [List.map_drop, List.length_map]

end AiManager.Lib
