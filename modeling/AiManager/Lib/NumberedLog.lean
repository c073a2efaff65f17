import AiManager.Lib.CappedList

/-! # Numbered logs and their readers

A log numbers its elements in the order in which they come and keeps the last ones (`keepLast`). A reader that
remembers the number of its last element finds the next one by its number, as long as no more than what is kept
is still to come (`find_numbered`). -/

namespace AiManager.Lib

variable {α : Type}

/-- The elements with consecutive numbers. -/
def numberFrom : ℕ → List α → List (ℕ × α)
  | _, [] => []
  | n, x :: xs => (n, x) :: numberFrom (n + 1) xs

@[simp] theorem length_numberFrom (n : ℕ) (xs : List α) : (numberFrom n xs).length = xs.length := by
  induction xs generalizing n with
  | nil => rfl
  | cons x xs ih => rw [numberFrom, List.length_cons, List.length_cons, ih]

theorem numberFrom_append (n : ℕ) (xs ys : List α) :
    numberFrom n (xs ++ ys) = numberFrom n xs ++ numberFrom (n + xs.length) ys := by
  induction xs generalizing n with
  | nil => rfl
  | cons x xs ih =>
    rw [List.cons_append, numberFrom, numberFrom, ih, List.cons_append, List.length_cons]
    congr 3
    omega

theorem drop_numberFrom (n k : ℕ) (xs : List α) : (numberFrom n xs).drop k = numberFrom (n + k) (xs.drop k) := by
  induction xs generalizing n k with
  | nil => simp [numberFrom]
  | cons x xs ih =>
    cases k with
    | zero => rfl
    | succ k =>
      rw [numberFrom, List.drop_succ_cons, List.drop_succ_cons, ih]
      congr 1
      omega

/-- Among consecutive numbers, the first one past `cursor` is the next. -/
theorem find_numberFrom {n cursor : ℕ} (h : n ≤ cursor) (xs : List α) :
    (numberFrom (n + 1) xs).find? (fun e => cursor < e.1) = xs[cursor - n]?.map fun x => (cursor + 1, x) := by
  induction xs generalizing n with
  | nil => rfl
  | cons x xs ih =>
    rw [numberFrom, List.find?_cons]
    rcases Nat.eq_or_lt_of_le h with rfl | hlt
    · simp
    · have hpast : ¬ cursor < n + 1 := by omega
      obtain ⟨k, hk⟩ : ∃ k, cursor - n = k + 1 := ⟨cursor - n - 1, by omega⟩
      have hk' : cursor - (n + 1) = k := by omega
      rw [decide_eq_false hpast, ih hlt, hk, hk', List.getElem?_cons_succ]

/-- A capped log forgets from its front, whenever it is cut back. -/
theorem keepLast_concat (cap : ℕ) (xs : List α) (x : α) :
    keepLast cap (keepLast cap xs ++ [x]) = keepLast cap (xs ++ [x]) := by
  unfold keepLast
  have hle : xs.length - cap ≤ xs.length := Nat.sub_le _ _
  rw [← List.drop_append_of_le_length hle, List.drop_drop]
  congr 1
  simp only [List.length_drop, List.length_append, List.length_singleton]
  omega

/-- A reader within the reach of the log finds its next element. -/
theorem find_numbered {cap cursor : ℕ} {xs : List α} (h : xs.length ≤ cursor + cap) :
    (keepLast cap (numberFrom 1 xs)).find? (fun e => cursor < e.1) = xs[cursor]?.map fun x => (cursor + 1, x) := by
  have hdropped : xs.length - cap ≤ cursor := by omega
  unfold keepLast
  rw [length_numberFrom, drop_numberFrom, Nat.add_comm 1, find_numberFrom hdropped, List.getElem?_drop,
    Nat.add_sub_cancel' hdropped]

end AiManager.Lib
