import Mathlib.Data.List.Basic
import Mathlib.Order.Basic

/-! # A sliding window

Events in the order of their times, of which at most `limit` are let in within `window`. Those that still count are the
recent ones; an event is let in if fewer than `limit` are recent. No stretch of time of this length then has more than
`limit` of them (`Bounded.concat`), wherever it begins. -/

namespace AiManager.Lib

section Sliding
variable (limit window : ℕ)

/-- Those that still count. -/
def recent (now : ℕ) (admitted : List ℕ) : List ℕ := admitted.filter fun t => now ≤ t + window

/-- In no closed stretch of the length are more than the limit. -/
def Bounded (admitted : List ℕ) : Prop :=
  ∀ s, (admitted.filter fun t => s ≤ t ∧ t ≤ s + window).length ≤ limit

variable {limit window} {m n now : ℕ} {admitted : List ℕ}

theorem recent_append {l l' : List ℕ} : recent window now (l ++ l') = recent window now l ++ recent window now l' :=
  List.filter_append _ _

/-- What does not count any more will never count again. -/
theorem recent_recent (h : m ≤ n) : recent window n (recent window m admitted) = recent window n admitted := by
  unfold recent
  rw [List.filter_filter]
  refine List.filter_congr fun t _ => ?_
  rw [← Bool.decide_and, decide_eq_decide]
  omega

theorem recent_sublist : (recent window now admitted).Sublist admitted := List.filter_sublist

/-- In order of time, what does not count any more stands in front. -/
theorem dropWhile_eq_recent (h : admitted.Pairwise (· ≤ ·)) :
    admitted.dropWhile (fun t => window < now - t) = recent window now admitted := by
  induction admitted with
  | nil => rfl
  | cons t ts ih =>
    obtain ⟨ht, hts⟩ := List.pairwise_cons.mp h
    by_cases hold : window < now - t
    · have hnot : ¬ now ≤ t + window := by omega
      rw [List.dropWhile_cons_of_pos (by simpa using hold), ih hts]
      exact (List.filter_cons_of_neg (by simpa using hnot)).symm
    · rw [List.dropWhile_cons_of_neg (by simpa using hold)]
      refine (List.filter_eq_self.mpr fun x hx => ?_).symm
      have hfirst : t ≤ x := by
        rcases List.mem_cons.mp hx with rfl | hx
        · exact Nat.le_refl _
        · exact ht x hx
      simp only [decide_eq_true_eq]
      omega

/-- While the oldest counts, all of them do. -/
theorem recent_eq_self {first : ℕ} {rest : List ℕ} (h : (first :: rest).Pairwise (· ≤ ·)) (hfirst : now ≤ first + window) :
    recent window now (first :: rest) = first :: rest := by
  refine List.filter_eq_self.mpr fun t ht => decide_eq_true ?_
  rcases List.mem_cons.mp ht with rfl | ht
  · exact hfirst
  · exact Nat.le_trans hfirst (Nat.add_le_add_right (List.rel_of_pairwise_cons h ht) window)

theorem length_recent_le {first : ℕ} (rest : List ℕ) (hfirst : first + window < now) :
    (recent window now (first :: rest)).length ≤ rest.length := by
  unfold recent
  rw [List.filter_cons_of_neg (by simpa using hfirst)]
  exact List.length_filter_le _ _

theorem Bounded.nil : Bounded limit window [] := fun _ => Nat.zero_le _

/-- The last to be let in counts together with no more than those that are recent. -/
theorem Bounded.concat (h : Bounded limit window admitted) (hroom : (recent window now admitted).length < limit) :
    Bounded limit window (admitted ++ [now]) := by
  intro s
  rw [List.filter_append, List.length_append]
  by_cases hs : s ≤ now ∧ now ≤ s + window
  · have hsub : (admitted.filter fun t => s ≤ t ∧ t ≤ s + window).Sublist (recent window now admitted) := by
      refine List.monotone_filter_right _ fun t ht => ?_
      simp only [decide_eq_true_eq] at ht ⊢
      omega
    have hlength := hsub.length_le
    rw [List.filter_cons_of_pos (by simpa using hs), List.filter_nil, List.length_singleton]
    omega
  · rw [List.filter_cons_of_neg (by simpa using hs)]
    exact h s

theorem Bounded.length_recent (h : Bounded limit window admitted) (htimes : ∀ t ∈ admitted, t ≤ now) :
    (recent window now admitted).length ≤ limit := by
  have heq : recent window now admitted =
      admitted.filter fun t => now - window ≤ t ∧ t ≤ now - window + window := by
    refine List.filter_congr fun t ht => ?_
    have := htimes t ht
    rw [decide_eq_decide]
    omega
  rw [heq]
  exact h (now - window)

end Sliding

end AiManager.Lib
