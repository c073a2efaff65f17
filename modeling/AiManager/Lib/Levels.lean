import Mathlib.Combinatorics.SimpleGraph.Metric

/-! # Levels of a graph

A search that goes through a graph level by level has seen, after `n` rounds, the vertices at a distance of at most
`n`; its frontier are those at the distance `n` itself. A search with a queue is on its way from one level to the next:
the front of its queue is what is left of a level, the rest is what it knows of the next one. -/

namespace AiManager.Lib

section Levels
variable {V : Type} {G : SimpleGraph V} {r v : V} {n : ℕ} {seen frontier : Set V}

/-- A shortest way of one more step leads over a vertex at distance `n`. -/
theorem edist_eq_succ {n : ℕ} (h : G.edist r v = (n + 1 : ℕ)) : ∃ u, G.edist r u = n ∧ G.Adj u v := by
  obtain ⟨p, hp⟩ := G.exists_walk_of_edist_eq_coe (G.edist_comm.trans h)
  cases p with
  | nil => cases hp
  | @cons _ u _ hadj q =>
    refine ⟨u, le_antisymm ?_ ?_, hadj.symm⟩
    · rw [G.edist_comm]
      have hq : q.length = n := by simpa using hp
      exact (G.edist_le q).trans_eq (by rw [hq])
    · have htriangle : G.edist r v ≤ G.edist r u + G.edist u v := G.edist_triangle
      rw [h, G.edist_eq_one_iff_adj.mpr hadj.symm, Nat.cast_add, Nat.cast_one] at htriangle
      exact (ENat.add_le_add_iff_right ENat.one_ne_top).mp htriangle

theorem edist_le_succ_iff : G.edist r v ≤ (n + 1 : ℕ) ↔ G.edist r v ≤ n ∨ ∃ u, G.edist r u = n ∧ G.Adj u v := by
  constructor
  · intro h
    rcases h.eq_or_lt with heq | hlt
    · exact .inr (edist_eq_succ heq)
    · rw [Nat.cast_add, Nat.cast_one] at hlt
      exact .inl (Order.le_of_lt_add_one hlt)
  · rintro (h | ⟨u, hu, hadj⟩)
    · exact h.trans (Nat.cast_le.mpr n.le_succ)
    · calc G.edist r v ≤ G.edist r u + G.edist u v := G.edist_triangle
        _ = (n + 1 : ℕ) := by rw [hu, G.edist_eq_one_iff_adj.mpr hadj, Nat.cast_add, Nat.cast_one]

/-- A neighbor of a vertex at distance `n` that is not nearer is one step further away. -/
theorem edist_of_adj {u : V} (hu : G.edist r u = n) (hadj : G.Adj u v) (hv : ¬ G.edist r v ≤ n) :
    G.edist r v = (n + 1 : ℕ) := by
  refine le_antisymm (edist_le_succ_iff.mpr (.inr ⟨u, hu, hadj⟩)) ?_
  rw [Nat.cast_add, Nat.cast_one]
  exact Order.add_one_le_of_lt (not_le.mp hv)

/-- What a search knows after `n` rounds. -/
structure Explored (G : SimpleGraph V) (r : V) (n : ℕ) (seen frontier : Set V) : Prop where
  seen : ∀ v, v ∈ seen ↔ G.edist r v ≤ n
  frontier : ∀ v, v ∈ frontier ↔ G.edist r v = n

namespace Explored

theorem root (G : SimpleGraph V) (r : V) : Explored G r 0 {r} {r} where
  seen v := by rw [Nat.cast_zero, nonpos_iff_eq_zero, G.edist_eq_zero_iff, Set.mem_singleton_iff, eq_comm]
  frontier v := by rw [Nat.cast_zero, G.edist_eq_zero_iff, Set.mem_singleton_iff, eq_comm]

theorem mem_seen_of_mem_frontier (h : Explored G r n seen frontier) (hv : v ∈ frontier) : v ∈ seen :=
  (h.seen v).mpr ((h.frontier v).mp hv).le

/-- **One round** sees the neighbors of the frontier, and goes on from those that are new. -/
theorem round (h : Explored G r n seen frontier) {seen' frontier' : Set V}
    (hseen : ∀ v, v ∈ seen' ↔ v ∈ seen ∨ ∃ u ∈ frontier, G.Adj u v)
    (hfrontier : ∀ v, v ∈ frontier' ↔ v ∈ seen' ∧ v ∉ seen) : Explored G r (n + 1) seen' frontier' := by
  have hseen' : ∀ v, v ∈ seen' ↔ G.edist r v ≤ (n + 1 : ℕ) := by
    intro v
    rw [hseen, edist_le_succ_iff, h.seen]
    simp only [h.frontier]
  refine ⟨hseen', fun v => ?_⟩
  rw [hfrontier, hseen', h.seen, not_le]
  constructor
  · rintro ⟨hle, hlt⟩
    refine le_antisymm hle ?_
    rw [Nat.cast_add, Nat.cast_one]
    exact Order.add_one_le_of_lt hlt
  · intro heq
    rw [heq]
    exact ⟨le_refl _, Nat.cast_lt.mpr n.lt_succ_self⟩

/-- Once the frontier is empty there is nothing further away. -/
theorem idle (h : Explored G r n seen frontier) (hempty : ∀ v, v ∉ frontier) : Explored G r (n + 1) seen frontier := by
  refine h.round (fun v => ⟨.inl, ?_⟩) fun v => iff_of_false (hempty v) fun hv => hv.2 hv.1
  rintro (hv | ⟨u, hu, -⟩)
  · exact hv
  · exact absurd hu (hempty u)

end Explored

/-- What a search with a queue knows when some of level `n` is left to expand. -/
structure Queued (G : SimpleGraph V) (r : V) (n : ℕ) (known : Set V) (todo next : List V) : Prop where
  known_iff : ∀ v, v ∈ known ↔ G.edist r v ≤ n ∨ v ∈ next
  level : ∀ v ∈ todo, G.edist r v = n
  ahead : ∀ v ∈ next, G.edist r v = (n + 1 : ℕ)
  done : ∀ u, G.edist r u = n → u ∉ todo → ∀ v, G.Adj u v → v ∈ known

namespace Queued
variable {known known' : Set V} {todo next new : List V} {u : V}

theorem root (G : SimpleGraph V) (r : V) : Queued G r 0 {r} [r] [] where
  known_iff v := by
    rw [Nat.cast_zero, nonpos_iff_eq_zero, G.edist_eq_zero_iff, Set.mem_singleton_iff, eq_comm,
      or_iff_left List.not_mem_nil]
  level v hv := by rw [List.mem_singleton.mp hv, Nat.cast_zero, G.edist_self]
  ahead v hv := by cases hv
  done u hu hnone := by
    rw [Nat.cast_zero, G.edist_eq_zero_iff] at hu
    exact absurd (List.mem_singleton.mpr hu.symm) hnone

/-- **One vertex** is expanded: its new neighbors come to the end of the queue. -/
theorem expand (h : Queued G r n known (u :: todo) next) (hknown : ∀ v, v ∈ known' ↔ v ∈ known ∨ v ∈ new)
    (hnew : ∀ v ∈ new, G.Adj u v ∧ v ∉ known) (hadj : ∀ v, G.Adj u v → v ∈ known') :
    Queued G r n known' todo (next ++ new) where
  known_iff v := by rw [hknown, h.known_iff, List.mem_append, or_assoc]
  level v hv := h.level v (List.mem_cons_of_mem _ hv)
  ahead v hv := by
    rcases List.mem_append.mp hv with hv | hv
    · exact h.ahead v hv
    · refine edist_of_adj (h.level u List.mem_cons_self) (hnew v hv).1 fun hle => (hnew v hv).2 ?_
      exact (h.known_iff v).mpr (.inl hle)
  done w hw htodo v hwv := by
    by_cases hwu : w = u
    · exact hadj v (hwu ▸ hwv)
    · exact (hknown v).mpr (.inl (h.done w hw (fun hmem => (List.mem_cons.mp hmem).elim hwu htodo) v hwv))

/-- When a level is finished the next one is known. -/
theorem turn (h : Queued G r n known [] next) : Queued G r (n + 1) known next [] where
  known_iff v := by
    rw [or_iff_left List.not_mem_nil, edist_le_succ_iff, h.known_iff]
    constructor
    · rintro (hle | hv)
      · exact .inl hle
      · exact edist_le_succ_iff.mp (h.ahead v hv).le
    · rintro (hle | ⟨u, hu, huv⟩)
      · exact .inl hle
      · exact (h.known_iff v).mp (h.done u hu List.not_mem_nil v huv)
  level := h.ahead
  ahead v hv := by cases hv
  done u hu hnone := by
    have hknown : u ∈ known := by
      obtain ⟨w, hw, hwu⟩ := edist_eq_succ hu
      exact h.done w hw List.not_mem_nil u hwu
    rcases (h.known_iff u).mp hknown with hle | hnext
    · rw [hu, Nat.cast_le] at hle
      omega
    · exact absurd hnext hnone

/-- Once the queue is empty nothing else is reached. -/
theorem stuck (h : Queued G r n known [] []) (hv : v ∉ known) (m : ℕ) : ¬ G.edist r v ≤ m := by
  have hall : ∀ k, Queued G r (n + k) known [] [] := by
    intro k
    induction k with
    | zero => exact h
    | succ k ih => exact ih.turn
  intro hle
  refine hv (((hall m).known_iff v).mpr (.inl (hle.trans ?_)))
  exact Nat.cast_le.mpr (Nat.le_add_left m n)

end Queued

end Levels

end AiManager.Lib
