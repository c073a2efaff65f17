import Mathlib.Algebra.BigOperators.Pi
import AiManager.Lib.Prog

/-! # Tallies

Each call counts for something, and a program's tally is what its calls count together. A part of the shared state to
which every call adds what it counts is, after a run, the sum of all tallies (`run_tally`). -/

namespace AiManager.Lib

open Finset

section Tally
variable {ι Op : Type} {Res : Op → Type} {M : Type} [DecidableEq ι] [AddCommMonoid M]

/-- What the calls of program `i` count together. -/
def tally (weight : (op : Op) → Res op → M) (i : ι) (tr : List (Event ι Op Res)) : M :=
  watch (fun q op r => q + weight op r) 0 i tr

variable {weight : (op : Op) → Res op → M}

theorem tally_cons (i : ι) (e : Event ι Op Res) (tr : List (Event ι Op Res)) :
    tally weight i (e :: tr) = tally weight i tr + if i = e.who then weight e.op e.res else 0 := by
  obtain ⟨j, op, r⟩ := e
  by_cases hi : i = j
  · subst hi
    rw [if_pos rfl]
    exact watch_cons_self _ _ _ _ _ _
  · rw [if_neg hi, add_zero]
    exact watch_cons_ne _ _ (Ne.symm hi) _ _ _

theorem sum_tally_cons [Fintype ι] (e : Event ι Op Res) (tr : List (Event ι Op Res)) :
    ∑ i, tally weight i (e :: tr) = (∑ i, tally weight i tr) + weight e.op e.res := by
  simp only [tally_cons, sum_add_distrib, sum_ite_eq', mem_univ, if_true]

/-- A part of what is counted. -/
theorem map_tally {N : Type} [AddCommMonoid N] (f : M →+ N) (i : ι) (tr : List (Event ι Op Res)) :
    f (tally weight i tr) = tally (fun op r => f (weight op r)) i tr := by
  induction tr with
  | nil => exact f.map_zero
  | cons e tr ih =>
    rw [tally_cons, tally_cons, f.map_add, ih]
    congr 1
    split_ifs
    · rfl
    · exact f.map_zero

omit [AddCommMonoid M] in
theorem tally_eq_zero_iff {weight : (op : Op) → Res op → ℕ} {i : ι} {tr : List (Event ι Op Res)} :
    tally weight i tr = 0 ↔ ∀ e ∈ tr, e.who = i → weight e.op e.res = 0 := by
  induction tr with
  | nil => exact ⟨fun _ _ he => (nomatch he), fun _ => rfl⟩
  | cons e tr ih =>
    rw [tally_cons, Nat.add_eq_zero_iff, ih, List.forall_mem_cons, and_comm]
    refine and_congr_left fun _ => ?_
    rw [ite_eq_right_iff, eq_comm]

end Tally

namespace Pool
variable {ι Op : Type} {Res : Op → Type} {σ χ α M : Type} [DecidableEq ι] {answer : Answer Op Res σ χ}
  {pool : Pool ι Op Res σ α}

section Runs
variable [AddCommMonoid M] [Fintype ι] {weight : (op : Op) → Res op → M} {view : σ → M}

/-- **One step.** -/
theorem step_tally {base : M} (hcall : ∀ c op s r s', answer c op s = some (r, s') → view s' = view s + weight op r)
    (h : view pool.shared = base + ∑ i, tally weight i pool.trace) (x : ι × χ) :
    view (pool.step answer x).shared = base + ∑ i, tally weight i (pool.step answer x).trace := by
  rcases pool.step_cases answer x with heq | ⟨op, k, r, s, -, hs, heq⟩
  · rw [heq, h]
  · rw [heq, after_shared, after_trace, sum_tally_cons, hcall _ _ _ _ _ hs, h, add_assoc]

theorem run_tally_from {base : M} (hcall : ∀ c op s r s', answer c op s = some (r, s') → view s' = view s + weight op r)
    (h : view pool.shared = base + ∑ i, tally weight i pool.trace) (sched : List (ι × χ)) :
    view (pool.run answer sched).shared = base + ∑ i, tally weight i (pool.run answer sched).trace := by
  induction sched generalizing pool with
  | nil => exact h
  | cons x xs ih => exact ih (step_tally hcall h x)

/-- What every call adds to, all tallies add to. -/
theorem run_tally (weight : (op : Op) → Res op → M) (view : σ → M)
    (hcall : ∀ c op s r s', answer c op s = some (r, s') → view s' = view s + weight op r)
    (htrace : pool.trace = []) (sched : List (ι × χ)) :
    view (pool.run answer sched).shared = view pool.shared + ∑ i, tally weight i (pool.run answer sched).trace := by
  apply run_tally_from hcall
  have hzero : ∀ i, tally weight i ([] : List (Event ι Op Res)) = 0 := fun _ => rfl
  rw [htrace, sum_congr rfl fun i _ => hzero i, sum_const_zero, add_zero]

end Runs

/-- A call that was made stays made. -/
theorem trace_suffix_run (answer : Answer Op Res σ χ) (pool : Pool ι Op Res σ α) (sched : List (ι × χ)) :
    pool.trace <:+ (pool.run answer sched).trace := by
  induction sched generalizing pool with
  | nil => exact List.suffix_refl _
  | cons x xs ih =>
    refine List.IsSuffix.trans ?_ (ih (pool.step answer x))
    rcases pool.step_cases answer x with heq | ⟨op, k, r, s, -, -, heq⟩
    · rw [heq]
    · rw [heq]
      exact List.suffix_cons _ _

/-- A condition on the calls that are made is one on the history. -/
theorem eachStep_iff_trace {C : Pool ι Op Res σ α → ι × χ → Prop} {good : Event ι Op Res → Prop}
    (h : ∀ pool x, C pool x ↔ ∀ e, pool.event answer x = some e → good e) (htrace : ∀ e ∈ pool.trace, good e)
    (sched : List (ι × χ)) :
    EachStep (step answer) C pool sched ↔ ∀ e ∈ (pool.run answer sched).trace, good e := by
  induction sched generalizing pool with
  | nil => exact ⟨fun _ => htrace, fun _ => trivial⟩
  | cons x xs ih =>
    have hrest : (∀ e ∈ (pool.step answer x).trace, good e) → (EachStep (step answer) C (pool.step answer x) xs ↔
        ∀ e ∈ ((pool.step answer x).run answer xs).trace, good e) := ih
    show C pool x ∧ EachStep (step answer) C (pool.step answer x) xs ↔
      ∀ e ∈ ((pool.step answer x).run answer xs).trace, good e
    rw [h]
    rcases pool.event_cases answer x with ⟨hnone, heq⟩ | ⟨op, k, r, s, -, -, hsome, heq⟩
    · rw [hrest (by rw [heq]; exact htrace), hnone]
      exact and_iff_right fun _ he => nomatch he
    · rw [hsome]
      constructor
      · rintro ⟨hgood, hsteps⟩
        refine (hrest ?_).mp hsteps
        rw [heq, after_trace]
        exact List.forall_mem_cons.mpr ⟨hgood _ rfl, htrace⟩
      · intro hall
        have hstep : ∀ e ∈ (pool.step answer x).trace, good e := fun e he =>
          hall e ((trace_suffix_run answer _ xs).subset he)
        refine ⟨?_, (hrest hstep).mpr hall⟩
        rintro e he
        obtain rfl := Option.some.inj he
        apply hstep
        rw [heq, after_trace]
        exact List.mem_cons_self

end Pool

end AiManager.Lib
