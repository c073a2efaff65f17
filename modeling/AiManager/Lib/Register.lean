import Mathlib.Data.List.Induction
import Mathlib.Order.Basic

/-! # Registers

A register holds one value. `settle` says what it holds after a write, given what it held before. One
that keeps the greater of two, write by write, ends up with a greatest of all that was written, in
whatever order (`greatest_register`). -/

namespace AiManager.Lib

variable {α β : Type}

/-- What a register holds after these writes. -/
def register (settle : Option α → α → α) (held : Option α) (writes : List α) : Option α :=
  writes.foldl (fun held x => some (settle held x)) held

/-- A member that no other outranks. -/
structure Greatest [LE β] (rank : α → β) (xs : List α) (m : α) : Prop where
  mem : m ∈ xs
  le : ∀ x ∈ xs, rank x ≤ rank m

/-- Greatest members of the same writes have one rank. -/
theorem Greatest.rank_eq [PartialOrder β] {rank : α → β} {xs ys : List α} {m m' : α}
    (h : Greatest rank xs m) (h' : Greatest rank ys m') (hmem : ∀ x, x ∈ xs ↔ x ∈ ys) :
    rank m = rank m' :=
  le_antisymm (h'.le m ((hmem m).mp h.mem)) (h.le m' ((hmem m').mpr h'.mem))

section Register
variable {settle : Option α → α → α} {held : Option α} {x : α} {xs ys : List α}

@[simp] theorem register_nil : register settle held [] = held := rfl

theorem register_append :
    register settle held (xs ++ ys) = register settle (register settle held xs) ys :=
  List.foldl_append

theorem register_concat :
    register settle held (xs ++ [x]) = some (settle (register settle held xs) x) := by
  rw [register_append]
  rfl

/-- What a register holds was there before or was written, as it keeps it. -/
theorem register_eq_or_mem {kept : α → α} (hkeep : ∀ held x, settle held x = kept x ∨ held = some (settle held x)) :
    register settle held xs = held ∨ ∃ x ∈ xs, register settle held xs = some (kept x) := by
  induction xs using List.reverseRecOn with
  | nil => exact .inl rfl
  | append_singleton xs x ih =>
    rw [register_concat]
    rcases hkeep (register settle held xs) x with hnew | hold
    · exact .inr ⟨x, List.mem_append_right _ (List.mem_singleton_self x), by rw [hnew]⟩
    · rw [← hold]
      refine ih.imp_right ?_
      rintro ⟨y, hy, hheld⟩
      exact ⟨y, List.mem_append_left _ hy, hheld⟩

/-- **The order of the writes does not matter.** `R` is what an earlier write and a later one have to
do with each other. -/
theorem greatest_register [Preorder β] {rank : α → β} {R : α → α → Prop}
    (hfirst : ∀ x, settle none x = x)
    (hstep : ∀ a x, R a x → Greatest rank [a, x] (settle (some a) x))
    (hR : xs.Pairwise R) (hxs : xs ≠ []) :
    ∃ m, register settle none xs = some m ∧ Greatest rank xs m := by
  induction xs using List.reverseRecOn with
  | nil => exact absurd rfl hxs
  | append_singleton xs x ih =>
    rw [register_concat]
    rcases eq_or_ne xs [] with rfl | hne
    · refine ⟨x, by rw [register_nil, hfirst], List.mem_singleton_self x, ?_⟩
      intro y hy
      rw [List.mem_singleton.mp hy]
    · obtain ⟨hbefore, -, hlast⟩ := List.pairwise_append.mp hR
      obtain ⟨a, ha, hmax⟩ := ih hbefore hne
      have hsettled := hstep a x (hlast a hmax.mem x (List.mem_singleton_self x))
      refine ⟨settle (some a) x, by rw [ha], ?_, ?_⟩
      · rcases List.mem_cons.mp hsettled.mem with h | h
        · rw [h]
          exact List.mem_append_left _ hmax.mem
        · exact List.mem_append_right _ h
      · intro y hy
        rcases List.mem_append.mp hy with hy | hy
        · exact (hmax.le y hy).trans (hsettled.le a List.mem_cons_self)
        · rw [List.mem_singleton.mp hy]
          exact hsettled.le x (List.mem_cons_of_mem _ (List.mem_singleton_self x))

/-- A register that forgets what it held has the last write. -/
theorem register_last (h : ∀ held x, settle held x = x) :
    register settle held xs = xs.getLast?.or held := by
  induction xs using List.reverseRecOn with
  | nil => rfl
  | append_singleton xs x => rw [register_concat, h, List.getLast?_concat, Option.some_or]

/-! ### A register inside a state -/

section Read
variable {σ ι : Type} {step : σ → ι → σ} (read : σ → Option α) (writes : ι → List α)

/-- A loop whose steps write to a register. -/
theorem read_foldl (h : ∀ s i, read (step s i) = register settle (read s) (writes i)) (is : List ι) :
    ∀ s, read (is.foldl step s) = register settle (read s) (is.flatMap writes) := by
  induction is with
  | nil => intro s; rfl
  | cons i is ih =>
    intro s
    rw [List.foldl_cons, ih, h, List.flatMap_cons, register_append]

variable {step : σ → α → σ} (mine : α → Bool)

/-- A loop over rows, some of which are written to the register. -/
theorem read_foldl_filter (hmine : ∀ s a, mine a = true → read (step s a) = some (settle (read s) a))
    (hother : ∀ s a, mine a = false → read (step s a) = read s) (as : List α) (s : σ) :
    read (as.foldl step s) = register settle (read s) (as.filter mine) := by
  induction as generalizing s with
  | nil => rfl
  | cons a as ih =>
    rw [List.foldl_cons, ih]
    cases hm : mine a with
    | false => rw [hother s a hm, List.filter_cons_of_neg (by simp [hm])]
    | true =>
      rw [hmine s a hm, List.filter_cons_of_pos hm]
      rfl

end Read

end Register

end AiManager.Lib
