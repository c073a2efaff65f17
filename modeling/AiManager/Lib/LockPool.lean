import AiManager.Lib.Prog

/-! # Pools whose programs take locks

Locks with one holder, none of them reentrant. A program asks for a lock with a call of its own, which is
possible only while nobody holds it; every other call can always be made. A pool is deadlocked if somebody has not
returned and nobody can make a call. Programs that follow a `discipline`, which says what lock may be asked for
under which others, and that give back what they take, are deadlocked only if each of them waits for a lock that
another of them holds (`Deadlocked.waits`, `Deadlocked.holder`). -/

namespace AiManager.Lib

/-- What a call has to do with the locks. -/
inductive LockAct (L : Type) where
  | take (l : L)
  | give (l : L)
  | free

/-- Services some of whose calls take and give back locks. -/
structure Locking (Op : Type) (Res : Op → Type) (σ χ L : Type) [DecidableEq L] where
  answer : Answer Op Res σ χ
  act : Op → LockAct L
  held : σ → L → Bool
  taken : ∀ {c op r s s' l}, act op = .take l → answer c op s = some (r, s') →
    held s l = false ∧ held s' = Function.update (held s) l true
  given : ∀ {c op r s s' l}, act op = .give l → answer c op s = some (r, s') →
    held s' = Function.update (held s) l false
  untouched : ∀ {c op r s s'}, act op = .free → answer c op s = some (r, s') → held s' = held s
  possible : ∀ op s, (∀ l, act op = .take l → held s l = false) → ∃ c r s', answer c op s = some (r, s')

namespace Locking
variable {Op : Type} {Res : Op → Type} {σ χ L ι α : Type} [DecidableEq L] (K : Locking Op Res σ χ L)

/-- The call can be made, for some choice. -/
def CanStep (pool : Pool ι Op Res σ α) (i : ι) : Prop :=
  ∃ op k c r s, pool.threads i = .call op k ∧ K.answer c op pool.shared = some (r, s)

/-- Somebody has not returned, and nobody can go on. -/
def Deadlocked (pool : Pool ι Op Res σ α) : Prop := (∃ i, ¬ pool.Returned i) ∧ ∀ i, ¬ K.CanStep pool i

/-- The locks that a program holds, and what it may ask for. -/
def monitor (discipline : List L → L → Prop) : Monitor Op Res (List L) where
  next q op _ :=
    match K.act op with
    | .take l => l :: q
    | .give l => q.erase l
    | .free => q
  allows q op := ∀ l, K.act op = .take l → discipline q l
  replies _ _ := True

variable {K} {discipline : List L → L → Prop} {pool : Pool ι Op Res σ α}

/-! ### Deadlocks -/

theorem not_canStep_of_held {i : ι} {op : Op} {k : Res op → Prog Op Res α} {l : L}
    (hk : pool.threads i = .call op k) (hact : K.act op = .take l) (hheld : K.held pool.shared l = true) :
    ¬ K.CanStep pool i := by
  rintro ⟨op', k', c, r, s, hk', hs⟩
  rw [hk] at hk'
  cases hk'
  rw [(K.taken hact hs).1] at hheld
  cases hheld

theorem not_canStep_of_returned {i : ι} {a : α} (h : pool.threads i = .pure a) : ¬ K.CanStep pool i := by
  rintro ⟨op, k, c, r, s, hk, -⟩
  rw [h] at hk
  cases hk

/-- In a deadlock, whoever has not returned asks for a lock that is held. -/
theorem Deadlocked.waits (h : K.Deadlocked pool) {i : ι} (hi : ¬ pool.Returned i) :
    ∃ op k l, pool.threads i = .call op k ∧ K.act op = .take l ∧ K.held pool.shared l = true := by
  cases hk : pool.threads i with
  | pure a => exact absurd ⟨a, hk⟩ hi
  | call op k =>
    by_contra hfree
    push Not at hfree
    have hpossible : ∀ l, K.act op = .take l → K.held pool.shared l = false := by
      intro l hact
      exact Bool.eq_false_iff.mpr fun hheld => hfree op k l rfl hact hheld
    obtain ⟨c, r, s, hs⟩ := K.possible op pool.shared hpossible
    exact h.2 i ⟨op, k, c, r, s, hk, hs⟩

variable [DecidableEq ι]

/-- The locks that program `i` holds. -/
def holds (K : Locking Op Res σ χ L) (pool : Pool ι Op Res σ α) (i : ι) : List L :=
  watch (K.monitor fun _ _ => True).next [] i pool.trace

/-- A lock that is held is held by some program. -/
def HasHolders (K : Locking Op Res σ χ L) (pool : Pool ι Op Res σ α) : Prop :=
  ∀ l, K.held pool.shared l = true → ∃ i, l ∈ K.holds pool i

theorem holds_after_self (i : ι) (op : Op) (r : Res op) (k : Res op → Prog Op Res α) (s : σ) :
    K.holds (pool.after i op r k s) i = match K.act op with
      | .take l => l :: K.holds pool i
      | .give l => (K.holds pool i).erase l
      | .free => K.holds pool i := by
  unfold holds
  rw [Pool.after_trace, watch_cons_self]
  rfl

theorem holds_after_ne {i j : ι} (hj : j ≠ i) (op : Op) (r : Res op) (k : Res op → Prog Op Res α) (s : σ) :
    K.holds (pool.after i op r k s) j = K.holds pool j := by
  unfold holds
  rw [Pool.after_trace, watch_cons_ne _ _ (Ne.symm hj)]

/-- What is held goes on being held, but for what the step gives back. -/
theorem mem_holds_after {i j : ι} {l : L} {op : Op} (r : Res op) (k : Res op → Prog Op Res α) (s : σ)
    (hl : l ∈ K.holds pool j) (hgive : K.act op ≠ .give l) : l ∈ K.holds (pool.after i op r k s) j := by
  by_cases hj : j = i
  · subst hj
    rw [holds_after_self]
    cases hact : K.act op with
    | take l' => exact List.mem_cons_of_mem _ hl
    | give l' =>
      refine (List.mem_erase_of_ne ?_).mpr hl
      rintro rfl
      exact hgive hact
    | free => exact hl
  · rw [holds_after_ne hj]
    exact hl

/-- **One step** keeps the holders. -/
theorem hasHolders_after (h : K.HasHolders pool) {i : ι} {c : χ} {op : Op} {r : Res op} {s : σ}
    (k : Res op → Prog Op Res α) (hs : K.answer c op pool.shared = some (r, s)) :
    K.HasHolders (pool.after i op r k s) := by
  intro l hl
  rw [Pool.after_shared] at hl
  cases hact : K.act op with
  | take l' =>
    rw [(K.taken hact hs).2] at hl
    by_cases hll : l = l'
    · refine ⟨i, ?_⟩
      rw [holds_after_self, hact, hll]
      exact List.mem_cons_self
    · rw [Function.update_of_ne hll] at hl
      obtain ⟨j, hj⟩ := h l hl
      exact ⟨j, mem_holds_after r k s hj (by rw [hact]; nofun)⟩
  | give l' =>
    rw [K.given hact hs] at hl
    by_cases hll : l = l'
    · rw [hll, Function.update_self] at hl
      cases hl
    · rw [Function.update_of_ne hll] at hl
      obtain ⟨j, hj⟩ := h l hl
      refine ⟨j, mem_holds_after r k s hj ?_⟩
      rw [hact]
      rintro ⟨⟩
      exact hll rfl
  | free =>
    rw [K.untouched hact hs] at hl
    obtain ⟨j, hj⟩ := h l hl
    exact ⟨j, mem_holds_after r k s hj (by rw [hact]; nofun)⟩

/-- No lock has two holders. -/
structure Exclusive (K : Locking Op Res σ χ L) (pool : Pool ι Op Res σ α) : Prop where
  held : ∀ {i l}, l ∈ K.holds pool i → K.held pool.shared l = true
  unique : ∀ {i j l}, l ∈ K.holds pool i → l ∈ K.holds pool j → i = j
  nodup : ∀ i, (K.holds pool i).Nodup

/-- What somebody else holds is not what is taken, nor what is given back. -/
theorem mem_holds_of_after {i j : ι} {l : L} {op : Op} {r : Res op} {k : Res op → Prog Op Res α} {s : σ}
    (hl : l ∈ K.holds (pool.after i op r k s) j) : l ∈ K.holds pool j ∨ (j = i ∧ K.act op = .take l) := by
  by_cases hj : j = i
  · subst hj
    rw [holds_after_self] at hl
    cases hact : K.act op with
    | take l' =>
      rw [hact] at hl
      rcases List.mem_cons.mp hl with rfl | hold
      · exact .inr ⟨rfl, rfl⟩
      · exact .inl hold
    | give l' =>
      rw [hact] at hl
      exact .inl (List.mem_of_mem_erase hl)
    | free =>
      rw [hact] at hl
      exact .inl hl
  · rw [holds_after_ne hj] at hl
    exact .inl hl

section Exclusive
variable {i j : ι} {l : L} {c : χ} {op : Op} {r : Res op} {s : σ}

theorem Exclusive.not_mem_of_take (h : K.Exclusive pool) (hs : K.answer c op pool.shared = some (r, s))
    (hact : K.act op = .take l) : l ∉ K.holds pool j := by
  intro hl
  have hheld := h.held hl
  rw [(K.taken hact hs).1] at hheld
  cases hheld

theorem Exclusive.held_after (h : K.Exclusive pool) (k : Res op → Prog Op Res α)
    (hs : K.answer c op pool.shared = some (r, s)) (hgive : ∀ l, K.act op = .give l → l ∈ K.holds pool i)
    (hl : l ∈ K.holds (pool.after i op r k s) j) : K.held s l = true := by
  cases hact : K.act op with
  | take l' =>
    rw [(K.taken hact hs).2]
    rcases mem_holds_of_after hl with hold | ⟨-, htaken⟩
    · rw [Function.update_of_ne (by rintro rfl; exact h.not_mem_of_take hs hact hold)]
      exact h.held hold
    · rw [hact] at htaken
      cases htaken
      exact Function.update_self ..
  | give l' =>
    have hold : l ∈ K.holds pool j := (mem_holds_of_after hl).resolve_right (by rw [hact]; nofun)
    have hne : l ≠ l' := by
      rintro rfl
      obtain rfl := h.unique hold (hgive l hact)
      rw [holds_after_self, hact] at hl
      exact (h.nodup j).not_mem_erase hl
    rw [K.given hact hs, Function.update_of_ne hne]
    exact h.held hold
  | free =>
    rw [K.untouched hact hs]
    exact h.held ((mem_holds_of_after hl).resolve_right (by rw [hact]; nofun))

/-- **One step** of a program that gives back what is its own leaves each lock to one holder. -/
theorem exclusive_after (h : K.Exclusive pool) (k : Res op → Prog Op Res α)
    (hs : K.answer c op pool.shared = some (r, s)) (hgive : ∀ l, K.act op = .give l → l ∈ K.holds pool i) :
    K.Exclusive (pool.after i op r k s) := by
  refine ⟨fun hl => h.held_after k hs hgive hl, fun {j j' l} hl hl' => ?_, fun j => ?_⟩
  · rcases mem_holds_of_after hl with hold | ⟨rfl, htaken⟩ <;>
      rcases mem_holds_of_after hl' with hold' | ⟨rfl, htaken'⟩
    · exact h.unique hold hold'
    · exact absurd hold (h.not_mem_of_take hs htaken')
    · exact absurd hold' (h.not_mem_of_take hs htaken)
    · rfl
  · by_cases hj : j = i
    · subst hj
      rw [holds_after_self]
      cases hact : K.act op with
      | take l' => exact List.nodup_cons.mpr ⟨h.not_mem_of_take hs hact, h.nodup j⟩
      | give l' => exact (h.nodup j).erase l'
      | free => exact h.nodup j
    · rw [holds_after_ne hj]
      exact h.nodup j

end Exclusive

/-- The programs follow the discipline and return without a lock. -/
abbrev Disciplined (K : Locking Op Res σ χ L) (discipline : List L → L → Prop) (pool : Pool ι Op Res σ α) : Prop :=
  pool.Tracks (K.monitor discipline) (fun _ _ q => q = []) fun _ => []

/-- Whoever holds a lock has not returned. -/
theorem Disciplined.not_returned (h : K.Disciplined discipline pool) {i : ι} {l : L} (hl : l ∈ K.holds pool i) :
    ¬ pool.Returned i := by
  rintro ⟨a, ha⟩
  have hnone : K.holds pool i = [] := h.post_of_returned ha
  rw [hnone] at hl
  cases hl

theorem Disciplined.asks (h : K.Disciplined discipline pool) {i : ι} {op : Op} {k : Res op → Prog Op Res α} {l : L}
    (hk : pool.threads i = .call op k) (hact : K.act op = .take l) : discipline (K.holds pool i) l :=
  h.allows hk l hact

/-- In a deadlock, the lock that somebody waits for is held by somebody else who waits, too. -/
theorem Deadlocked.holder (h : K.Deadlocked pool) (hdisc : K.Disciplined discipline pool)
    (hholders : K.HasHolders pool) {l : L} (hl : K.held pool.shared l = true) :
    ∃ j op k l', l ∈ K.holds pool j ∧ pool.threads j = .call op k ∧ K.act op = .take l' ∧
      K.held pool.shared l' = true ∧ discipline (K.holds pool j) l' := by
  obtain ⟨j, hj⟩ := hholders l hl
  obtain ⟨op, k, l', hk, hact, hheld⟩ := h.waits (hdisc.not_returned hj)
  exact ⟨j, op, k, l', hj, hk, hact, hheld, hdisc.asks hk hact⟩

end Locking

end AiManager.Lib
