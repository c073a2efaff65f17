import Mathlib.Data.List.Basic
import Mathlib.Tactic.Common

/-! # One task and the locks it holds

A task that takes shared and exclusive locks, none of them reentrant. The state carries the
*guards* the task has not dropped yet; asking for a lock that one of them excludes is the one way a
task can block itself, and ends the run with the lock asked for.

Guards live as long as the variable that binds them, so a function of the source is written with
`acquire` where a guard is born and `release` where its scope ends; `held` is the common case of a
guard that lives exactly as long as a block.

Reasoning is by `Quiet`: from given guards the task completes, hands the same guards back, and
keeps an invariant of the data. `Quiet` composes; the interesting places of a development are those
where it fails. -/

namespace AiManager.Lib

inductive Mode where
  | shared
  | exclusive
  deriving DecidableEq, Repr

/-- The guards of a task that are still alive. -/
abbrev Guards (L : Type) := List (L × Mode)

/-- Some live guard makes a request for `l` in mode `m` wait. -/
def Guards.excludes {L : Type} [DecidableEq L] (g : Guards L) (l : L) (m : Mode) : Bool :=
  g.any fun h => decide (h.1 = l) && (decide (m = .exclusive) || decide (h.2 = .exclusive))

/-- A task over locks `L` and data `σ`. An error is the request it blocks on forever. -/
abbrev Task (L σ α : Type) := StateT (Guards L × σ) (Except (L × Mode)) α

/-- How the keys of a sharded map are spread over its shards. -/
structure Sharding (K : Type) where
  count : ℕ
  shard : K → ℕ
  shard_lt : ∀ k, shard k < count

namespace Task
variable {L σ α β : Type}

def acquire [DecidableEq L] (l : L) (m : Mode) : Task L σ Unit := fun (g, s) =>
  if g.excludes l m then .error (l, m) else .ok ((), ((l, m) :: g, s))

def release [DecidableEq L] (l : L) (m : Mode) : Task L σ Unit := fun (g, s) =>
  .ok ((), (g.erase (l, m), s))

def look (f : σ → α) : Task L σ α := fun (g, s) => .ok (f s, (g, s))

def change (f : σ → σ) : Task L σ Unit := fun (g, s) => .ok ((), (g, f s))

/-- A guard that lives as long as `body`. -/
def held [DecidableEq L] (l : L) (m : Mode) (body : Task L σ α) : Task L σ α := do
  acquire l m
  let a ← body
  release l m
  return a

/-- What the visits of a list yield, one after the other. -/
def collect (visit : β → Task L σ (List α)) : List β → Task L σ (List α)
  | [] => return []
  | b :: bs => do
    let xs ← visit b
    let ys ← collect visit bs
    return xs ++ ys

/-- Iteration over a sharded map: the shards are read one after the other, each under its own
guard. -/
def iterShards [DecidableEq L] (lock : ℕ → L) (count : ℕ) (visit : ℕ → Task L σ (List α)) :
    Task L σ (List α) :=
  collect (fun i => held (lock i) .shared (visit i)) (List.range count)

/-- The task returns: at no point does it wait for a lock that it holds itself. -/
def Completes (t : Task L σ α) (s : σ) : Prop := ∃ a p, t ([], s) = .ok (a, p)

instance (t : Task L σ α) (s : σ) : Decidable (t.Completes s) :=
  match h : t ([], s) with
  | .ok (a, p) => .isTrue ⟨a, p, h⟩
  | .error e => .isFalse (by rintro ⟨a, p, h'⟩; rw [h] at h'; cases h')

/-! ## Equations -/

@[simp] theorem pure_apply (a : α) (p : Guards L × σ) :
    (pure a : Task L σ α) p = .ok (a, p) := rfl

theorem bind_apply (t : Task L σ α) (f : α → Task L σ β) (p : Guards L × σ) :
    (t >>= f) p = (t p).bind fun x => f x.1 x.2 := rfl

theorem bind_ok {t : Task L σ α} {f : α → Task L σ β} {p p' : Guards L × σ} {a : α}
    (h : t p = .ok (a, p')) : (t >>= f) p = f a p' := by
  rw [bind_apply, h]; rfl

theorem bind_error {t : Task L σ α} {f : α → Task L σ β} {p : Guards L × σ} {e : L × Mode}
    (h : t p = .error e) : (t >>= f) p = .error e := by
  rw [bind_apply, h]; rfl

theorem acquire_free [DecidableEq L] {g : Guards L} {l : L} {m : Mode}
    (h : g.excludes l m = false) (s : σ) : acquire l m (g, s) = .ok ((), ((l, m) :: g, s)) := by
  simp [acquire, h]

theorem acquire_blocked [DecidableEq L] {g : Guards L} {l : L} {m : Mode}
    (h : g.excludes l m = true) (s : σ) : acquire l m (g, s) = .error (l, m) := by
  simp [acquire, h]

@[simp] theorem release_apply [DecidableEq L] (l : L) (m : Mode) (g : Guards L) (s : σ) :
    release l m (g, s) = .ok ((), (g.erase (l, m), s)) := rfl

@[simp] theorem look_apply (f : σ → α) (g : Guards L) (s : σ) :
    (look f : Task L σ α) (g, s) = .ok (f s, (g, s)) := rfl

@[simp] theorem change_apply (f : σ → σ) (g : Guards L) (s : σ) :
    (change f : Task L σ Unit) (g, s) = .ok ((), (g, f s)) := rfl

@[simp] theorem excludes_nil [DecidableEq L] (l : L) (m : Mode) :
    Guards.excludes ([] : Guards L) l m = false := rfl

theorem excludes_cons [DecidableEq L] (h : L × Mode) (g : Guards L) (l : L) (m : Mode) :
    Guards.excludes (h :: g) l m =
      ((decide (h.1 = l) && (decide (m = .exclusive) || decide (h.2 = .exclusive)))
        || Guards.excludes g l m) := by
  simp [Guards.excludes]

/-- A guard on another lock does not get in the way. -/
theorem excludes_cons_of_ne [DecidableEq L] {h : L × Mode} {g : Guards L} {l : L} {m : Mode}
    (hne : h.1 ≠ l) : Guards.excludes (h :: g) l m = Guards.excludes g l m := by
  simp [excludes_cons, hne]

/-- A block under a guard the task can get, whose body hands the guards back. -/
theorem held_ok [DecidableEq L] {l : L} {m : Mode} {body : Task L σ α} {g : Guards L} {s s' : σ}
    {a : α} (hfree : g.excludes l m = false)
    (hbody : body ((l, m) :: g, s) = .ok (a, ((l, m) :: g, s'))) : held l m body (g, s) = .ok (a, (g, s')) := by
  unfold held
  rw [bind_ok (acquire_free hfree s), bind_ok hbody, bind_ok (release_apply l m _ s')]
  simp

theorem held_error [DecidableEq L] {l : L} {m : Mode} {body : Task L σ α} {g : Guards L} {s : σ}
    {e : L × Mode} (hfree : g.excludes l m = false) (hbody : body ((l, m) :: g, s) = .error e) :
    held l m body (g, s) = .error e := by
  unfold held
  rw [bind_ok (acquire_free hfree s), bind_error hbody]

theorem held_blocked [DecidableEq L] {l : L} {m : Mode} {body : Task L σ α} {g : Guards L}
    (h : g.excludes l m = true) (s : σ) : held l m body (g, s) = .error (l, m) := by
  unfold held
  exact bind_error (acquire_blocked h s)

@[simp] theorem forM_nil (f : β → Task L σ Unit) : ([] : List β).forM f = pure () := rfl

theorem forM_cons (f : β → Task L σ Unit) (b : β) (bs : List β) :
    (b :: bs).forM f = (f b >>= fun _ => bs.forM f) := rfl

/-- A loop each of whose rounds completes and hands the guards back is a fold of the data. -/
theorem forM_foldl {f : β → Task L σ Unit} {step : σ → β → σ} {g : Guards L}
    (h : ∀ b s, f b (g, s) = .ok ((), (g, step s b))) (bs : List β) (s : σ) :
    bs.forM f (g, s) = .ok ((), (g, bs.foldl step s)) := by
  induction bs generalizing s with
  | nil => rfl
  | cons b bs ih =>
    rw [forM_cons, bind_ok (h b s)]
    exact ih (step s b)

/-! ## Quiet tasks -/

/-- From guards `g` the task completes, hands `g` back, and keeps the invariant `I`. -/
def Quiet (I : σ → Prop) (g : Guards L) (t : Task L σ α) : Prop :=
  ∀ s, I s → ∃ a s', t (g, s) = .ok (a, (g, s')) ∧ I s'

section Quiet
variable {I : σ → Prop} {g : Guards L}

theorem quiet_pure (a : α) : Quiet I g (pure a) := fun s hs => ⟨a, s, rfl, hs⟩

theorem quiet_look (f : σ → α) : Quiet I g (look f) := fun s hs => ⟨f s, s, rfl, hs⟩

theorem quiet_change {f : σ → σ} (h : ∀ s, I s → I (f s)) : Quiet I g (change f) :=
  fun s hs => ⟨(), f s, rfl, h s hs⟩

theorem quiet_bind {t : Task L σ α} {f : α → Task L σ β} (ht : Quiet I g t)
    (hf : ∀ a, Quiet I g (f a)) : Quiet I g (t >>= f) := by
  intro s hs
  obtain ⟨a, s₁, h₁, hs₁⟩ := ht s hs
  obtain ⟨b, s₂, h₂, hs₂⟩ := hf a s₁ hs₁
  exact ⟨b, s₂, (bind_ok h₁).trans h₂, hs₂⟩

theorem quiet_held [DecidableEq L] {l : L} {m : Mode} {body : Task L σ α}
    (hfree : g.excludes l m = false) (hbody : Quiet I ((l, m) :: g) body) :
    Quiet I g (held l m body) := by
  intro s hs
  obtain ⟨a, s', h, hs'⟩ := hbody s hs
  exact ⟨a, s', held_ok hfree h, hs'⟩

theorem quiet_collect {visit : β → Task L σ (List α)} {bs : List β}
    (h : ∀ b ∈ bs, Quiet I g (visit b)) : Quiet I g (collect visit bs) := by
  induction bs with
  | nil => exact quiet_pure []
  | cons b bs ih =>
    have hrest := ih fun c hc => h c (List.mem_cons_of_mem _ hc)
    exact quiet_bind (h b List.mem_cons_self) fun xs =>
      quiet_bind hrest fun ys => quiet_pure (xs ++ ys)

theorem quiet_iterShards [DecidableEq L] {lock : ℕ → L} {count : ℕ}
    {visit : ℕ → Task L σ (List α)}
    (hfree : ∀ i < count, g.excludes (lock i) .shared = false)
    (hvisit : ∀ i < count, Quiet I ((lock i, .shared) :: g) (visit i)) :
    Quiet I g (iterShards lock count visit) :=
  quiet_collect fun i hi =>
    quiet_held (hfree i (List.mem_range.mp hi)) (hvisit i (List.mem_range.mp hi))

/-- An iteration that reaches a shard the task has locked exclusively blocks there, provided the
visits before it are quiet. -/
theorem iterShards_blocked [DecidableEq L] {lock : ℕ → L} {count k : ℕ}
    {visit : ℕ → Task L σ (List α)} (hk : k < count)
    (hself : g.excludes (lock k) .shared = true)
    (hvisit : ∀ i, g.excludes (lock i) .shared = false → Quiet I ((lock i, .shared) :: g) (visit i))
    {s : σ} (hs : I s) : ∃ e, iterShards lock count visit (g, s) = .error e := by
  suffices h : ∀ (is : List ℕ) (s : σ), I s → k ∈ is →
      ∃ e, collect (fun i => held (lock i) .shared (visit i)) is (g, s) = .error e from
    h _ s hs (List.mem_range.mpr hk)
  intro is
  induction is with
  | nil => intro s _ hmem; cases hmem
  | cons i is ih =>
    intro s hs hmem
    cases hi : g.excludes (lock i) .shared with
    | true => exact ⟨_, bind_error (held_blocked hi s)⟩
    | false =>
      have hne : k ≠ i := by
        rintro rfl
        rw [hself] at hi
        cases hi
      obtain ⟨a, s', h, hs'⟩ := quiet_held hi (hvisit i hi) s hs
      obtain ⟨e, he⟩ := ih s' hs' ((List.mem_cons.mp hmem).resolve_left hne)
      exact ⟨e, (bind_ok h).trans (bind_error he)⟩

end Quiet

end Task

end AiManager.Lib
