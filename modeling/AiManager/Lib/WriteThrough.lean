import AiManager.Lib.Run

/-! # Stores that are written through

A store in memory that saves a snapshot after the operations that change it, and is restored from the last one when it
is started again. `Journal` is such a store, with states that answer the same for one another as a setoid. With
restarts it does what `TwoVersions` does, which goes back to the state that was saved last (`journal_simulates`); and
as long as no save fails, nobody sees a restart (`restarts_unseen`). -/

namespace AiManager.Lib

/-- States `σ`, snapshots `δ` made at times `τ`, operations `ο` and their replies `ρ`. -/
structure Journal (σ δ τ ο ρ : Type) where
  fresh : σ
  apply : σ → ο → ρ × σ
  /-- whether the operation saves -/
  saves : σ → ο → Bool
  exported : σ → τ → δ
  restored : δ → σ

/-- An operation, with the time of its save unless that fails, or a restart. -/
inductive JournalStep (τ ο : Type) where
  | op (o : ο) (saved : Option τ)
  | restart

def JournalStep.saved {τ ο : Type} : JournalStep τ ο → Bool
  | .op _ saved => saved.isSome
  | .restart => true

/-- A store, its snapshot, and the replies, newest first. -/
structure Journaled (σ δ ρ : Type) where
  mem : σ
  disk : Option δ
  replies : List ρ

/-- A store with the state that was saved last. -/
structure TwoVersions (σ ρ : Type) where
  current : σ
  saved : σ
  replies : List ρ

namespace Journal
variable {σ δ τ ο ρ : Type} (J : Journal σ δ τ ο ρ)

def boot (disk : Option δ) : σ :=
  match disk with
  | none => J.fresh
  | some snapshot => J.restored snapshot

def start : Journaled σ δ ρ := ⟨J.fresh, none, []⟩

def step (s : Journaled σ δ ρ) : JournalStep τ ο → Journaled σ δ ρ
  | .op o saved =>
    let (r, mem) := J.apply s.mem o
    ⟨mem, if J.saves s.mem o then (saved.map (J.exported mem)).or s.disk else s.disk, r :: s.replies⟩
  | .restart => { s with mem := J.boot s.disk }

def startVersions : TwoVersions σ ρ := ⟨J.fresh, J.fresh, []⟩

def stepVersions (s : TwoVersions σ ρ) : JournalStep τ ο → TwoVersions σ ρ
  | .op o saved =>
    let (r, current) := J.apply s.current o
    ⟨current, if J.saves s.current o && saved.isSome then current else s.saved, r :: s.replies⟩
  | .restart => { s with current := s.saved }

/-- The operations one after the other, without a restart. -/
def plain (s : σ × List ρ) : JournalStep τ ο → σ × List ρ
  | .op o _ =>
    let (r, mem) := J.apply s.1 o
    (mem, r :: s.2)
  | .restart => s

/-- What is known of a store: its operations do not tell states that are alike, what it restores is like what it
exported, and what it does not save is not changed. -/
structure Lawful [Setoid σ] (I : σ → Prop) : Prop where
  fresh : I J.fresh
  keeps : ∀ s o, I s → I (J.apply s o).2
  restores : ∀ s now, I s → I (J.restored (J.exported s now))
  round_trip : ∀ s now, I s → J.restored (J.exported s now) ≈ s
  apply_congr : ∀ s t o, s ≈ t → (J.apply s o).1 = (J.apply t o).1 ∧ (J.apply s o).2 ≈ (J.apply t o).2
  saves_congr : ∀ s t o, s ≈ t → J.saves s o = J.saves t o
  clean : ∀ s o, J.saves s o = false → (J.apply s o).2 ≈ s

section Lawful
variable {J} [Setoid σ] {I : σ → Prop}

/-- The store and its two versions. -/
structure Simulates (J : Journal σ δ τ ο ρ) (I : σ → Prop) (s : Journaled σ δ ρ) (v : TwoVersions σ ρ) : Prop where
  mem : s.mem ≈ v.current
  disk : J.boot s.disk ≈ v.saved
  replies : s.replies = v.replies
  inv : I s.mem
  inv_disk : I (J.boot s.disk)

theorem Lawful.simulates_start (hJ : J.Lawful I) : Simulates J I J.start J.startVersions :=
  ⟨Setoid.refl _, Setoid.refl _, rfl, hJ.fresh, hJ.fresh⟩

theorem Lawful.simulates_step (hJ : J.Lawful I) {s : Journaled σ δ ρ} {v : TwoVersions σ ρ} (h : Simulates J I s v)
    (x : JournalStep τ ο) : Simulates J I (J.step s x) (J.stepVersions v x) := by
  cases x with
  | restart => exact ⟨h.disk, h.disk, h.replies, h.inv_disk, h.inv_disk⟩
  | op o saved =>
    obtain ⟨hreply, hnext⟩ := hJ.apply_congr _ _ o h.mem
    have hinv := hJ.keeps _ o h.inv
    have hsaves := hJ.saves_congr _ _ o h.mem
    have hreplies : (J.apply s.mem o).1 :: s.replies = (J.apply v.current o).1 :: v.replies := by
      rw [hreply, h.replies]
    unfold step stepVersions
    dsimp only
    rw [hsaves]
    cases J.saves v.current o with
    | false => exact ⟨hnext, h.disk, hreplies, hinv, h.inv_disk⟩
    | true =>
      cases saved with
      | none => exact ⟨hnext, h.disk, hreplies, hinv, h.inv_disk⟩
      | some now => exact ⟨hnext, Setoid.trans (hJ.round_trip _ now hinv) hnext, hreplies, hinv, hJ.restores _ now hinv⟩

/-- **Restarts.** The store replies as one that goes back to the state that was saved last. -/
theorem Lawful.journal_simulates (hJ : J.Lawful I) (xs : List (JournalStep τ ο)) :
    Simulates J I (runFrom J.step J.start xs) (runFrom J.stepVersions J.startVersions xs) := by
  have hrun : ∀ {s v}, Simulates J I s v → Simulates J I (runFrom J.step s xs) (runFrom J.stepVersions v xs) := by
    induction xs with
    | nil => exact fun h => h
    | cons x xs ih => exact fun h => ih (hJ.simulates_step h x)
  exact hrun hJ.simulates_start

/-- No save fails. -/
def AllSaved (xs : List (JournalStep τ ο)) : Prop := ∀ x ∈ xs, x.saved = true

instance (xs : List (JournalStep τ ο)) : Decidable (AllSaved xs) := inferInstanceAs (Decidable (∀ x ∈ xs, x.saved = true))

/-- What is saved is up to date. -/
structure UpToDate (v : TwoVersions σ ρ) (p : σ × List ρ) : Prop where
  current : v.current ≈ p.1
  saved : v.saved ≈ p.1
  replies : v.replies = p.2

theorem Lawful.upToDate_step (hJ : J.Lawful I) {v : TwoVersions σ ρ} {p : σ × List ρ} (h : UpToDate v p)
    {x : JournalStep τ ο} (hx : x.saved = true) :
    UpToDate (J.stepVersions v x) (J.plain p x) := by
  cases x with
  | restart => exact ⟨h.saved, h.saved, h.replies⟩
  | op o saved =>
    obtain ⟨hreply, hnext⟩ := hJ.apply_congr _ _ o h.current
    have hreplies : (J.apply v.current o).1 :: v.replies = (J.apply p.1 o).1 :: p.2 := by
      rw [hreply, h.replies]
    unfold stepVersions plain
    dsimp only
    rw [show saved.isSome = true from hx, Bool.and_true]
    split_ifs with hsaves
    · exact ⟨hnext, hnext, hreplies⟩
    · -- nothing has changed
      have hclean := hJ.clean _ o (Bool.not_eq_true _ ▸ hsaves)
      refine ⟨hnext, ?_, hreplies⟩
      exact Setoid.trans h.saved (Setoid.trans (Setoid.symm h.current) (Setoid.trans (Setoid.symm hclean) hnext))

/-- **No restart is seen** as long as no save fails. -/
theorem Lawful.restarts_unseen (hJ : J.Lawful I) {xs : List (JournalStep τ ο)} (hsaved : AllSaved xs) :
    (runFrom J.step J.start xs).mem ≈ (runFrom J.plain (J.fresh, []) xs).1 ∧
      (runFrom J.step J.start xs).replies = (runFrom J.plain (J.fresh, []) xs).2 := by
  have hrun : ∀ {v p}, UpToDate v p → UpToDate (runFrom J.stepVersions v xs) (runFrom J.plain p xs) := by
    induction xs with
    | nil => exact fun h => h
    | cons x xs ih =>
      intro v p h
      have hstep := hJ.upToDate_step h (hsaved x List.mem_cons_self)
      exact ih (fun y hy => hsaved y (List.mem_cons_of_mem _ hy)) hstep
  have hsim := hJ.journal_simulates xs
  have huptodate := hrun (v := J.startVersions) (p := (J.fresh, [])) ⟨Setoid.refl _, Setoid.refl _, rfl⟩
  exact ⟨Setoid.trans hsim.mem huptodate.current, hsim.replies.trans huptodate.replies⟩

end Lawful

end Journal

end AiManager.Lib
