import Mathlib.Data.List.Basic

/-! # Fields behind marks

Fields written one after the other, each behind a mark that says what comes. A field may hold what reads like a mark,
and then other fields are written alike: there is a first place where one of them runs over the end of the other and
the mark that follows it, and from there on the rest fits (`writeMarked_eq_iff`). -/

namespace AiManager.Lib

section Marked
variable {α : Type} {ps qs : List (List α × List α)}

def writeMarked (ps : List (List α × List α)) : List α := ps.flatMap fun p => p.1 ++ p.2

/-- Field by field the same, but that a field may hold the end of the one beside it and the mark after that; then
what is left of it stands beside the next one. -/
inductive Fits : List (List α × List α) → List (List α × List α) → Prop
  | nil : Fits [] []
  | same (p : List α × List α) {ps qs} : Fits ps qs → Fits (p :: ps) (p :: qs)
  | right (m f m' f' g : List α) {ps qs} : Fits ((m', f') :: ps) ((m', g) :: qs) →
      Fits ((m, f) :: (m', f') :: ps) ((m, f ++ (m' ++ g)) :: qs)
  | left (m f m' f' g : List α) {ps qs} : Fits ((m', g) :: ps) ((m', f') :: qs) →
      Fits ((m, f ++ (m' ++ g)) :: ps) ((m, f) :: (m', f') :: qs)

/-- Behind fields that are the same, one runs over the end of the other, and the rest fits. -/
inductive RunsOver : List (List α × List α) → List (List α × List α) → Prop
  | right (m f m' f' g : List α) {ps qs} : Fits ((m', f') :: ps) ((m', g) :: qs) →
      RunsOver ((m, f) :: (m', f') :: ps) ((m, f ++ (m' ++ g)) :: qs)
  | left (m f m' f' g : List α) {ps qs} : Fits ((m', g) :: ps) ((m', f') :: qs) →
      RunsOver ((m, f ++ (m' ++ g)) :: ps) ((m, f) :: (m', f') :: qs)
  | later (p : List α × List α) {ps qs} : RunsOver ps qs → RunsOver (p :: ps) (p :: qs)

/-- Marks that can be told from each other and from where they begin. -/
structure Marks (M : List α → Prop) (start : α → Prop) : Prop where
  begins : ∀ {m}, M m → ∃ c t, m = c :: t ∧ start c ∧ ∀ x ∈ t, ¬ start x
  distinct : ∀ {m m'}, M m → M m' → m <+: m' → m = m'

@[simp] theorem writeMarked_nil : writeMarked ([] : List (List α × List α)) = [] := rfl

theorem writeMarked_cons (m f : List α) (ps : List (List α × List α)) :
    writeMarked ((m, f) :: ps) = m ++ (f ++ writeMarked ps) := by
  rw [← List.append_assoc]
  rfl

theorem writeMarked_append (ps qs : List (List α × List α)) :
    writeMarked (ps ++ qs) = writeMarked ps ++ writeMarked qs := List.flatMap_append

theorem writeMarked_flatMap {β : Type} (f : β → List (List α × List α)) (bs : List β) :
    writeMarked (bs.flatMap f) = bs.flatMap fun b => writeMarked (f b) := List.flatMap_assoc

theorem Fits.refl (ps : List (List α × List α)) : Fits ps ps := by
  induction ps with
  | nil => exact .nil
  | cons p ps ih => exact .same p ih

/-- Fields that fit are written alike. -/
theorem Fits.write_eq (h : Fits ps qs) : writeMarked ps = writeMarked qs := by
  induction h with
  | nil => rfl
  | same p _ ih =>
    obtain ⟨m, f⟩ := p
    rw [writeMarked_cons, writeMarked_cons, ih]
  | right m f m' f' g _ ih =>
    rw [writeMarked_cons m f, ih, writeMarked_cons, writeMarked_cons]
    simp only [List.append_assoc]
  | left m f m' f' g _ ih =>
    rw [writeMarked_cons m f, ← ih, writeMarked_cons, writeMarked_cons]
    simp only [List.append_assoc]

theorem RunsOver.fits (h : RunsOver ps qs) : Fits ps qs := by
  induction h with
  | right m f m' f' g h => exact .right m f m' f' g h
  | left m f m' f' g h => exact .left m f m' f' g h
  | later p _ ih => exact .same p ih

theorem Fits.symm (h : Fits ps qs) : Fits qs ps := by
  induction h with
  | nil => exact .nil
  | same p _ ih => exact .same p ih
  | right m f m' f' g _ ih => exact .left m f m' f' g ih
  | left m f m' f' g _ ih => exact .right m f m' f' g ih

theorem RunsOver.symm (h : RunsOver ps qs) : RunsOver qs ps := by
  induction h with
  | right m f m' f' g h => exact .left m f m' f' g h.symm
  | left m f m' f' g h => exact .right m f m' f' g h.symm
  | later p _ ih => exact .later p ih

theorem RunsOver.ne_nil (h : RunsOver ps qs) : ps ≠ [] ∧ qs ≠ [] := by
  cases h <;> exact ⟨List.cons_ne_nil _ _, List.cons_ne_nil _ _⟩

/-- What runs over is not the same. -/
theorem RunsOver.ne (h : RunsOver ps qs) (hps : ∀ p ∈ ps, p.1 ≠ []) (hqs : ∀ q ∈ qs, q.1 ≠ []) : ps ≠ qs := by
  induction h with
  | right m f m' f' g h =>
    intro heq
    have hmark : m' ≠ [] := hps (m', f') (by simp)
    simp_all
  | left m f m' f' g h =>
    intro heq
    have hmark : m' ≠ [] := hqs (m', f') (by simp)
    simp_all
  | later p h ih =>
    intro heq
    exact ih (fun p hp => hps p (List.mem_cons_of_mem _ hp)) (fun q hq => hqs q (List.mem_cons_of_mem _ hq))
      (List.cons.inj heq).2

/-- Behind one mark stands the same field, or a field that holds the mark which follows the other. -/
theorem RunsOver.cons_cases {m m' f f' : List α} (h : RunsOver ((m, f) :: ps) ((m', f') :: qs)) :
    m = m' ∧ (RunsOver ps qs ∨ (∃ p ∈ ps.head?, p.1 ⊆ f') ∨ ∃ q ∈ qs.head?, q.1 ⊆ f) := by
  cases h with
  | right _ _ m₂ f₂ g h => exact ⟨rfl, .inr (.inl ⟨(m₂, f₂), rfl, by simp⟩)⟩
  | left _ _ m₂ f₂ g h => exact ⟨rfl, .inr (.inr ⟨(m₂, f₂), rfl, by simp⟩)⟩
  | later _ h => exact ⟨rfl, .inl h⟩

/-- Where neither of two fields holds what follows the other, the fields after them run over. -/
theorem RunsOver.tail {m m' f f' : List α} (h : RunsOver ((m, f) :: ps) ((m', f') :: qs)) {c : α} (hf : c ∉ f)
    (hf' : c ∉ f') (hps : ∀ p ∈ ps.head?, c ∈ p.1) (hqs : ∀ q ∈ qs.head?, c ∈ q.1) : m = m' ∧ RunsOver ps qs := by
  obtain ⟨hmark, htail | ⟨p, hp, hheld⟩ | ⟨q, hq, hheld⟩⟩ := h.cons_cases
  · exact ⟨hmark, htail⟩
  · exact absurd (hheld (hps p hp)) hf'
  · exact absurd (hheld (hqs q hq)) hf

section Marks
variable {M : List α → Prop} {start : α → Prop}

theorem Marks.ne_nil (hM : Marks M start) {m : List α} (hm : M m) : m ≠ [] := by
  obtain ⟨c, t, rfl, -⟩ := hM.begins hm
  exact List.cons_ne_nil c t

/-- One text begins with one mark. -/
theorem Marks.eq_of_append (hM : Marks M start) {m m' s s' : List α} (hm : M m) (hm' : M m')
    (h : m ++ s = m' ++ s') : m = m' := by
  rcases List.append_eq_append_iff.mp h with ⟨x, hx, -⟩ | ⟨x, hx, -⟩
  · exact hM.distinct hm hm' ⟨x, hx.symm⟩
  · exact (hM.distinct hm' hm ⟨x, hx.symm⟩).symm

/-- What stands before the rest of the fields where others begin holds a mark whole. -/
theorem Marks.overhang (hM : Marks M start) (hps : ∀ p ∈ ps, M p.1) (hqs : ∀ q ∈ qs, M q.1) {x : List α}
    (hx : x ≠ []) (h : writeMarked ps = x ++ writeMarked qs) :
    ∃ m f ps' g, ps = (m, f) :: ps' ∧ x = m ++ g ∧ writeMarked ((m, f) :: ps') = writeMarked ((m, g) :: qs) := by
  cases ps with
  | nil => exact absurd (List.append_eq_nil_iff.mp h.symm).1 hx
  | cons p ps =>
    obtain ⟨m, f⟩ := p
    refine ⟨m, f, ps, ?_⟩
    rw [writeMarked_cons] at h
    rcases List.append_eq_append_iff.mp h with ⟨g, rfl, hrest⟩ | ⟨y, hy, hrest⟩
    · exact ⟨g, rfl, rfl, by rw [writeMarked_cons, writeMarked_cons, hrest]⟩
    · cases y with
      | nil =>
        rw [List.append_nil] at hy
        refine ⟨[], rfl, by rw [hy, List.append_nil], ?_⟩
        rw [writeMarked_cons, writeMarked_cons, List.nil_append]
        exact congrArg (m ++ ·) hrest.symm
      | cons c y =>
        -- the text of `qs` would begin inside the mark
        exfalso
        cases qs with
        | nil => cases hrest
        | cons q qs =>
          obtain ⟨m', f'⟩ := q
          obtain ⟨c', t', rfl, hstart, -⟩ := hM.begins (hqs (m', f') List.mem_cons_self)
          obtain ⟨d, t, rfl, -, hinside⟩ := hM.begins (hps (m, f) List.mem_cons_self)
          rw [writeMarked_cons] at hrest
          obtain ⟨rfl, -⟩ := List.cons.inj hrest
          cases x with
          | nil => exact hx rfl
          | cons b x =>
            obtain ⟨-, rfl⟩ := List.cons.inj hy
            exact hinside c' (List.mem_append_right x List.mem_cons_self) hstart

/-- Fields that are written alike are the same, or one of them runs over another. -/
theorem Marks.eq_or_runsOver (hM : Marks M start) (hps : ∀ p ∈ ps, M p.1) (hqs : ∀ q ∈ qs, M q.1)
    (h : writeMarked ps = writeMarked qs) : ps = qs ∨ RunsOver ps qs := by
  induction hn : ps.length + qs.length using Nat.strongRecOn generalizing ps qs with
  | ind n ih =>
  -- the field on the left ends first, or both end together
  have hhalf : ∀ {m f x : List α} {ps qs : List (List α × List α)}, ps.length + qs.length + 2 = n →
      (∀ p ∈ ps, M p.1) → (∀ q ∈ qs, M q.1) → writeMarked ps = x ++ writeMarked qs →
      (m, f) :: ps = (m, f ++ x) :: qs ∨ RunsOver ((m, f) :: ps) ((m, f ++ x) :: qs) := by
    intro m f x ps qs hlt hps hqs hrest
    by_cases hx : x = []
    · subst hx
      rw [List.append_nil]
      exact (ih _ (by omega) hps hqs hrest rfl).imp (congrArg _) (.later _)
    · obtain ⟨m₂, f₂, ps', g, rfl, rfl, heq⟩ := hM.overhang hps hqs hx hrest
      have hmark : ∀ q ∈ (m₂, g) :: qs, M q.1 := List.forall_mem_cons.mpr ⟨hps (m₂, f₂) List.mem_cons_self, hqs⟩
      rw [List.length_cons] at hlt
      have hless : ((m₂, f₂) :: ps').length + ((m₂, g) :: qs).length < n := by
        rw [List.length_cons, List.length_cons]
        omega
      refine .inr (.right m f m₂ f₂ g ?_)
      rcases ih _ hless hps hmark heq rfl with hsame | hover
      · exact hsame ▸ .refl _
      · exact hover.fits
  cases ps with
  | nil =>
    cases qs with
    | nil => exact .inl rfl
    | cons q qs => exact absurd (List.append_eq_nil_iff.mp h.symm).1 (by simp [hM.ne_nil (hqs q List.mem_cons_self)])
  | cons p ps =>
    cases qs with
    | nil => exact absurd (List.append_eq_nil_iff.mp h).1 (by simp [hM.ne_nil (hps p List.mem_cons_self)])
    | cons q qs =>
      obtain ⟨m, f⟩ := p
      obtain ⟨m', f'⟩ := q
      rw [List.forall_mem_cons] at hps hqs
      rw [writeMarked_cons, writeMarked_cons] at h
      rw [List.length_cons, List.length_cons] at hn
      obtain rfl : m = m' := hM.eq_of_append hps.1 hqs.1 h
      rcases List.append_eq_append_iff.mp (List.append_cancel_left h) with ⟨x, rfl, hrest⟩ | ⟨x, rfl, hrest⟩
      · exact hhalf (by omega) hps.2 hqs.2 hrest
      · exact (hhalf (by omega) hqs.2 hps.2 hrest).imp Eq.symm RunsOver.symm

/-- Fields behind marks are written alike exactly if they are the same or one of them runs over another. -/
theorem writeMarked_eq_iff (hM : Marks M start) (hps : ∀ p ∈ ps, M p.1) (hqs : ∀ q ∈ qs, M q.1) :
    writeMarked ps = writeMarked qs ↔ ps = qs ∨ RunsOver ps qs := by
  constructor
  · exact hM.eq_or_runsOver hps hqs
  · rintro (rfl | hover)
    · rfl
    · exact hover.fits.write_eq

end Marks

end Marked

end AiManager.Lib
