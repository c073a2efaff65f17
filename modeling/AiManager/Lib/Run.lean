import Mathlib.Tactic.Common

/-! # Runs of a machine

A machine is a step function on states. `Throughout` says that a property holds in every state of a
run, the first included; `EachStep` that every step meets a condition on the state before it. The
two meet in `throughout_iff`: when, from a good state, a step leads to a good state exactly if it
meets the condition, a whole run stays good exactly if all of its steps meet it. -/

namespace AiManager.Lib

section Run
variable {σ ι : Type} (step : σ → ι → σ)

/-- The state after a run. -/
def runFrom (s : σ) (xs : List ι) : σ := xs.foldl step s

def Throughout (P : σ → Prop) (s : σ) : List ι → Prop
  | [] => P s
  | x :: xs => P s ∧ Throughout P (step s x) xs

def EachStep (C : σ → ι → Prop) (s : σ) : List ι → Prop
  | [] => True
  | x :: xs => C s x ∧ EachStep C (step s x) xs

/-- What a loop leaves alone. -/
theorem foldl_keeps {α : Type} (read : σ → α) (h : ∀ s x, read (step s x) = read s) (xs : List ι) :
    ∀ s, read (xs.foldl step s) = read s := by
  induction xs with
  | nil => intro s; rfl
  | cons x xs ih => intro s; exact (ih _).trans (h s x)

variable {step} {P : σ → Prop} {C V : σ → ι → Prop}

theorem EachStep.mono (h : ∀ s x, C s x → V s x) {s : σ} {xs : List ι}
    (hC : EachStep step C s xs) : EachStep step V s xs := by
  induction xs generalizing s with
  | nil => trivial
  | cons x xs ih => exact ⟨h s x hC.1, ih hC.2⟩

theorem EachStep.of_forall (h : ∀ s x, C s x) (s : σ) (xs : List ι) : EachStep step C s xs := by
  induction xs generalizing s with
  | nil => trivial
  | cons x xs ih => exact ⟨h s x, ih (step s x)⟩

theorem EachStep.of_mem {xs : List ι} (h : ∀ s, ∀ x ∈ xs, C s x) (s : σ) : EachStep step C s xs := by
  induction xs generalizing s with
  | nil => trivial
  | cons x xs ih =>
    refine ⟨h s x List.mem_cons_self, ih ?_ (step s x)⟩
    intro s' y hy
    exact h s' y (List.mem_cons_of_mem _ hy)

theorem EachStep.and {s : σ} {xs : List ι} (hC : EachStep step C s xs) (hV : EachStep step V s xs) :
    EachStep step (fun s x => C s x ∧ V s x) s xs := by
  induction xs generalizing s with
  | nil => trivial
  | cons x xs ih => exact ⟨⟨hC.1, hV.1⟩, ih hC.2 hV.2⟩

theorem eachStep_append {s : σ} {xs ys : List ι} :
    EachStep step C s (xs ++ ys) ↔ EachStep step C s xs ∧ EachStep step C (runFrom step s xs) ys := by
  induction xs generalizing s with
  | nil => exact ⟨fun h => ⟨trivial, h⟩, fun h => h.2⟩
  | cons x xs ih =>
    constructor
    · rintro ⟨hx, hrest⟩
      obtain ⟨hxs, hys⟩ := ih.mp hrest
      exact ⟨⟨hx, hxs⟩, hys⟩
    · rintro ⟨⟨hx, hxs⟩, hys⟩
      exact ⟨hx, ih.mpr ⟨hxs, hys⟩⟩

instance EachStep.decidable [∀ s x, Decidable (C s x)] :
    (s : σ) → (xs : List ι) → Decidable (EachStep step C s xs)
  | _, [] => inferInstanceAs (Decidable True)
  | s, x :: xs =>
    have := EachStep.decidable (step s x) xs
    inferInstanceAs (Decidable (C s x ∧ EachStep step C (step s x) xs))

instance Throughout.decidable [∀ s, Decidable (P s)] :
    (s : σ) → (xs : List ι) → Decidable (Throughout step P s xs)
  | s, [] => inferInstanceAs (Decidable (P s))
  | s, x :: xs =>
    have := Throughout.decidable (step s x) xs
    inferInstanceAs (Decidable (P s ∧ Throughout step P (step s x) xs))

theorem Throughout.head {s : σ} {xs : List ι} (h : Throughout step P s xs) : P s := by
  cases xs with
  | nil => exact h
  | cons x xs => exact h.1

theorem Throughout.last {s : σ} {xs : List ι} (h : Throughout step P s xs) :
    P (runFrom step s xs) := by
  induction xs generalizing s with
  | nil => exact h
  | cons x xs ih => exact ih h.2

/-- The invariant rule: what every step keeps that meets the condition holds throughout such a run. -/
theorem throughout_of_eachStep (hstep : ∀ s x, C s x → P s → P (step s x)) {s : σ} {xs : List ι}
    (hC : EachStep step C s xs) (hP : P s) : Throughout step P s xs := by
  induction xs generalizing s with
  | nil => exact hP
  | cons x xs ih => exact ⟨hP, ih hC.2 (hstep s x hC.1 hP)⟩

theorem Throughout.mono {P' : σ → Prop} (h : ∀ s, P s → P' s) {s : σ} {xs : List ι}
    (hP : Throughout step P s xs) : Throughout step P' s xs := by
  induction xs generalizing s with
  | nil => exact h s hP
  | cons x xs ih => exact ⟨h s hP.1, ih hP.2⟩

theorem Throughout.eachStep {s : σ} {xs : List ι} (h : Throughout step P s xs) : EachStep step (fun s _ => P s) s xs := by
  induction xs generalizing s with
  | nil => trivial
  | cons x xs ih => exact ⟨h.1, ih h.2⟩

/-- **Runs.** `V` is what is known of the steps, `C` the condition in question. -/
theorem throughout_iff (hstep : ∀ s x, V s x → P s → (P (step s x) ↔ C s x)) {s : σ} {xs : List ι}
    (hV : EachStep step V s xs) (hP : P s) : Throughout step P s xs ↔ EachStep step C s xs := by
  induction xs generalizing s with
  | nil => exact iff_of_true hP trivial
  | cons x xs ih =>
    have hx := hstep s x hV.1 hP
    constructor
    · rintro ⟨-, hrest⟩
      exact ⟨hx.mp hrest.head, (ih hV.2 hrest.head).mp hrest⟩
    · rintro ⟨hC, hrest⟩
      exact ⟨hP, (ih hV.2 (hx.mpr hC)).mpr hrest⟩

/-- The same with an invariant in the place of what is known: it is kept by every step from a good
state. -/
theorem throughout_iff_of_invariant {I : σ → Prop} (hI : ∀ s x, I s → P s → I (step s x))
    (hstep : ∀ s x, I s → P s → (P (step s x) ↔ C s x)) {s : σ} {xs : List ι} (hs : I s) (hP : P s) :
    Throughout step P s xs ↔ EachStep step C s xs := by
  induction xs generalizing s with
  | nil => exact iff_of_true hP trivial
  | cons x xs ih =>
    have hx := hstep s x hs hP
    have hnext := hI s x hs hP
    constructor
    · rintro ⟨-, hrest⟩
      exact ⟨hx.mp hrest.head, (ih hnext hrest.head).mp hrest⟩
    · rintro ⟨hC, hrest⟩
      exact ⟨hP, (ih hnext (hx.mpr hC)).mpr hrest⟩

/-- The same with a stronger property `G` that the steps under the condition keep. -/
theorem throughout_iff_of_stronger {G : σ → Prop} (hG : ∀ s, G s → P s)
    (hstep : ∀ s x, V s x → G s → C s x → G (step s x))
    (hback : ∀ s x, V s x → G s → P (step s x) → C s x) {s : σ} {xs : List ι} (hV : EachStep step V s xs)
    (hs : G s) : Throughout step P s xs ↔ EachStep step C s xs := by
  induction xs generalizing s with
  | nil => exact iff_of_true (hG s hs) trivial
  | cons x xs ih =>
    constructor
    · rintro ⟨-, hrest⟩
      have hC : C s x := hback s x hV.1 hs hrest.head
      exact ⟨hC, (ih hV.2 (hstep s x hV.1 hs hC)).mp hrest⟩
    · rintro ⟨hC, hrest⟩
      exact ⟨hG s hs, (ih hV.2 (hstep s x hV.1 hs hC)).mpr hrest⟩

/-- Two conditions on the steps of a run, when they say the same of every step from a good state and a
step that meets them leads to a good state. -/
theorem eachStep_iff {I : σ → Prop} (hstep : ∀ s x, I s → (V s x ↔ C s x))
    (hI : ∀ s x, I s → C s x → I (step s x)) {s : σ} {xs : List ι} (hs : I s) :
    EachStep step V s xs ↔ EachStep step C s xs := by
  induction xs generalizing s with
  | nil => exact Iff.rfl
  | cons x xs ih =>
    constructor
    · rintro ⟨hV, hrest⟩
      have hC := (hstep s x hs).mp hV
      exact ⟨hC, (ih (hI s x hs hC)).mp hrest⟩
    · rintro ⟨hC, hrest⟩
      exact ⟨(hstep s x hs).mpr hC, (ih (hI s x hs hC)).mpr hrest⟩

end Run

/-- The latest of what a run did, newest first, under a condition. -/
theorem latest_cons {α β : Type} {p : α → Bool} {P : Prop} [Decidable P] {f : α → β} {x : α} {xs : List α}
    (hp : p x = true ↔ P) :
    ((x :: xs).find? p).map f = if P then some (f x) else (xs.find? p).map f := by
  split_ifs with h
  · rw [List.find?_cons_of_pos (hp.mpr h), Option.map_some]
  · rw [List.find?_cons_of_neg fun hx => h (hp.mp hx)]

end AiManager.Lib
