import AiManager.Lib.Run
import Mathlib.Logic.Function.Basic
import Mathlib.Tactic.Common

/-! # Programs over atomic calls, and their interleavings

An asynchronous function that talks to shared services is a tree: either it returns, or it makes
one atomic call and continues with the answer. `Prog Op Res α` is that tree for calls `op : Op`
answered in `Res op`. It is a monad, so a function of the source is written as a `do` block over
its calls, and the same tree is then read in two ways.

* `exec` — one program alone, on a stream of choices; `Ensures` is what holds when it returns.
* `Pool` — any number of programs over one shared state: a step lets one of them make its next
  call. Nothing is assumed about the order, so a property of every schedule is a property of every
  interleaving.

What the services do is a parameter `answer`: the shared state, the call, and a *choice* of the
environment (a clock reading, a fresh identifier, a failure) determine the answer and the next
state; `none` marks a choice that is impossible in that state.

To reason about a pool one does not look at the trees. A `Monitor` is an automaton over the calls
of a single program; `Meets` says that a program follows it whatever the answers are, and composes
along `bind`. `Pool.run_induction` then turns "every program follows the monitor" into an induction
over the run in which the monitor states take the place of the programs. -/

namespace AiManager.Lib

/-- A program that makes atomic calls and returns an `α`. -/
inductive Prog (Op : Type) (Res : Op → Type) (α : Type) : Type where
  | pure (a : α) : Prog Op Res α
  | call (op : Op) (k : Res op → Prog Op Res α) : Prog Op Res α

/-- How the environment answers: a choice, a call and the shared state give the answer and the next
state, or `none` where the choice is impossible. -/
abbrev Answer (Op : Type) (Res : Op → Type) (σ χ : Type) : Type :=
  χ → (op : Op) → σ → Option (Res op × σ)

namespace Prog
variable {Op : Type} {Res : Op → Type} {α β γ : Type} {σ χ Q : Type}

def bind : Prog Op Res α → (α → Prog Op Res β) → Prog Op Res β
  | .pure a, f => f a
  | .call op k, f => .call op fun r => (k r).bind f

instance : Monad (Prog Op Res) where
  pure := .pure
  bind := bind

/-- A single call. -/
def perform (op : Op) : Prog Op Res (Res op) := .call op .pure

@[simp] theorem pure_eq (a : α) : (Pure.pure a : Prog Op Res α) = .pure a := rfl

@[simp] theorem bind_eq (p : Prog Op Res α) (f : α → Prog Op Res β) : p >>= f = p.bind f := rfl

@[simp] theorem pure_bind (a : α) (f : α → Prog Op Res β) : (Prog.pure a).bind f = f a := rfl

@[simp] theorem call_bind (op : Op) (k : Res op → Prog Op Res α) (f : α → Prog Op Res β) :
    (Prog.call op k).bind f = .call op fun r => (k r).bind f := rfl

theorem bind_pure (p : Prog Op Res α) : p.bind .pure = p := by
  induction p with
  | pure a => rfl
  | call op k ih =>
    rw [call_bind]
    congr 1
    exact funext ih

theorem bind_assoc (p : Prog Op Res α) (f : α → Prog Op Res β) (g : β → Prog Op Res γ) :
    (p.bind f).bind g = p.bind fun a => (f a).bind g := by
  induction p with
  | pure a => rfl
  | call op k ih =>
    simp only [call_bind]
    congr 1
    exact funext ih

instance : LawfulMonad (Prog Op Res) := LawfulMonad.mk' (Prog Op Res)
  (fun p => bind_pure p) (fun _ _ => rfl) (fun p f g => bind_assoc p f g)

/-! ## One program alone -/

/-- `p` run on a stream of choices. -/
def exec (answer : Answer Op Res σ χ) : Prog Op Res α → (ℕ → χ) → σ → Option (α × σ)
  | .pure a, _, s => some (a, s)
  | .call op k, cs, s =>
    match answer (cs 0) op s with
    | none => none
    | some (r, s') => (k r).exec answer (fun n => cs (n + 1)) s'

/-- The calls that `p` makes on a stream of choices, in order. -/
def calls (answer : Answer Op Res σ χ) : Prog Op Res α → (ℕ → χ) → σ → List Op
  | .pure _, _, _ => []
  | .call op k, cs, s =>
    op :: match answer (cs 0) op s with
      | none => []
      | some (r, s') => (k r).calls answer (fun n => cs (n + 1)) s'

/-- To return something else takes no call. -/
theorem calls_bind_pure (answer : Answer Op Res σ χ) (p : Prog Op Res α) (f : α → β) (cs : ℕ → χ) (s : σ) :
    (p.bind fun a => .pure (f a)).calls answer cs s = p.calls answer cs s := by
  induction p generalizing cs s with
  | pure a => rfl
  | call op k ih =>
    simp only [call_bind, calls]
    cases answer (cs 0) op s with
    | none => rfl
    | some rs => exact congrArg (op :: ·) (ih rs.1 _ _)

/-- Started in `s`, with choices that meet `ok`, the program can only return with `post`. -/
def Ensures (answer : Answer Op Res σ χ) (ok : χ → Prop) (post : α → σ → Prop) :
    Prog Op Res α → σ → Prop
  | .pure a, s => post a s
  | .call op k, s =>
    ∀ c r s', ok c → answer c op s = some (r, s') → Ensures answer ok post (k r) s'

section Ensures
variable {answer : Answer Op Res σ χ} {ok : χ → Prop}

/-- The sequencing rule. -/
theorem ensures_bind {post : β → σ → Prop} {p : Prog Op Res α} {f : α → Prog Op Res β} {s : σ} :
    (p.bind f).Ensures answer ok post s ↔
      p.Ensures answer ok (fun a s' => (f a).Ensures answer ok post s') s := by
  induction p generalizing s with
  | pure a => exact Iff.rfl
  | call op k ih =>
    refine forall_congr' fun c => forall_congr' fun r => forall₃_congr fun s' _ _ => ?_
    exact ih r

/-- The consequence rule. -/
theorem Ensures.mono {post post' : α → σ → Prop} {p : Prog Op Res α} {s : σ}
    (h : p.Ensures answer ok post s) (himp : ∀ a s, post a s → post' a s) :
    p.Ensures answer ok post' s := by
  induction p generalizing s with
  | pure a => exact himp _ _ h
  | call op k ih => exact fun c r s' hc hs => ih r (h c r s' hc hs)

/-- What a program ensures holds where an execution of it ends. -/
theorem Ensures.of_exec {post : α → σ → Prop} {p : Prog Op Res α} {cs : ℕ → χ} {s : σ} {a : α}
    {s' : σ} (h : p.Ensures answer ok post s) (hok : ∀ n, ok (cs n))
    (he : p.exec answer cs s = some (a, s')) : post a s' := by
  induction p generalizing cs s with
  | pure b => cases he; exact h
  | call op k ih =>
    simp only [exec] at he
    split at he
    · cases he
    · next r s₁ hs => exact ih r (h (cs 0) r s₁ (hok 0) hs) (fun n => hok (n + 1)) he

end Ensures

/-! ### Notes

What befell a run is what one takes down of every call and the choice that it met. -/

section Notes
variable {κ : Type} {note : κ → χ → Op → κ} {answer : Answer Op Res σ χ}

/-- The notes of a run. -/
def notes (note : κ → χ → Op → κ) (answer : Answer Op Res σ χ) : Prog Op Res α → (ℕ → χ) → σ → κ → κ
  | .pure _, _, _, q => q
  | .call op k, cs, s, q =>
    match answer (cs 0) op s with
    | none => q
    | some (r, s') => (k r).notes note answer (fun n => cs (n + 1)) s' (note q (cs 0) op)

/-- The same answers, with the notes as a part of the state. -/
def noting (note : κ → χ → Op → κ) (answer : Answer Op Res σ χ) : Answer Op Res (σ × κ) χ := fun c op s =>
  (answer c op s.1).map fun x => (x.1, x.2, note s.2 c op)

theorem noting_eq_some {c : χ} {op : Op} {r : Res op} {s s' : σ × κ} :
    noting note answer c op s = some (r, s') ↔ answer c op s.1 = some (r, s'.1) ∧ s'.2 = note s.2 c op := by
  obtain ⟨s', q'⟩ := s'
  unfold noting
  cases answer c op s.1 with
  | none => simp
  | some x =>
    obtain ⟨r₁, s₁⟩ := x
    simp only [Option.map_some, Option.some.injEq, Prod.mk.injEq]
    grind

/-- To take notes does not change a run. -/
theorem exec_noting (p : Prog Op Res α) (cs : ℕ → χ) (s : σ) (q : κ) :
    p.exec (noting note answer) cs (s, q) =
      (p.exec answer cs s).map fun x => (x.1, x.2, p.notes note answer cs s q) := by
  induction p generalizing cs s q with
  | pure a => rfl
  | call op k ih =>
    simp only [exec, notes, noting]
    cases answer (cs 0) op s with
    | none => rfl
    | some x => exact ih x.1 _ x.2 _

/-- What a program ensures with its notes holds of a run and of what befell it. -/
theorem Ensures.of_exec_notes {ok : χ → Prop} {post : α → σ × κ → Prop} {p : Prog Op Res α} {cs : ℕ → χ}
    {s s' : σ} {q : κ} {a : α} (h : p.Ensures (noting note answer) ok post (s, q)) (hok : ∀ n, ok (cs n))
    (he : p.exec answer cs s = some (a, s')) : post a (s', p.notes note answer cs s q) := by
  apply h.of_exec hok
  rw [exec_noting, he]
  rfl

end Notes

/-- What every call keeps, a program keeps. -/
theorem ensures_of_keeps {answer : Answer Op Res σ χ} {ok : χ → Prop} {I : σ → Prop}
    (hkeep : ∀ c op r s s', answer c op s = some (r, s') → I s → I s') (p : Prog Op Res α) {s : σ}
    (hI : I s) : p.Ensures answer ok (fun _ s' => I s') s := by
  induction p generalizing s with
  | pure a => exact hI
  | call op k ih => exact fun c r s' _ hs => ih r (hkeep c op r s s' hs hI)

/-- A program can run to its end, if in every state every call has a possible choice. -/
theorem exists_exec {answer : Answer Op Res σ χ} {ok : χ → Prop}
    (hok : ∃ c, ok c) (h : ∀ op s, ∃ c r s', ok c ∧ answer c op s = some (r, s'))
    (p : Prog Op Res α) (s : σ) :
    ∃ cs a s', (∀ n, ok (cs n)) ∧ p.exec answer cs s = some (a, s') := by
  induction p generalizing s with
  | pure a =>
    obtain ⟨c, hc⟩ := hok
    exact ⟨fun _ => c, a, s, fun _ => hc, rfl⟩
  | call op k ih =>
    obtain ⟨c, r, s₁, hc, hs⟩ := h op s
    obtain ⟨cs, a, s', hcs, he⟩ := ih r s₁
    refine ⟨fun | 0 => c | n + 1 => cs n, a, s', ?_, ?_⟩
    · intro n
      cases n with
      | zero => exact hc
      | succ n => exact hcs n
    · simp only [exec, hs]
      exact he

/-- Where every call is answered, a program runs to its end. -/
theorem exec_of_total {answer : Answer Op Res σ χ} (h : ∀ c op s, ∃ r s', answer c op s = some (r, s'))
    (p : Prog Op Res α) (cs : ℕ → χ) (s : σ) : ∃ a s', p.exec answer cs s = some (a, s') := by
  induction p generalizing cs s with
  | pure a => exact ⟨a, s, rfl⟩
  | call op k ih =>
    obtain ⟨r, s₁, hs⟩ := h (cs 0) op s
    obtain ⟨a, s', he⟩ := ih r (fun n => cs (n + 1)) s₁
    refine ⟨a, s', ?_⟩
    simp only [exec, hs]
    exact he

end Prog

/-! ## Monitors

A monitor watches the calls of one program. `next` is its transition, `allows` the calls that may be
made in a state, `replies` the answers the environment is known to give. -/

structure Monitor (Op : Type) (Res : Op → Type) (Q : Type) where
  next : Q → (op : Op) → Res op → Q
  allows : Q → Op → Prop
  replies : (op : Op) → Res op → Prop

namespace Prog
variable {Op : Type} {Res : Op → Type} {α β : Type} {Q ε : Type}

/-- Started with the monitor in `q`, the program makes only allowed calls, whatever the answers,
and returns with `post`. -/
def Meets (M : Monitor Op Res Q) (post : α → Q → Prop) : Prog Op Res α → Q → Prop
  | .pure a, q => post a q
  | .call op k, q => M.allows q op ∧ ∀ r, M.replies op r → Meets M post (k r) (M.next q op r)

variable {M : Monitor Op Res Q}

@[simp] theorem meets_pure {post : α → Q → Prop} {a : α} {q : Q} :
    Meets M post (.pure a) q ↔ post a q := Iff.rfl

theorem meets_call {post : α → Q → Prop} {op : Op} {k : Res op → Prog Op Res α} {q : Q} :
    Meets M post (.call op k) q ↔
      M.allows q op ∧ ∀ r, M.replies op r → Meets M post (k r) (M.next q op r) := Iff.rfl

/-- The sequencing rule. -/
theorem meets_bind {post : β → Q → Prop} {p : Prog Op Res α} {f : α → Prog Op Res β} {q : Q} :
    Meets M post (p.bind f) q ↔ Meets M (fun a q' => Meets M post (f a) q') p q := by
  induction p generalizing q with
  | pure a => exact Iff.rfl
  | call op k ih =>
    simp only [call_bind, meets_call]
    exact and_congr_right fun _ => forall₂_congr fun r _ => ih r

/-- The consequence rule. -/
theorem Meets.mono {post post' : α → Q → Prop} {p : Prog Op Res α} {q : Q}
    (h : Meets M post p q) (himp : ∀ a q, post a q → post' a q) : Meets M post' p q := by
  induction p generalizing q with
  | pure a => exact himp _ _ h
  | call op k ih => exact ⟨h.1, fun r hr => ih r (h.2 r hr)⟩

/-- A monitor that sees less is followed by the programs that follow one that sees more. -/
theorem Meets.map {Q' : Type} {M' : Monitor Op Res Q'} (f : Q' → Q)
    (hnext : ∀ q op r, f (M'.next q op r) = M.next (f q) op r) (hallows : ∀ q op, M'.allows q op → M.allows (f q) op)
    (hreplies : ∀ op r, M.replies op r → M'.replies op r) {post : α → Q → Prop} {p : Prog Op Res α} {q : Q'}
    (h : p.Meets M' (fun a q' => post a (f q')) q) : p.Meets M post (f q) := by
  induction p generalizing q with
  | pure a => exact h
  | call op k ih =>
    refine ⟨hallows q op h.1, fun r hr => ?_⟩
    rw [← hnext]
    exact ih r (h.2 r (hreplies op r hr))

/-- Whatever the answers, the program makes only calls in `K`. -/
def CallsOnly (K : Op → Prop) : Prog Op Res α → Prop
  | .pure _ => True
  | .call op k => K op ∧ ∀ r, CallsOnly K (k r)

theorem CallsOnly.bind {K : Op → Prop} {p : Prog Op Res α} {f : α → Prog Op Res β}
    (hp : p.CallsOnly K) (hf : ∀ a, (f a).CallsOnly K) : (p.bind f).CallsOnly K := by
  induction p with
  | pure a => exact hf a
  | call op k ih => exact ⟨hp.1, fun r => ih r (hp.2 r)⟩

theorem CallsOnly.exceptT_bind {K : Op → Prop} {p : ExceptT ε (Prog Op Res) α}
    {f : α → ExceptT ε (Prog Op Res) β} (hp : p.run.CallsOnly K)
    (hf : ∀ a, (f a).run.CallsOnly K) : (p >>= f).run.CallsOnly K :=
  CallsOnly.bind hp fun r => match r with
    | .ok a => hf a
    | .error _ => trivial

theorem CallsOnly.mono {K K' : Op → Prop} {p : Prog Op Res α} (h : p.CallsOnly K)
    (himp : ∀ op, K op → K' op) : p.CallsOnly K' := by
  induction p with
  | pure a => trivial
  | call op k ih => exact ⟨himp op h.1, fun r => ih r (h.2 r)⟩

section MapCalls
variable {Op' : Type} {Res' : Op' → Type}

/-- The same program with its calls made as others. -/
def mapCalls (f : Op → Op') (g : ∀ op, Res' (f op) → Res op) : Prog Op Res α → Prog Op' Res' α
  | .pure a => .pure a
  | .call op k => .call (f op) fun r => (k (g op r)).mapCalls f g

theorem CallsOnly.mapCalls {K : Op → Prop} {K' : Op' → Prop} {f : Op → Op'}
    {g : ∀ op, Res' (f op) → Res op} {p : Prog Op Res α} (h : p.CallsOnly K)
    (hf : ∀ op, K op → K' (f op)) : (p.mapCalls f g).CallsOnly K' := by
  induction p with
  | pure a => trivial
  | call op k ih => exact ⟨hf op h.1, fun r => ih (g op r) (h.2 (g op r))⟩

/-- What a program ensures, it ensures with its calls made as others that are answered the same way. -/
theorem Ensures.mapCalls {σ χ χ' : Type} {answer : Answer Op Res σ χ} {answer' : Answer Op' Res' σ χ'}
    {ok : χ → Prop} {ok' : χ' → Prop} {f : Op → Op'} {g : ∀ op, Res' (f op) → Res op}
    (hanswer : ∀ c op s r s', ok' c → answer' c (f op) s = some (r, s') →
      ∃ c₀, ok c₀ ∧ answer c₀ op s = some (g op r, s')) {post : α → σ → Prop} {p : Prog Op Res α} {s : σ}
    (h : p.Ensures answer ok post s) : (p.mapCalls f g).Ensures answer' ok' post s := by
  induction p generalizing s with
  | pure a => exact h
  | call op k ih =>
    intro c r s' hc hs
    obtain ⟨c₀, hc₀, hs₀⟩ := hanswer c op s r s' hc hs
    exact ih (g op r) (h c₀ (g op r) s' hc₀ hs₀)

end MapCalls

/-- Where the calls that it makes are answered, a program runs to its end. -/
theorem CallsOnly.exec_of_total {σ χ : Type} {answer : Answer Op Res σ χ} {K : Op → Prop} {p : Prog Op Res α}
    (h : p.CallsOnly K) (hanswer : ∀ op, K op → ∀ c s, ∃ r s', answer c op s = some (r, s')) (cs : ℕ → χ) (s : σ) :
    ∃ a s', p.exec answer cs s = some (a, s') := by
  induction p generalizing cs s with
  | pure a => exact ⟨a, s, rfl⟩
  | call op k ih =>
    obtain ⟨r, s₁, hs⟩ := hanswer op h.1 (cs 0) s
    obtain ⟨a, s', he⟩ := ih r (h.2 r) (fun n => cs (n + 1)) s₁
    refine ⟨a, s', ?_⟩
    simp only [exec, hs]
    exact he

/-- A program whose calls are allowed in every state. -/
theorem CallsOnly.meets_of_allows {K : Op → Prop} {p : Prog Op Res α} (h : p.CallsOnly K)
    (hallows : ∀ q op, K op → M.allows q op) (q : Q) : Meets M (fun _ _ => True) p q := by
  induction p generalizing q with
  | pure a => trivial
  | call op k ih => exact ⟨hallows q op h.1, fun r _ => ih r (h.2 r) _⟩

/-- **The frame rule.** A program whose calls the monitor allows and ignores leaves it where it
is. -/
theorem CallsOnly.meets {K : Op → Prop} {p : Prog Op Res α} (h : p.CallsOnly K) {q : Q}
    (hallows : ∀ op, K op → M.allows q op) (hnext : ∀ op r, K op → M.next q op r = q) :
    Meets M (fun _ q' => q' = q) p q := by
  induction p with
  | pure a => exact rfl
  | call op k ih =>
    refine ⟨hallows op h.1, fun r _ => ?_⟩
    rw [hnext op r h.1]
    exact ih r (h.2 r)

/-- The frame rule for states: a program whose calls keep `I` keeps it. -/
theorem CallsOnly.ensures {σ χ : Type} {answer : Answer Op Res σ χ} {ok : χ → Prop}
    {K : Op → Prop} {I : σ → Prop} {p : Prog Op Res α} (h : p.CallsOnly K)
    (hkeep : ∀ c op r s s', ok c → K op → answer c op s = some (r, s') → I s → I s') {s : σ}
    (hI : I s) : p.Ensures answer ok (fun _ s' => I s') s := by
  induction p generalizing s with
  | pure a => exact hI
  | call op k ih => exact fun c r s' hc hs => ih r (h.2 r) (hkeep c op r s s' hc h.1 hs hI)

/-- A program whose calls do not look at what `forget` forgets runs the same without it. -/
theorem CallsOnly.exec_forget {σ χ : Type} {answer : Answer Op Res σ χ} {K : Op → Prop} {forget : σ → σ}
    {p : Prog Op Res α} (h : p.CallsOnly K)
    (hblind : ∀ c op s, K op → answer c op (forget s) = (answer c op s).map (Prod.map id forget))
    (cs : ℕ → χ) (s : σ) :
    p.exec answer cs (forget s) = (p.exec answer cs s).map (Prod.map id forget) := by
  induction p generalizing cs s with
  | pure a => rfl
  | call op k ih =>
    simp only [exec]
    rw [hblind (cs 0) op s h.1]
    cases hanswer : answer (cs 0) op s with
    | none => rfl
    | some rs => exact ih rs.1 (h.2 rs.1) _ rs.2

/-! ### Programs that can fail

Over `ExceptT ε (Prog Op Res)` the sequencing rule splits on the outcome of the first part: an error
skips the rest. -/

/-- The part of a postcondition that speaks about successful results. -/
def onOk (f : α → Q → Prop) (e : ε → Q → Prop) : Except ε α → Q → Prop
  | .ok a, q => f a q
  | .error x, q => e x q

@[simp] theorem onOk_ok (f : α → Q → Prop) (e : ε → Q → Prop) (a : α) (q : Q) :
    onOk f e (.ok a) q = f a q := rfl

@[simp] theorem onOk_error (f : α → Q → Prop) (e : ε → Q → Prop) (x : ε) (q : Q) :
    onOk f e (.error x) q = e x q := rfl

theorem ensures_exceptT_bind {σ χ : Type} {answer : Answer Op Res σ χ} {ok : χ → Prop}
    {post : Except ε β → σ → Prop} {p : ExceptT ε (Prog Op Res) α}
    {f : α → ExceptT ε (Prog Op Res) β} {s : σ} :
    (p >>= f).run.Ensures answer ok post s ↔
      p.run.Ensures answer ok (onOk (fun a s' => (f a).run.Ensures answer ok post s')
        fun e s' => post (.error e) s') s := by
  show (p.run.bind (ExceptT.bindCont f)).Ensures answer ok post s ↔ _
  rw [ensures_bind]
  constructor <;> intro h <;> refine h.mono ?_ <;> rintro (e | a) s' h' <;> exact h'

theorem meets_exceptT_bind {post : Except ε β → Q → Prop} {p : ExceptT ε (Prog Op Res) α}
    {f : α → ExceptT ε (Prog Op Res) β} {q : Q} :
    Meets M post (p >>= f).run q ↔
      Meets M (onOk (fun a q' => Meets M post (f a).run q') fun e q' => post (.error e) q')
        p.run q := by
  show Meets M post (p.run.bind (ExceptT.bindCont f)) q ↔ _
  rw [meets_bind]
  constructor <;> intro h <;> refine h.mono ?_ <;> rintro (e | a) q' h' <;> exact h'

@[simp] theorem meets_exceptT_pure {post : Except ε α → Q → Prop} {a : α} {q : Q} :
    Meets M post (Pure.pure a : ExceptT ε (Prog Op Res) α).run q ↔ post (.ok a) q := Iff.rfl

@[simp] theorem meets_exceptT_throw {post : Except ε α → Q → Prop} {e : ε} {q : Q} :
    Meets M post (throw e : ExceptT ε (Prog Op Res) α).run q ↔ post (.error e) q := Iff.rfl

end Prog

/-! ## Pools -/

/-- A call that was made, by whom, and its answer. -/
structure Event (ι Op : Type) (Res : Op → Type) where
  who : ι
  op : Op
  res : Res op

/-- Programs over one shared state, with the history of their calls, newest first. -/
structure Pool (ι Op : Type) (Res : Op → Type) (σ α : Type) where
  shared : σ
  threads : ι → Prog Op Res α
  trace : List (Event ι Op Res)

section Watch
variable {ι Op : Type} {Res : Op → Type} {Q : Type} [DecidableEq ι]

/-- The state of an automaton that watches the calls of program `i`, after a history. -/
def watch (next : Q → (op : Op) → Res op → Q) (q : Q) (i : ι) : List (Event ι Op Res) → Q
  | [] => q
  | e :: tr => if e.who = i then next (watch next q i tr) e.op e.res else watch next q i tr

variable (next : Q → (op : Op) → Res op → Q)

@[simp] theorem watch_nil (q : Q) (i : ι) : watch next q i [] = q := rfl

@[simp] theorem watch_cons_self (q : Q) (i : ι) (op : Op) (r : Res op)
    (tr : List (Event ι Op Res)) :
    watch next q i (⟨i, op, r⟩ :: tr) = next (watch next q i tr) op r := by
  simp [watch]

theorem watch_cons_ne (q : Q) {i j : ι} (h : j ≠ i) (op : Op) (r : Res op)
    (tr : List (Event ι Op Res)) : watch next q i (⟨j, op, r⟩ :: tr) = watch next q i tr := by
  simp [watch, h]

/-- What an automaton knows that another one goes by, the other one's state says. -/
theorem watch_map {R : Type} {next' : R → (op : Op) → Res op → R} (f : Q → R)
    (h : ∀ q op r, f (next q op r) = next' (f q) op r) (q : Q) (i : ι) (tr : List (Event ι Op Res)) :
    f (watch next q i tr) = watch next' (f q) i tr := by
  induction tr with
  | nil => rfl
  | cons e tr ih =>
    unfold watch
    split_ifs
    · rw [h, ih]
    · exact ih

/-- A part of the state that no call changes stays as it is. -/
theorem watch_pair {R : Type} (q : R × Q) (i : ι) (tr : List (Event ι Op Res)) :
    watch (fun q op r => (q.1, next q.2 op r)) q i tr = (q.1, watch next q.2 i tr) := by
  induction tr with
  | nil => rfl
  | cons e tr ih =>
    unfold watch
    rw [ih]
    split_ifs <;> rfl

end Watch

/-- The monitor that takes down every call, newest first. -/
def Monitor.history (Op : Type) (Res : Op → Type) : Monitor Op Res (List (Σ op, Res op)) :=
  ⟨fun q op r => ⟨op, r⟩ :: q, fun _ _ => True, fun _ _ => True⟩

theorem mem_of_mem_history {ι Op : Type} {Res : Op → Type} [DecidableEq ι] {i : ι} {tr : List (Event ι Op Res)}
    {c : Σ op, Res op} (h : c ∈ watch (Monitor.history Op Res).next [] i tr) : ⟨i, c.1, c.2⟩ ∈ tr := by
  induction tr with
  | nil => cases h
  | cons e tr ih =>
    unfold watch at h
    split_ifs at h with hwho
    · rcases List.mem_cons.mp h with rfl | hold
      · exact hwho ▸ List.mem_cons_self
      · exact List.mem_cons_of_mem _ (ih hold)
    · exact List.mem_cons_of_mem _ (ih h)

namespace Pool
variable {ι Op : Type} {Res : Op → Type} {σ χ α Q : Type} [DecidableEq ι]

/-- Program `x.1` makes its next call, the environment choosing `x.2`. A program that has returned,
or an impossible choice, leaves the pool as it is. -/
def step (answer : Answer Op Res σ χ) (pool : Pool ι Op Res σ α) (x : ι × χ) :
    Pool ι Op Res σ α :=
  match pool.threads x.1 with
  | .pure _ => pool
  | .call op k =>
    match answer x.2 op pool.shared with
    | none => pool
    | some (r, s) =>
      { shared := s
        threads := Function.update pool.threads x.1 (k r)
        trace := ⟨x.1, op, r⟩ :: pool.trace }

/-- The pool after a schedule. -/
def run (answer : Answer Op Res σ χ) (pool : Pool ι Op Res σ α) (sched : List (ι × χ)) :
    Pool ι Op Res σ α :=
  sched.foldl (step answer) pool

@[simp] theorem run_nil (answer : Answer Op Res σ χ) (pool : Pool ι Op Res σ α) :
    pool.run answer [] = pool := rfl

theorem run_append (answer : Answer Op Res σ χ) (pool : Pool ι Op Res σ α)
    (xs ys : List (ι × χ)) : pool.run answer (xs ++ ys) = (pool.run answer xs).run answer ys :=
  List.foldl_append

/-- Program `i` has returned. -/
def Returned (pool : Pool ι Op Res σ α) (i : ι) : Prop := ∃ a, pool.threads i = .pure a

instance (pool : Pool ι Op Res σ α) (i : ι) : Decidable (pool.Returned i) :=
  match h : pool.threads i with
  | .pure a => isTrue ⟨a, h⟩
  | .call _ _ => isFalse fun ⟨a, ha⟩ => by rw [h] at ha; cases ha

omit [DecidableEq ι] in
theorem not_returned {pool : Pool ι Op Res σ α} {i : ι} {op : Op} {k : Res op → Prog Op Res α}
    (h : pool.threads i = .call op k) : ¬ pool.Returned i := by
  rintro ⟨a, ha⟩
  rw [h] at ha
  cases ha

/-- The call that a step makes, with its answer; none if the step does nothing. -/
def event (answer : Answer Op Res σ χ) (pool : Pool ι Op Res σ α) (x : ι × χ) :
    Option (Event ι Op Res) :=
  match pool.threads x.1 with
  | .pure _ => none
  | .call op _ => (answer x.2 op pool.shared).map fun y => ⟨x.1, op, y.1⟩

omit [DecidableEq ι] in
theorem event_eq {answer : Answer Op Res σ χ} {pool : Pool ι Op Res σ α} {i : ι} {c : χ} {op : Op}
    {k : Res op → Prog Op Res α} {r : Res op} {s : σ} (hk : pool.threads i = .call op k)
    (hs : answer c op pool.shared = some (r, s)) :
    pool.event answer (i, c) = some ⟨i, op, r⟩ := by
  simp [event, hk, hs]

/-- The pool after program `i` made the call `op` and got `r`. -/
def after (pool : Pool ι Op Res σ α) (i : ι) (op : Op) (r : Res op) (k : Res op → Prog Op Res α)
    (s : σ) : Pool ι Op Res σ α :=
  ⟨s, Function.update pool.threads i (k r), ⟨i, op, r⟩ :: pool.trace⟩

section After
variable (pool : Pool ι Op Res σ α) (i : ι) (op : Op) (r : Res op) (k : Res op → Prog Op Res α)
  (s : σ)

@[simp] theorem after_shared : (pool.after i op r k s).shared = s := rfl

@[simp] theorem after_trace : (pool.after i op r k s).trace = ⟨i, op, r⟩ :: pool.trace := rfl

@[simp] theorem after_threads_self : (pool.after i op r k s).threads i = k r :=
  Function.update_self _ _ _

theorem after_threads_ne {j : ι} (h : j ≠ i) :
    (pool.after i op r k s).threads j = pool.threads j :=
  Function.update_of_ne h _ _

theorem returned_after_ne {j : ι} (h : j ≠ i) :
    (pool.after i op r k s).Returned j ↔ pool.Returned j := by
  unfold Returned
  rw [after_threads_ne pool i op r k s h]

end After

/-- Everything a step can do. -/
theorem step_cases (answer : Answer Op Res σ χ) (pool : Pool ι Op Res σ α) (x : ι × χ) :
    pool.step answer x = pool ∨
    ∃ op k r s, pool.threads x.1 = .call op k ∧ answer x.2 op pool.shared = some (r, s) ∧
      pool.step answer x = pool.after x.1 op r k s := by
  unfold step
  split
  · exact .inl rfl
  · next op k hk =>
    split
    · exact .inl rfl
    · next r s hs => exact .inr ⟨op, k, r, s, hk, hs, rfl⟩

theorem step_eq_after {answer : Answer Op Res σ χ} {pool : Pool ι Op Res σ α} {i : ι} {c : χ}
    {op : Op} {k : Res op → Prog Op Res α} {r : Res op} {s : σ} (hk : pool.threads i = .call op k)
    (hs : answer c op pool.shared = some (r, s)) :
    pool.step answer (i, c) = pool.after i op r k s := by
  simp [step, hk, hs, after]

/-- A step makes a call, or does nothing. -/
theorem event_cases (answer : Answer Op Res σ χ) (pool : Pool ι Op Res σ α) (x : ι × χ) :
    (pool.event answer x = none ∧ pool.step answer x = pool) ∨
    ∃ op k r s, pool.threads x.1 = .call op k ∧ answer x.2 op pool.shared = some (r, s) ∧
      pool.event answer x = some ⟨x.1, op, r⟩ ∧ pool.step answer x = pool.after x.1 op r k s := by
  cases hk : pool.threads x.1 with
  | pure a => exact .inl ⟨by simp [event, hk], by simp [step, hk]⟩
  | call op k =>
    cases hs : answer x.2 op pool.shared with
    | none => exact .inl ⟨by simp [event, hk, hs], by simp [step, hk, hs]⟩
    | some rs => exact .inr ⟨op, k, rs.1, rs.2, rfl, hs, event_eq hk hs, step_eq_after hk hs⟩

theorem step_of_returned {answer : Answer Op Res σ χ} {pool : Pool ι Op Res σ α} {i : ι} {a : α}
    (h : pool.threads i = .pure a) (x : ι × χ) : (pool.step answer x).threads i = .pure a := by
  rcases pool.step_cases answer x with heq | ⟨op, k, r, s, hk, -, heq⟩
  · rw [heq, h]
  · have hne : i ≠ x.1 := by
      rintro rfl
      rw [h] at hk
      cases hk
    rw [heq, after_threads_ne _ _ _ _ _ _ hne, h]

/-- What every call keeps of the shared state, a pool keeps. -/
theorem run_shared {answer : Answer Op Res σ χ} {I : σ → Prop}
    (hkeep : ∀ c op r s s', answer c op s = some (r, s') → I s → I s') {pool : Pool ι Op Res σ α}
    (hI : I pool.shared) (sched : List (ι × χ)) : I (pool.run answer sched).shared := by
  induction sched generalizing pool with
  | nil => exact hI
  | cons x xs ih =>
    refine ih ?_
    rcases pool.step_cases answer x with heq | ⟨op, k, r, s, -, hs, heq⟩
    · rw [heq]
      exact hI
    · rw [heq]
      exact hkeep x.2 op r pool.shared s hs hI

/-- Programs that make only calls in `K` go on making only such calls. -/
theorem step_callsOnly {answer : Answer Op Res σ χ} {K : Op → Prop} {pool : Pool ι Op Res σ α}
    (h : ∀ i, (pool.threads i).CallsOnly K) (x : ι × χ) (i : ι) :
    ((pool.step answer x).threads i).CallsOnly K := by
  rcases pool.step_cases answer x with heq | ⟨op, k, r, s, hk, -, heq⟩ <;> rw [heq]
  · exact h i
  · by_cases hi : i = x.1
    · have hcall := h x.1
      rw [hk] at hcall
      rw [hi, after_threads_self]
      exact hcall.2 r
    · rw [after_threads_ne _ _ _ _ _ _ hi]
      exact h i

theorem run_callsOnly {answer : Answer Op Res σ χ} {K : Op → Prop} {pool : Pool ι Op Res σ α}
    (h : ∀ i, (pool.threads i).CallsOnly K) (sched : List (ι × χ)) :
    ∀ i, ((pool.run answer sched).threads i).CallsOnly K := by
  induction sched generalizing pool with
  | nil => exact h
  | cons x xs ih => exact ih fun i => step_callsOnly h x i

/-- What a program does alone, a pool can do in which only that program goes on. -/
theorem run_of_exec {answer : Answer Op Res σ χ} {p : Prog Op Res α} {cs : ℕ → χ} {s s' : σ} {a : α}
    (h : p.exec answer cs s = some (a, s')) {pool : Pool ι Op Res σ α} {i : ι}
    (hp : pool.threads i = p) (hs : pool.shared = s) :
    ∃ sched, (pool.run answer sched).shared = s' := by
  induction p generalizing cs s pool with
  | pure b =>
    obtain ⟨-, rfl⟩ := Prod.mk.inj (Option.some.inj h)
    exact ⟨[], hs⟩
  | call op k ih =>
    simp only [Prog.exec] at h
    split at h
    · cases h
    · next r s₁ hanswer =>
      have hafter : (pool.after i op r k s₁).threads i = k r := after_threads_self pool i op r k s₁
      obtain ⟨sched, hsched⟩ := ih r h hafter rfl
      refine ⟨(i, cs 0) :: sched, ?_⟩
      rw [← hsched, ← step_eq_after hp (hs ▸ hanswer)]
      rfl

/-- The calls that a schedule makes, oldest first. -/
def happened (answer : Answer Op Res σ χ) (pool : Pool ι Op Res σ α) : List (ι × χ) → List (Event ι Op Res)
  | [] => []
  | x :: xs => (pool.event answer x).toList ++ (pool.step answer x).happened answer xs

/-- A view of the shared state that every call moves on is what all calls have made of it. -/
theorem run_view {β : Type} (view : σ → β) {next : β → Event ι Op Res → β} {answer : Answer Op Res σ χ}
    {K : Op → Prop} {C : Pool ι Op Res σ α → ι × χ → Prop}
    (hcall : ∀ pool i c op r s, K op → C pool (i, c) → pool.event answer (i, c) = some ⟨i, op, r⟩ →
      answer c op pool.shared = some (r, s) → view s = next (view pool.shared) ⟨i, op, r⟩)
    {pool : Pool ι Op Res σ α} (hK : ∀ i, (pool.threads i).CallsOnly K) {sched : List (ι × χ)}
    (hC : EachStep (step answer) C pool sched) :
    view (pool.run answer sched).shared = (pool.happened answer sched).foldl next (view pool.shared) := by
  induction sched generalizing pool with
  | nil => rfl
  | cons x xs ih =>
    have hrest := ih (fun i => step_callsOnly hK x i) hC.2
    unfold happened
    rw [List.foldl_append]
    refine hrest.trans ?_
    congr 1
    rcases pool.event_cases answer x with ⟨hevent, heq⟩ | ⟨op, k, r, s, hk, hs, hevent, heq⟩
    · rw [heq, hevent]
      rfl
    · have hop := hK x.1
      rw [hk] at hop
      rw [heq, hevent]
      exact hcall pool x.1 x.2 op r s hop.1 hC.1 hevent hs

/-- Every program of the pool follows the monitor from the state its history put it in. -/
def Tracks (M : Monitor Op Res Q) (post : ι → α → Q → Prop) (start : ι → Q)
    (pool : Pool ι Op Res σ α) : Prop :=
  ∀ i, (pool.threads i).Meets M (post i) (watch M.next (start i) i pool.trace)

section Induction
variable {answer : Answer Op Res σ χ} {M : Monitor Op Res Q} {post : ι → α → Q → Prop}
  {start : ι → Q}

/-- A program that has returned met its postcondition. -/
theorem Tracks.post_of_returned {pool : Pool ι Op Res σ α} (h : pool.Tracks M post start) {i : ι}
    {a : α} (ha : pool.threads i = .pure a) : post i a (watch M.next (start i) i pool.trace) := by
  have hi := h i
  rw [ha] at hi
  exact hi

/-- A call of a followed monitor is an allowed one. -/
theorem Tracks.allows {pool : Pool ι Op Res σ α} (h : pool.Tracks M post start) {i : ι} {op : Op}
    {k : Res op → Prog Op Res α} (hk : pool.threads i = .call op k) :
    M.allows (watch M.next (start i) i pool.trace) op := by
  have hi := h i
  rw [hk, Prog.meets_call] at hi
  exact hi.1

/-- A step keeps a followed monitor followed. -/
theorem Tracks.after {pool : Pool ι Op Res σ α} (h : pool.Tracks M post start) {i : ι} {op : Op}
    {k : Res op → Prog Op Res α} (hk : pool.threads i = .call op k) {r : Res op}
    (hr : M.replies op r) (s : σ) : (pool.after i op r k s).Tracks M post start := by
  intro j
  by_cases hj : j = i
  · subst hj
    have hi := h j
    rw [hk, Prog.meets_call] at hi
    simpa using hi.2 r hr
  · rw [after_threads_ne _ _ _ _ _ _ hj, after_trace, watch_cons_ne _ _ (Ne.symm hj)]
    exact h j

/-- **One step.** Every program follows the monitor; `I` is an invariant of the pool that every call
keeps which is allowed, whose choice meets `P`, and which meets the condition `C` on the pool before
it. -/
theorem step_keeps {I : Pool ι Op Res σ α → Prop} {C : Pool ι Op Res σ α → ι × χ → Prop}
    {P : χ → Prop}
    (hreplies : ∀ pool c op r s, I pool → P c → answer c op pool.shared = some (r, s) →
      M.replies op r)
    (hstep : ∀ pool i c op k r s, pool.Tracks M post start → I pool → P c → C pool (i, c) →
      pool.threads i = .call op k → answer c op pool.shared = some (r, s) →
      M.replies op r → M.allows (watch M.next (start i) i pool.trace) op →
      (pool.after i op r k s).Tracks M post start → I (pool.after i op r k s))
    {pool : Pool ι Op Res σ α} (hpool : pool.Tracks M post start) (hI : I pool) {x : ι × χ}
    (hP : P x.2) (hC : C pool x) :
    (pool.step answer x).Tracks M post start ∧ I (pool.step answer x) := by
  rcases pool.step_cases answer x with heq | ⟨op, k, r, s, hk, hs, heq⟩
  · rw [heq]
    exact ⟨hpool, hI⟩
  · have hr := hreplies pool x.2 op r s hI hP hs
    have htr := hpool.after hk hr s
    rw [heq]
    exact ⟨htr, hstep pool x.1 x.2 op k r s hpool hI hP hC hk hs hr (hpool.allows hk) htr⟩

/-- **Induction over a run.** An invariant that such steps keep holds after every schedule of them. -/
theorem run_induction {I : Pool ι Op Res σ α → Prop} {C : Pool ι Op Res σ α → ι × χ → Prop}
    {P : χ → Prop}
    (hreplies : ∀ pool c op r s, I pool → P c → answer c op pool.shared = some (r, s) →
      M.replies op r)
    (hstep : ∀ pool i c op k r s, pool.Tracks M post start → I pool → P c → C pool (i, c) →
      pool.threads i = .call op k → answer c op pool.shared = some (r, s) →
      M.replies op r → M.allows (watch M.next (start i) i pool.trace) op →
      (pool.after i op r k s).Tracks M post start → I (pool.after i op r k s))
    {pool : Pool ι Op Res σ α} (hpool : pool.Tracks M post start) (hI : I pool)
    (sched : List (ι × χ)) (hP : ∀ x ∈ sched, P x.2)
    (hC : EachStep (step answer) C pool sched) :
    (pool.run answer sched).Tracks M post start ∧ I (pool.run answer sched) := by
  induction sched generalizing pool with
  | nil => exact ⟨hpool, hI⟩
  | cons x xs ih =>
    have hPs : ∀ y ∈ xs, P y.2 := fun y hy => hP y (List.mem_cons_of_mem _ hy)
    obtain ⟨htr, hnext⟩ :=
      step_keeps hreplies hstep hpool hI (hP x List.mem_cons_self) hC.1
    exact ih htr hnext hPs hC.2

end Induction

/-- A call of the history was made in a step of the run. -/
theorem event_of_mem_trace {answer : Answer Op Res σ χ} {pool : Pool ι Op Res σ α} {sched : List (ι × χ)}
    {e : Event ι Op Res} (h : e ∈ (pool.run answer sched).trace) :
    e ∈ pool.trace ∨ ∃ xs x ys, sched = xs ++ x :: ys ∧ (pool.run answer xs).event answer x = some e := by
  induction sched generalizing pool with
  | nil => exact .inl h
  | cons x xs ih =>
    rcases ih h with hstep | ⟨before, y, after, rfl, hevent⟩
    · rcases pool.event_cases answer x with ⟨-, heq⟩ | ⟨op, k, r, s, -, -, hevent, heq⟩
      · exact .inl (heq ▸ hstep)
      · rw [heq, after_trace] at hstep
        rcases List.mem_cons.mp hstep with rfl | hold
        · exact .inr ⟨[], x, xs, rfl, hevent⟩
        · exact .inl hold
    · exact .inr ⟨x :: before, y, after, rfl, hevent⟩

/-- What programs alone have done when they return, they have done in steps of the run. -/
theorem returned_history {answer : Answer Op Res σ χ} {post : ι → α → List (Σ op, Res op) → Prop}
    {pool : Pool ι Op Res σ α} (hmeets : ∀ i, (pool.threads i).Meets (.history Op Res) (post i) [])
    (htrace : pool.trace = []) {sched : List (ι × χ)} {i : ι} {a : α}
    (h : (pool.run answer sched).threads i = .pure a) :
    ∃ q, post i a q ∧ ∀ c ∈ q, ∃ xs x ys, sched = xs ++ x :: ys ∧
      (pool.run answer xs).event answer x = some ⟨i, c.1, c.2⟩ := by
  have htracks : pool.Tracks (.history Op Res) post fun _ => [] := by
    intro i
    rw [htrace]
    exact hmeets i
  have hrun : (pool.run answer sched).Tracks (.history Op Res) post (fun _ => []) ∧ True :=
    run_induction (I := fun _ => True) (C := fun _ _ => True) (P := fun _ => True) (fun _ _ _ _ _ _ _ _ => trivial)
      (fun _ _ _ _ _ _ _ _ _ _ _ _ _ _ _ _ => trivial) htracks trivial sched (fun _ _ => trivial)
      (.of_forall (fun _ _ => trivial) _ _)
  refine ⟨_, hrun.1.post_of_returned h, fun c hc => ?_⟩
  rcases event_of_mem_trace (mem_of_mem_history hc) with hold | hstep
  · rw [htrace] at hold
    cases hold
  · exact hstep

end Pool

end AiManager.Lib
