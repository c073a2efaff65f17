import AiManager.Lib.Prog

/-! # Programs whose calls can fail

A call answers a value or an error of type `ε`, and a program over such calls can fail in turn. `ask`
is the call whose error ends the program, `attempt` a part whose error is looked at. The rules below
split on the outcome of the first part; they exist for monitors (`Meets`) and for states
(`Ensures`). -/

namespace AiManager.Lib

/-- Answers of calls that can fail. -/
abbrev Fallible (ε : Type) {Op : Type} (Val : Op → Type) (op : Op) : Type := Except ε (Val op)

variable {Op : Type} {Val : Op → Type} {ε α β : Type}

/-- A call whose error ends the program, `call.await?`. -/
def ask (op : Op) : ExceptT ε (Prog Op (Fallible ε Val)) (Val op) :=
  ExceptT.mk (Prog.perform op)

/-- A program whose error is looked at, `match call.await`. -/
def attempt (p : ExceptT ε (Prog Op (Fallible ε Val)) α) :
    ExceptT ε (Prog Op (Fallible ε Val)) (Except ε α) :=
  ExceptT.lift p.run

/-! ## Rules for monitors -/

section Meets
variable {Q : Type} {M : Monitor Op (Fallible ε Val) Q} {q : Q}

/-- A call, when the rest is fine after every answer. -/
theorem ask_bind_meets {op : Op} {f : Val op → ExceptT ε (Prog Op (Fallible ε Val)) β}
    {post : Except ε β → Q → Prop} (hallows : M.allows q op)
    (hok : ∀ a, M.replies op (.ok a) → (f a).run.Meets M post (M.next q op (.ok a)))
    (herror : ∀ e, M.replies op (.error e) → post (.error e) (M.next q op (.error e))) :
    (ask op >>= f).run.Meets M post q := by
  rw [Prog.meets_exceptT_bind]
  refine ⟨hallows, fun r hr => ?_⟩
  cases r with
  | ok a => exact hok a hr
  | error e => exact herror e hr

theorem ask_meets {op : Op} {post : Except ε (Val op) → Q → Prop} (hallows : M.allows q op)
    (h : ∀ r, M.replies op r → post r (M.next q op r)) :
    (ask op : ExceptT ε (Prog Op (Fallible ε Val)) (Val op)).run.Meets M post q :=
  ⟨hallows, h⟩

/-- A program, when the rest is fine after what it guarantees. -/
theorem bind_meets {p : ExceptT ε (Prog Op (Fallible ε Val)) α}
    {f : α → ExceptT ε (Prog Op (Fallible ε Val)) β} {R : Except ε α → Q → Prop}
    {post : Except ε β → Q → Prop} (hp : p.run.Meets M R q)
    (hok : ∀ a q', R (.ok a) q' → (f a).run.Meets M post q')
    (herror : ∀ e q', R (.error e) q' → post (.error e) q') :
    (p >>= f).run.Meets M post q := by
  rw [Prog.meets_exceptT_bind]
  refine hp.mono fun r q' h => ?_
  cases r with
  | ok a => exact hok a q' h
  | error e => exact herror e q' h

/-- A program whose error is looked at. -/
theorem attempt_bind_meets {p : ExceptT ε (Prog Op (Fallible ε Val)) α}
    {f : Except ε α → ExceptT ε (Prog Op (Fallible ε Val)) β} {R : Except ε α → Q → Prop}
    {post : Except ε β → Q → Prop} (hp : p.run.Meets M R q)
    (h : ∀ r q', R r q' → (f r).run.Meets M post q') :
    (attempt p >>= f).run.Meets M post q := by
  rw [Prog.meets_exceptT_bind]
  show Prog.Meets M _ (p.run.bind fun r => .pure (Except.ok r)) q
  rw [Prog.meets_bind]
  exact hp.mono fun r q' hr => h r q' hr

end Meets

/-! ## Rules for one program alone -/

section Ensures
variable {σ χ : Type} {answer : Answer Op (Fallible ε Val) σ χ} {ok : χ → Prop} {s : σ}

theorem ask_bind_ensures {op : Op} {f : Val op → ExceptT ε (Prog Op (Fallible ε Val)) β}
    {post : Except ε β → σ → Prop}
    (hok : ∀ c a s', ok c → answer c op s = some (.ok a, s') → (f a).run.Ensures answer ok post s')
    (herror : ∀ c e s', ok c → answer c op s = some (.error e, s') → post (.error e) s') :
    (ask op >>= f).run.Ensures answer ok post s := by
  rw [Prog.ensures_exceptT_bind]
  intro c r s' hc hs
  cases r with
  | ok a => exact hok c a s' hc hs
  | error e => exact herror c e s' hc hs

theorem ask_ensures {op : Op} {post : Except ε (Val op) → σ → Prop}
    (h : ∀ c r s', ok c → answer c op s = some (r, s') → post r s') :
    (ask op : ExceptT ε (Prog Op (Fallible ε Val)) (Val op)).run.Ensures answer ok post s :=
  h

theorem bind_ensures {p : ExceptT ε (Prog Op (Fallible ε Val)) α}
    {f : α → ExceptT ε (Prog Op (Fallible ε Val)) β} {R : Except ε α → σ → Prop}
    {post : Except ε β → σ → Prop} (hp : p.run.Ensures answer ok R s)
    (hok : ∀ a s', R (.ok a) s' → (f a).run.Ensures answer ok post s')
    (herror : ∀ e s', R (.error e) s' → post (.error e) s') :
    (p >>= f).run.Ensures answer ok post s := by
  rw [Prog.ensures_exceptT_bind]
  refine hp.mono fun r s' h => ?_
  cases r with
  | ok a => exact hok a s' h
  | error e => exact herror e s' h

theorem attempt_bind_ensures {p : ExceptT ε (Prog Op (Fallible ε Val)) α}
    {f : Except ε α → ExceptT ε (Prog Op (Fallible ε Val)) β} {R : Except ε α → σ → Prop}
    {post : Except ε β → σ → Prop} (hp : p.run.Ensures answer ok R s)
    (h : ∀ r s', R r s' → (f r).run.Ensures answer ok post s') :
    (attempt p >>= f).run.Ensures answer ok post s := by
  rw [Prog.ensures_exceptT_bind]
  show Prog.Ensures answer ok _ (p.run.bind fun r => .pure (Except.ok r)) s
  rw [Prog.ensures_bind]
  exact hp.mono fun r s' hr => h r s' hr

end Ensures

/-! ## Rules for the calls that are made -/

theorem callsOnly_ask {K : Op → Prop} {op : Op} (h : K op) :
    (ask op : ExceptT ε (Prog Op (Fallible ε Val)) (Val op)).run.CallsOnly K :=
  ⟨h, fun _ => trivial⟩

theorem callsOnly_attempt {K : Op → Prop} {p : ExceptT ε (Prog Op (Fallible ε Val)) α}
    (h : p.run.CallsOnly K) : (attempt p).run.CallsOnly K :=
  Prog.CallsOnly.bind h fun _ => trivial

end AiManager.Lib
