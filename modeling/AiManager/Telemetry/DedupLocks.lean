import AiManager.Lib.LockPool
import AiManager.Telemetry.Dedup

/-! # The locks of the deduplication

A collection takes the order mutex and under it the shard locks of the ids that it looks up. A claim takes the
shard lock of its id; when the entry there has expired since the collection, it goes on to the order mutex under
that lock. The calls are deadlocked only if one of them finds its claim expired in a shard while another collects
in it (`dedup_live`). -/

namespace AiManager.Telemetry

open Lib

/-! ## Calls -/

inductive DedupLock where
  | order
  | shard (n : ℕ)
  deriving DecidableEq

inductive DedupOp where
  /-- a reading of the monotonic clock -/
  | now
  | lock (l : DedupLock)
  | unlock (l : DedupLock)
  /-- the queue, from the front -/
  | order
  | popFront
  | pushBack (id : String) (t : ℕ)
  | get (id : String)
  | insert (id : String) (t : ℕ)
  | remove (id : String)

@[reducible] def DedupOp.Res : DedupOp → Type
  | now => ℕ
  | order => List (String × ℕ)
  | get _ => Option ℕ
  | _ => Unit

/-- The claims, who holds which lock, and the last reading of the clock. -/
structure DedupShared where
  dedup : InMemoryDedup
  held : DedupLock → Bool
  clock : ℕ

/-- The choice is what the clock reads; it does not go back. -/
def dedupAnswer : Answer DedupOp DedupOp.Res DedupShared ℕ := fun c op s =>
  match op with
  | .now => if s.clock ≤ c then some (c, { s with clock := c }) else none
  | .lock l => if s.held l then none else some ((), { s with held := Function.update s.held l true })
  | .unlock l => some ((), { s with held := Function.update s.held l false })
  | .order => some (s.dedup.order, s)
  | .popFront => some ((), { s with dedup := { s.dedup with order := s.dedup.order.tail } })
  | .pushBack id t => some ((), { s with dedup := { s.dedup with order := s.dedup.order ++ [(id, t)] } })
  | .get id => some (s.dedup.entries.get id, s)
  | .insert id t => some ((), { s with dedup := { s.dedup with entries := s.dedup.entries.put id t } })
  | .remove id => some ((), { s with dedup := { s.dedup with entries := s.dedup.entries.del id } })

abbrev DedupM (α : Type) := Prog DedupOp DedupOp.Res α

def callDedup (op : DedupOp) : DedupM op.Res := Prog.perform op

/-! ## Programs -/

section Programs
variable (ttl : ℕ) (shardOf : String → ℕ)

/-- Work off the queue while its front has expired. -/
def gcFront (now : ℕ) : List (String × ℕ) → DedupM Unit
  | [] => return ()
  | (id, inserted) :: rest =>
    if InMemoryDedup.young ttl now inserted then return ()
    else do
      callDedup .popFront
      callDedup (.lock (.shard (shardOf id)))
      match ← callDedup (.get id) with
      | none => do
        callDedup (.unlock (.shard (shardOf id)))
        gcFront now rest
      | some claimed => do
        callDedup (.unlock (.shard (shardOf id)))
        if InMemoryDedup.young ttl now claimed then gcFront now rest
        else do
          callDedup (.lock (.shard (shardOf id)))
          callDedup (.remove id)
          callDedup (.unlock (.shard (shardOf id)))
          gcFront now rest

/-- The mutex is held while the queue is worked off. -/
def gcLocked : DedupM Unit := do
  let now ← callDedup .now
  callDedup (.lock .order)
  let queue ← callDedup .order
  gcFront ttl shardOf now queue
  callDedup (.unlock .order)

def pushOrder (id : String) (now : ℕ) : DedupM Unit := do
  callDedup (.lock .order)
  callDedup (.pushBack id now)
  callDedup (.unlock .order)

def tryClaimLocked (id : String) : DedupM Bool := do
  gcLocked ttl shardOf
  let now ← callDedup .now
  callDedup (.lock (.shard (shardOf id)))
  match ← callDedup (.get id) with
  | some claimed =>
    if InMemoryDedup.young ttl now claimed then do
      callDedup (.unlock (.shard (shardOf id)))
      return false
    else do
      -- the occupied entry keeps its shard locked to the end of the arm
      callDedup (.insert id now)
      pushOrder id now
      callDedup (.unlock (.shard (shardOf id)))
      return true
  | none => do
    callDedup (.insert id now)
    callDedup (.unlock (.shard (shardOf id)))
    pushOrder id now
    return true

def releaseLocked (id : String) : DedupM Bool := do
  callDedup (.lock (.shard (shardOf id)))
  callDedup (.remove id)
  callDedup (.unlock (.shard (shardOf id)))
  return true

inductive DedupCall where
  | tryClaim (id : String)
  | release (id : String)

/-- A release answers nothing. -/
def DedupCall.program : DedupCall → DedupM Bool
  | tryClaim id => tryClaimLocked ttl shardOf id
  | release id => releaseLocked shardOf id

end Programs

abbrev DedupPool (ι : Type) := Pool ι DedupOp DedupOp.Res DedupShared Bool

/-- Any number of calls on a store none of whose locks is held. -/
def DedupPool.start {ι : Type} (shardOf : String → ℕ) (d : InMemoryDedup) (clock : ℕ) (calls : ι → DedupCall) :
    DedupPool ι :=
  ⟨⟨d, fun _ => false, clock⟩, fun i => (calls i).program d.ttl shardOf, []⟩

/-! ### One call alone -/

section Alone
variable {ttl : ℕ} {shardOf : String → ℕ} {s : DedupShared} {α : Type} {post : α → DedupShared → Prop}

/-- Run alone, at whatever the clock reads. -/
abbrev Alone (p : DedupM α) (post : α → DedupShared → Prop) (s : DedupShared) : Prop :=
  p.Ensures dedupAnswer (fun _ => True) post s

theorem now_alone {f : ℕ → DedupM α} (hf : ∀ c, s.clock ≤ c → Alone (f c) post { s with clock := c }) :
    Alone (callDedup .now >>= f) post s := by
  intro c r s' _ hs
  unfold dedupAnswer at hs
  dsimp only at hs
  split_ifs at hs with hc
  cases hs
  exact hf c hc

theorem lock_alone {l : DedupLock} {f : Unit → DedupM α}
    (hf : s.held l = false → Alone (f ()) post { s with held := Function.update s.held l true }) :
    Alone (callDedup (.lock l) >>= f) post s := by
  intro c r s' _ hs
  unfold dedupAnswer at hs
  dsimp only at hs
  split_ifs at hs with hl
  cases hs
  exact hf (Bool.eq_false_iff.mpr hl)

/-- Giving back the lock that was taken leaves the locks as they were. -/
theorem unlock_alone {held : DedupLock → Bool} {l : DedupLock} {f : Unit → DedupM α} (hl : held l = false)
    (hs : s.held = Function.update held l true) (hf : Alone (f ()) post { s with held }) :
    Alone (callDedup (.unlock l) >>= f) post s := by
  intro c r s' _ hstep
  cases hstep
  rw [hs, Function.update_idem, ← hl, Function.update_eq_self]
  exact hf

theorem free_alone {op : DedupOp} {r : op.Res} {s' : DedupShared} {f : op.Res → DedupM α}
    (hop : ∀ c, dedupAnswer c op s = some (r, s')) (hf : Alone (f r) post s') :
    Alone (callDedup op >>= f) post s := by
  intro c r' s'' _ hs
  rw [hop c] at hs
  cases hs
  exact hf

theorem gcFront_alone (now : ℕ) (queue : List (String × ℕ)) (hqueue : s.dedup.order = queue) :
    Alone (gcFront ttl shardOf now queue) (fun _ s' => s' = { s with dedup := { s.dedup with
      entries := (InMemoryDedup.gcLoop ttl now s.dedup.entries queue).1
      order := (InMemoryDedup.gcLoop ttl now s.dedup.entries queue).2 } }) s := by
  induction queue generalizing s with
  | nil =>
    unfold gcFront InMemoryDedup.gcLoop
    show s = _
    rw [← hqueue]
  | cons x rest ih =>
    obtain ⟨id, inserted⟩ := x
    unfold gcFront InMemoryDedup.gcLoop
    cases InMemoryDedup.young ttl now inserted with
    | true =>
      show s = _
      rw [if_pos rfl, ← hqueue]
    | false =>
      have hrest : s.dedup.order.tail = rest := by rw [hqueue, List.tail_cons]
      refine free_alone (fun _ => rfl) (lock_alone fun hfree => free_alone (fun _ => rfl) ?_)
      dsimp only
      rw [if_neg Bool.false_ne_true]
      cases hget : s.dedup.entries.get id with
      | none =>
        refine unlock_alone hfree rfl ?_
        exact ih (s := { s with dedup := { s.dedup with order := s.dedup.order.tail } }) hrest
      | some claimed =>
        refine unlock_alone hfree rfl ?_
        dsimp only
        cases InMemoryDedup.young ttl now claimed with
        | true => exact ih (s := { s with dedup := { s.dedup with order := s.dedup.order.tail } }) hrest
        | false =>
          refine lock_alone fun hfree => free_alone (fun _ => rfl) (unlock_alone hfree rfl ?_)
          exact ih (s := { s with dedup := { s.dedup with
            entries := s.dedup.entries.del id, order := s.dedup.order.tail } }) hrest

theorem gcLocked_alone : Alone (gcLocked s.dedup.ttl shardOf) (fun _ s' => ∃ c, s.clock ≤ c ∧
    s' = { s with dedup := s.dedup.gc c, clock := c }) s := by
  refine now_alone fun now hnow => lock_alone fun hfree => free_alone (fun _ => rfl) ?_
  refine Prog.ensures_bind.mpr ((gcFront_alone (s := ⟨s.dedup, _, now⟩) now _ rfl).mono fun _ s' hs' => ?_)
  rw [hs']
  exact unlock_alone (f := Prog.pure) hfree rfl ⟨now, hnow, rfl⟩

theorem pushOrder_alone {id : String} {now : ℕ} : Alone (pushOrder id now) (fun _ s' => s' =
    { s with dedup := { s.dedup with order := s.dedup.order ++ [(id, now)] } }) s :=
  lock_alone fun hfree => free_alone (fun _ => rfl) (unlock_alone (f := Prog.pure) hfree rfl rfl)

/-- A call that runs alone does what the sequential operation says, at two readings of the clock. -/
theorem tryClaimLocked_alone (id : String) : Alone (tryClaimLocked s.dedup.ttl shardOf id) (fun claimed s' =>
    ∃ gcNow now, s.clock ≤ gcNow ∧ gcNow ≤ now ∧ claimed = (s.dedup.tryClaim gcNow now id).1 ∧
      s' = { s with dedup := (s.dedup.tryClaim gcNow now id).2, clock := now }) s := by
  unfold tryClaimLocked
  refine Prog.ensures_bind.mpr (gcLocked_alone.mono fun _ s' => ?_)
  rintro ⟨gcNow, hgc, rfl⟩
  refine now_alone fun now hnow => lock_alone fun hfree => free_alone (fun _ => rfl) ?_
  dsimp only
  have httl : (s.dedup.gc gcNow).ttl = s.dedup.ttl := rfl
  cases hget : (s.dedup.gc gcNow).entries.get id with
  | none =>
    have hclaim : s.dedup.tryClaim gcNow now id = (true, (s.dedup.gc gcNow).claim now id) := by
      unfold InMemoryDedup.tryClaim
      dsimp only
      rw [hget]
    refine free_alone (fun _ => rfl) (unlock_alone hfree rfl ?_)
    refine Prog.ensures_bind.mpr (pushOrder_alone.mono fun _ s' hs' => ?_)
    refine ⟨gcNow, now, hgc, hnow, ?_, ?_⟩
    · rw [hclaim]
    · rw [hs', hclaim]
      rfl
  | some claimed =>
    dsimp only
    cases hyoung : InMemoryDedup.young s.dedup.ttl now claimed with
    | true =>
      have hclaim : s.dedup.tryClaim gcNow now id = (false, s.dedup.gc gcNow) := by
        unfold InMemoryDedup.tryClaim
        dsimp only
        rw [hget]
        dsimp only
        rw [httl, hyoung, if_pos rfl]
      refine unlock_alone hfree rfl ⟨gcNow, now, hgc, hnow, ?_⟩
      rw [hclaim]
      exact ⟨rfl, rfl⟩
    | false =>
      have hclaim : s.dedup.tryClaim gcNow now id = (true, (s.dedup.gc gcNow).claim now id) := by
        unfold InMemoryDedup.tryClaim
        dsimp only
        rw [hget]
        dsimp only
        rw [httl, hyoung, if_neg Bool.false_ne_true]
      refine free_alone (fun _ => rfl) ?_
      refine Prog.ensures_bind.mpr (pushOrder_alone.mono fun _ s' hs' => ?_)
      rw [hs']
      refine unlock_alone hfree rfl ⟨gcNow, now, hgc, hnow, ?_⟩
      rw [hclaim]
      exact ⟨rfl, rfl⟩

end Alone

/-! ## The locks -/

def DedupOp.act : DedupOp → LockAct DedupLock
  | lock l => .take l
  | unlock l => .give l
  | _ => .free

def dedupLocking : Locking DedupOp DedupOp.Res DedupShared ℕ DedupLock where
  answer := dedupAnswer
  act := DedupOp.act
  held s := s.held
  taken := by
    intro c op r s s' l hact hs
    cases op <;> cases hact
    unfold dedupAnswer at hs
    dsimp only at hs
    split_ifs at hs with hheld
    cases hs
    exact ⟨Bool.eq_false_iff.mpr hheld, rfl⟩
  given := by
    intro c op r s s' l hact hs
    cases op <;> cases hact
    cases hs
    rfl
  untouched := by
    intro c op r s s' hact hs
    cases op with
    | lock l | unlock l => cases hact
    | now =>
      unfold dedupAnswer at hs
      dsimp only at hs
      split_ifs at hs
      cases hs
      rfl
    | _ => cases hs; rfl
  possible := by
    intro op s hfree
    cases op with
    | now => exact ⟨s.clock, _, _, if_pos le_rfl⟩
    | lock l => exact ⟨0, _, _, if_neg (by rw [hfree l rfl]; nofun)⟩
    | _ => exact ⟨0, _, _, rfl⟩

/-- The order mutex is taken first, or under one shard; a shard first, or under the order mutex. -/
def dedupDiscipline (q : List DedupLock) : DedupLock → Prop
  | .order => q = [] ∨ ∃ n, q = [.shard n]
  | .shard _ => q = [] ∨ q = [.order]

/-! ### What a call has seen -/

/-- The last reading of the clock, and whether the entry looked up since has expired by then and is yet to be
queued again. -/
structure DedupView where
  now : ℕ
  renews : Bool

def DedupView.next (ttl : ℕ) (v : DedupView) : (op : DedupOp) → op.Res → DedupView
  | .now, now => ⟨now, false⟩
  | .get _, found => { v with renews := found.any fun claimed => !InMemoryDedup.young ttl v.now claimed }
  | .pushBack .., _ => { v with renews := false }
  | _, _ => v

def dedupView {ι : Type} [DecidableEq ι] (ttl : ℕ) (pool : DedupPool ι) (i : ι) : DedupView :=
  watch (DedupView.next ttl) ⟨0, false⟩ i pool.trace

/-- Where a call is: its locks, what it has seen, what is left of the queue that it collects, and the shard that it
comes to next. -/
structure DedupPhase where
  locks : List DedupLock
  view : DedupView
  queue : Option (List (String × ℕ))
  comes : Option ℕ

def DedupPhase.nextQueue (queue : Option (List (String × ℕ))) : (op : DedupOp) → op.Res → Option (List (String × ℕ))
  | .order, read => some read
  | .popFront, _ => queue.map List.tail
  | .pushBack .., _ | .unlock .order, _ => none
  | _, _ => queue

def DedupPhase.nextComes (shardOf : String → ℕ) (queue : Option (List (String × ℕ))) : DedupOp → Option ℕ
  | .popFront => (queue.bind List.head?).map fun x => shardOf x.1
  | .unlock (.shard n) => some n
  | _ => none

/-- What may be called where. -/
def DedupPhase.allows (shardOf : String → ℕ) (q : DedupPhase) : DedupOp → Prop
  | .lock .order => q.locks = [] ∨ ∃ n, q.locks = [.shard n] ∧ q.view.renews = true
  | .lock (.shard n) => (q.locks = [] ∧ q.view.renews = false) ∨ (q.locks = [.order] ∧ q.comes = some n)
  | .unlock .order => q.locks = [.order] ∨ ∃ n, q.locks = [.order, .shard n] ∧ q.view.renews = false
  | .unlock (.shard n) => (q.locks = [.shard n] ∧ q.view.renews = false) ∨ q.locks = [.shard n, .order]
  | .order => q.locks = [.order]
  | .popFront => q.locks = [.order] ∧ ∃ x rest, q.queue = some (x :: rest)
  | .pushBack .. => .order ∈ q.locks
  | .get id => (q.locks = [.shard (shardOf id)] ∧ q.view.renews = false) ∨ q.locks = [.shard (shardOf id), .order]
  | .remove _ => q.view.renews = false ∨ .order ∈ q.locks
  | .now => q.locks = []
  | .insert .. => True

def dedupPhases (ttl : ℕ) (shardOf : String → ℕ) : Monitor DedupOp DedupOp.Res DedupPhase where
  next q op r := ⟨(dedupLocking.monitor dedupDiscipline).next q.locks op r, q.view.next ttl op r,
    DedupPhase.nextQueue q.queue op r, DedupPhase.nextComes shardOf q.queue op⟩
  allows q op := q.allows shardOf op
  replies _ _ := True

section Meets
variable {ttl : ℕ} {shardOf : String → ℕ} {α : Type} {post : α → DedupPhase → Prop} {q : DedupPhase}

theorem call_meets {op : DedupOp} {f : op.Res → DedupM α} (hop : q.allows shardOf op)
    (hf : ∀ r, (f r).Meets (dedupPhases ttl shardOf) post ((dedupPhases ttl shardOf).next q op r)) :
    (callDedup op >>= f).Meets (dedupPhases ttl shardOf) post q :=
  ⟨hop, fun r _ => hf r⟩

theorem unlock_meets {locks : List DedupLock} {view : DedupView} {queue : Option (List (String × ℕ))} {comes : Option ℕ}
    {l : DedupLock} {f : Unit → DedupM α} (hop : DedupPhase.allows shardOf ⟨l :: locks, view, queue, comes⟩ (.unlock l))
    (hf : (f ()).Meets (dedupPhases ttl shardOf) post ⟨locks, view, DedupPhase.nextQueue queue (.unlock l) (),
      DedupPhase.nextComes shardOf queue (.unlock l)⟩) :
    (callDedup (.unlock l) >>= f).Meets (dedupPhases ttl shardOf) post ⟨l :: locks, view, queue, comes⟩ := by
  refine call_meets hop fun _ => ?_
  have hnext : (dedupPhases ttl shardOf).next ⟨l :: locks, view, queue, comes⟩ (.unlock l) () = ⟨locks, view,
      DedupPhase.nextQueue queue (.unlock l) (), DedupPhase.nextComes shardOf queue (.unlock l)⟩ :=
    congrArg (fun locks => DedupPhase.mk locks view _ _) (List.erase_cons_head ..)
  rw [hnext]
  exact hf

theorem gcFront_meets (now : ℕ) (queue : List (String × ℕ)) {view : DedupView} {comes : Option ℕ} :
    (gcFront ttl shardOf now queue).Meets (dedupPhases ttl shardOf) (fun _ q => q.locks = [.order])
      ⟨[.order], view, some queue, comes⟩ := by
  induction queue generalizing view comes with
  | nil => exact rfl
  | cons x rest ih =>
    obtain ⟨id, inserted⟩ := x
    unfold gcFront
    cases InMemoryDedup.young ttl now inserted with
    | true => exact rfl
    | false =>
      refine call_meets ⟨rfl, _, _, rfl⟩ fun _ => call_meets (.inr ⟨rfl, rfl⟩) fun _ =>
        call_meets (.inr rfl) fun found => ?_
      cases found with
      | none => exact unlock_meets (.inr rfl) ih
      | some claimed =>
        refine unlock_meets (.inr rfl) ?_
        cases InMemoryDedup.young ttl now claimed with
        | true => exact ih
        | false =>
          refine call_meets (.inr ⟨rfl, rfl⟩) fun _ => call_meets (.inr ?_) fun _ => unlock_meets (.inr rfl) ih
          exact List.mem_cons_of_mem _ List.mem_cons_self

theorem gcLocked_meets {view : DedupView} {queue : Option (List (String × ℕ))} {comes : Option ℕ} :
    (gcLocked ttl shardOf).Meets (dedupPhases ttl shardOf) (fun _ q => q.locks = []) ⟨[], view, queue, comes⟩ := by
  refine call_meets rfl fun now => call_meets (.inl rfl) fun _ => call_meets rfl fun queue => ?_
  refine Prog.meets_bind.mpr ((gcFront_meets now queue).mono fun _ q hq => ?_)
  obtain ⟨locks, view, queue, comes⟩ := q
  subst hq
  exact unlock_meets (f := Prog.pure) (.inl rfl) rfl

/-- Under no lock, or under the shard of the entry that has expired. -/
theorem pushOrder_meets {locks : List DedupLock} {view : DedupView} {queue : Option (List (String × ℕ))}
    {comes : Option ℕ} {id : String} {now : ℕ} (hlocks : locks = [] ∨ ∃ n, locks = [.shard n] ∧ view.renews = true) :
    (pushOrder id now).Meets (dedupPhases ttl shardOf) (fun _ q => q.locks = locks ∧ q.view.renews = false)
      ⟨locks, view, queue, comes⟩ := by
  refine call_meets hlocks fun _ => call_meets List.mem_cons_self fun _ => ?_
  refine unlock_meets (f := Prog.pure) ?_ ⟨rfl, rfl⟩
  rcases hlocks with rfl | ⟨n, rfl, -⟩
  · exact .inl rfl
  · exact .inr ⟨n, rfl, rfl⟩

theorem tryClaimLocked_meets (id : String) {view : DedupView} {queue : Option (List (String × ℕ))} {comes : Option ℕ} :
    (tryClaimLocked ttl shardOf id).Meets (dedupPhases ttl shardOf) (fun _ q => q.locks = [])
      ⟨[], view, queue, comes⟩ := by
  unfold tryClaimLocked
  refine Prog.meets_bind.mpr (gcLocked_meets.mono fun _ q hq => ?_)
  obtain ⟨locks, view, queue, comes⟩ := q
  subst hq
  refine call_meets rfl fun now => call_meets (.inl ⟨rfl, rfl⟩) fun _ => call_meets (.inl ⟨rfl, rfl⟩) fun found => ?_
  cases found with
  | none =>
    refine call_meets trivial fun _ => unlock_meets (.inl ⟨rfl, rfl⟩) ?_
    exact Prog.meets_bind.mpr ((pushOrder_meets (.inl rfl)).mono fun _ q hq => hq.1)
  | some claimed =>
    dsimp only
    cases hyoung : InMemoryDedup.young ttl now claimed with
    | true =>
      have hview : (!InMemoryDedup.young ttl now claimed) = false := by rw [hyoung]; rfl
      exact unlock_meets (.inl ⟨rfl, hview⟩) rfl
    | false =>
      have hview : (!InMemoryDedup.young ttl now claimed) = true := by rw [hyoung]; rfl
      refine call_meets trivial fun _ => Prog.meets_bind.mpr ((pushOrder_meets (.inr ⟨_, rfl, hview⟩)).mono ?_)
      rintro _ ⟨locks, view, queue, comes⟩ ⟨hlocks, hrenews⟩
      dsimp only at hlocks
      subst hlocks
      exact unlock_meets (.inl ⟨rfl, hrenews⟩) rfl

theorem program_meets (c : DedupCall) :
    (c.program ttl shardOf).Meets (dedupPhases ttl shardOf) (fun _ q => q.locks = []) ⟨[], ⟨0, false⟩, none, none⟩ := by
  cases c with
  | tryClaim id => exact tryClaimLocked_meets id
  | release id =>
    exact call_meets (.inl ⟨rfl, rfl⟩) fun _ => call_meets (.inl rfl) fun _ => unlock_meets (.inl ⟨rfl, rfl⟩) rfl

end Meets

/-! ## Deadlocks -/

section Run
variable {ι : Type} [DecidableEq ι] (ttl : ℕ) (shardOf : String → ℕ) (pool : DedupPool ι)

/-- Call `i` works off the queue and asks for shard `n`. -/
def Collects (i : ι) (n : ℕ) : Prop :=
  DedupLock.order ∈ dedupLocking.holds pool i ∧ ∃ k, pool.threads i = .call (.lock (.shard n)) k

/-- Call `i` takes from the queue an id of shard `n`. -/
def Pops (i : ι) (n : ℕ) : Prop := ∃ k id inserted,
  pool.threads i = .call .popFront k ∧ pool.shared.dedup.order.head? = some (id, inserted) ∧ shardOf id = n

/-- Call `i` looks up an id of shard `n` whose claim has expired by what the call last read of the clock. -/
def FindsExpired (i : ι) (n : ℕ) : Prop := ∃ id claimed k,
  pool.threads i = .call (.get id) k ∧ pool.shared.dedup.entries.get id = some claimed ∧
    InMemoryDedup.young ttl (dedupView ttl pool i).now claimed = false ∧ shardOf id = n

/-- Call `i` has found its claim in shard `n` expired, keeps the shard locked and has yet to queue the claim again. -/
def Renews (i : ι) (n : ℕ) : Prop :=
  dedupLocking.holds pool i = [.shard n] ∧ (dedupView ttl pool i).renews = true

/-- Call `i` finds its claim expired in a shard that another call is to collect in next, or it comes, collecting, to
a shard in which another call has found its claim expired. -/
def Clashes (i : ι) : Prop := ∃ j n, j ≠ i ∧
  ((FindsExpired ttl shardOf pool i n ∧ Collects pool j n) ∨ (Pops shardOf pool i n ∧ Renews ttl pool j n))

/-- One call collects in the shard in which another renews its claim. -/
def Crossed : Prop := ∃ i j n, Collects pool i n ∧ Renews ttl pool j n

def dedupPhaseOf (i : ι) : DedupPhase :=
  watch (dedupPhases ttl shardOf).next ⟨[], ⟨0, false⟩, none, none⟩ i pool.trace

abbrev FollowsLocks : Prop :=
  pool.Tracks (dedupPhases ttl shardOf) (fun _ _ q => q.locks = []) fun _ => ⟨[], ⟨0, false⟩, none, none⟩

/-- Every lock has one holder, and who has read the queue holds it as it was read. -/
structure Settled : Prop where
  holders : dedupLocking.HasHolders pool
  exclusive : dedupLocking.Exclusive pool
  queue : ∀ {i queue}, (dedupPhaseOf ttl shardOf pool i).queue = some queue →
    DedupLock.order ∈ dedupLocking.holds pool i ∧ pool.shared.dedup.order = queue

variable {ttl shardOf pool}

variable (ttl shardOf) in
theorem dedupPhaseOf_locks (i : ι) : (dedupPhaseOf ttl shardOf pool i).locks = dedupLocking.holds pool i :=
  watch_map _ DedupPhase.locks (fun _ _ _ => rfl) _ i pool.trace

theorem dedupPhaseOf_view (i : ι) : (dedupPhaseOf ttl shardOf pool i).view = dedupView ttl pool i :=
  watch_map _ DedupPhase.view (fun _ _ _ => rfl) _ i pool.trace

theorem dedupPhaseOf_after_self (i : ι) (op : DedupOp) (r : op.Res) (k : op.Res → DedupM Bool) (s : DedupShared) :
    dedupPhaseOf ttl shardOf (pool.after i op r k s) i =
      (dedupPhases ttl shardOf).next (dedupPhaseOf ttl shardOf pool i) op r := by
  unfold dedupPhaseOf
  rw [Pool.after_trace, watch_cons_self]

theorem dedupPhaseOf_after_ne {i j : ι} (hj : j ≠ i) (op : DedupOp) (r : op.Res) (k : op.Res → DedupM Bool)
    (s : DedupShared) : dedupPhaseOf ttl shardOf (pool.after i op r k s) j = dedupPhaseOf ttl shardOf pool j := by
  unfold dedupPhaseOf
  rw [Pool.after_trace, watch_cons_ne _ _ (Ne.symm hj)]

theorem eq_lock_of_take {op : DedupOp} {l : DedupLock} (h : op.act = .take l) : op = .lock l := by
  cases op <;> cases h
  rfl

theorem eq_unlock_of_give {op : DedupOp} {l : DedupLock} (h : op.act = .give l) : op = .unlock l := by
  cases op <;> cases h
  rfl

theorem FollowsLocks.allows (h : FollowsLocks ttl shardOf pool) {i : ι} {op : DedupOp} {k : op.Res → DedupM Bool}
    (hk : pool.threads i = .call op k) : (dedupPhaseOf ttl shardOf pool i).allows shardOf op :=
  Pool.Tracks.allows h hk

/-- What a call may do, it may do by the discipline. -/
theorem FollowsLocks.disciplined (h : FollowsLocks ttl shardOf pool) : dedupLocking.Disciplined dedupDiscipline pool := by
  intro i
  have hlocks : (dedupPhaseOf ttl shardOf pool i).locks =
      watch (dedupLocking.monitor dedupDiscipline).next [] i pool.trace :=
    watch_map _ DedupPhase.locks (fun _ _ _ => rfl) _ i pool.trace
  rw [← hlocks]
  refine Prog.Meets.map DedupPhase.locks (fun _ _ _ => rfl) ?_ (fun _ _ _ => trivial) (h i)
  intro q op hop l hact
  obtain rfl := eq_lock_of_take hact
  cases l with
  | order => exact hop.imp_right fun ⟨n, hn, _⟩ => ⟨n, hn⟩
  | shard n => exact hop.imp And.left And.left

/-- A call gives back what it holds. -/
theorem FollowsLocks.mem_of_give (h : FollowsLocks ttl shardOf pool) {i : ι} {op : DedupOp} {k : op.Res → DedupM Bool}
    (hk : pool.threads i = .call op k) {l : DedupLock} (hact : op.act = .give l) : l ∈ dedupLocking.holds pool i := by
  obtain rfl := eq_unlock_of_give hact
  have hop := h.allows hk
  rw [← dedupPhaseOf_locks ttl shardOf]
  cases l with
  | order =>
    rcases hop with hone | ⟨n, htwo, -⟩
    · rw [hone]
      exact List.mem_cons_self
    · rw [htwo]
      exact List.mem_cons_self
  | shard n =>
    rcases hop with ⟨hone, -⟩ | htwo
    · rw [hone]
      exact List.mem_cons_self
    · rw [htwo]
      exact List.mem_cons_self

/-! ### One step -/

/-- Only a call that takes from the queue or adds to it changes it. -/
theorem order_of_answer {c : ℕ} {op : DedupOp} {r : op.Res} {s s' : DedupShared}
    (hs : dedupAnswer c op s = some (r, s')) (hpop : op ≠ .popFront) (hpush : ∀ id t, op ≠ .pushBack id t) :
    s'.dedup.order = s.dedup.order := by
  cases op with
  | now | lock l =>
    unfold dedupAnswer at hs
    dsimp only at hs
    split_ifs at hs
    cases hs
    rfl
  | popFront => exact absurd rfl hpop
  | pushBack id t => exact absurd rfl (hpush id t)
  | _ => cases hs; rfl

section Step
variable {i : ι} {c : ℕ} {op : DedupOp} {r : op.Res} {s : DedupShared} {k : op.Res → DedupM Bool}
  (hfollows : FollowsLocks ttl shardOf pool) (hsettled : Settled ttl shardOf pool) (hk : pool.threads i = .call op k)
  (hs : dedupAnswer c op pool.shared = some (r, s))
include hfollows hsettled hk hs

/-- **One step** leaves each lock to one holder, and the queue to the call that has read it. -/
theorem Settled.after : Settled ttl shardOf (pool.after i op r k s) := by
  have hexclusive := Locking.exclusive_after (K := dedupLocking) hsettled.exclusive (i := i) k hs
    fun l hact => hfollows.mem_of_give hk hact
  refine ⟨Locking.hasHolders_after (K := dedupLocking) hsettled.holders k hs, hexclusive, fun {j queue} hj => ?_⟩
  have hop := hfollows.allows hk
  by_cases hji : j = i
  · subst hji
    rw [dedupPhaseOf_after_self] at hj
    have hkept : op.act ≠ .give .order → (dedupPhaseOf ttl shardOf pool j).queue = some queue →
        s.dedup.order = pool.shared.dedup.order →
        DedupLock.order ∈ dedupLocking.holds (pool.after j op r k s) j ∧ s.dedup.order = queue := by
      intro hgive hbefore hsame
      obtain ⟨hholds, hread⟩ := hsettled.queue hbefore
      exact ⟨Locking.mem_holds_after r k s hholds hgive, hsame.trans hread⟩
    cases op with
    | order =>
      cases hs
      cases hj
      refine ⟨Locking.mem_holds_after _ k _ ?_ nofun, rfl⟩
      rw [← dedupPhaseOf_locks ttl shardOf, hop]
      exact List.mem_cons_self
    | popFront =>
      obtain ⟨-, x, rest, hqueue⟩ := hop
      obtain ⟨hholds, hread⟩ := hsettled.queue hqueue
      cases hs
      refine ⟨Locking.mem_holds_after _ k _ hholds nofun, ?_⟩
      have hrest : (dedupPhaseOf ttl shardOf pool j).queue.map List.tail = some queue := hj
      rw [hqueue] at hrest
      cases hrest
      exact congrArg List.tail hread
    | pushBack => cases hj
    | unlock l =>
      cases l with
      | order => cases hj
      | shard n => exact hkept nofun hj (order_of_answer hs nofun nofun)
    | _ => exact hkept nofun hj (order_of_answer hs nofun nofun)
  · rw [dedupPhaseOf_after_ne hji] at hj
    obtain ⟨hholds, hread⟩ := hsettled.queue hj
    rw [Locking.holds_after_ne hji]
    refine ⟨hholds, Eq.trans (order_of_answer hs ?_ ?_) hread⟩
    · rintro rfl
      refine hji (hsettled.exclusive.unique hholds ?_)
      rw [← dedupPhaseOf_locks ttl shardOf, hop.1]
      exact List.mem_cons_self
    · rintro id t rfl
      refine hji (hsettled.exclusive.unique hholds ?_)
      rw [← dedupPhaseOf_locks ttl shardOf]
      exact hop

/-- A call that comes, collecting, to a shard in which another renews its claim clashes. -/
theorem clashes_of_collects {j : ι} {n : ℕ} (hj : j ≠ i) (hcollects : Collects (pool.after i op r k s) i n)
    (hrenews : Renews ttl pool j n) : Clashes ttl shardOf pool i := by
  obtain ⟨hholds, k', hk'⟩ := hcollects
  have hcomes : DedupPhase.nextComes shardOf (dedupPhaseOf ttl shardOf pool i).queue op = some n := by
    have hnext := FollowsLocks.allows (Pool.Tracks.after hfollows hk trivial s) hk'
    rw [← dedupPhaseOf_locks ttl shardOf] at hholds
    rcases hnext with ⟨hnone, -⟩ | ⟨-, hcomes⟩
    · rw [hnone] at hholds
      cases hholds
    · rw [dedupPhaseOf_after_self] at hcomes
      exact hcomes
  have hop := hfollows.allows hk
  cases op with
  | popFront =>
    obtain ⟨-, ⟨id, inserted⟩, rest, hqueue⟩ := hop
    rw [hqueue] at hcomes
    cases hcomes
    refine ⟨j, _, hj, .inr ⟨⟨k, id, inserted, hk, ?_, rfl⟩, hrenews⟩⟩
    rw [(hsettled.queue hqueue).2, List.head?_cons]
  | unlock l =>
    cases l with
    | order => cases hcomes
    | shard m =>
      cases hcomes
      have hshared : DedupLock.shard n ∈ dedupLocking.holds pool j := by
        rw [hrenews.1]
        exact List.mem_cons_self
      exact absurd (hsettled.exclusive.unique hshared (hfollows.mem_of_give hk rfl)) hj
  | _ => cases hcomes

/-- A call that finds its claim expired in a shard that another collects in next clashes. -/
theorem clashes_of_renews {j : ι} {n : ℕ} (hj : j ≠ i) (hcollects : Collects pool j n)
    (hbefore : ¬ Renews ttl pool i n) (hrenews : Renews ttl (pool.after i op r k s) i n) :
    Clashes ttl shardOf pool i := by
  obtain ⟨hholds, hview⟩ := hrenews
  rw [Locking.holds_after_self] at hholds
  unfold dedupView at hview
  rw [Pool.after_trace, watch_cons_self] at hview
  have hop := hfollows.allows hk
  unfold DedupPhase.allows at hop
  rw [dedupPhaseOf_locks, dedupPhaseOf_view] at hop
  cases op with
  | get id =>
    rcases hop with ⟨hone, -⟩ | htwo
    · have hn : shardOf id = n := by
        have hsame : dedupLocking.holds pool i = [.shard n] := hholds
        rw [hone] at hsame
        cases hsame
        rfl
      cases hs
      obtain ⟨claimed, hclaimed, hold⟩ := (Option.any_eq_true _ _).mp hview
      refine ⟨j, n, hj, .inl ⟨⟨id, claimed, k, hk, hclaimed, ?_, hn⟩, hcollects⟩⟩
      rwa [Bool.not_eq_true'] at hold
    · have horder : DedupLock.order ∈ dedupLocking.holds pool i := by
        rw [htwo]
        exact List.mem_cons_of_mem _ List.mem_cons_self
      exact absurd (hsettled.exclusive.unique hcollects.1 horder) hj
  | now | pushBack => cases hview
  | lock l =>
    have hsame : (dedupView ttl pool i).renews = true := hview
    obtain ⟨rfl, hnone⟩ := List.cons.inj hholds
    rcases hop with ⟨-, hfresh⟩ | ⟨hone, -⟩
    · rw [hfresh] at hsame
      cases hsame
    · rw [hone] at hnone
      cases hnone
  | unlock l =>
    have hsame : (dedupView ttl pool i).renews = true := hview
    have hleft : (dedupLocking.holds pool i).erase l = [.shard n] := hholds
    cases l with
    | order =>
      rcases hop with hone | ⟨m, -, hqueued⟩
      · rw [hone, List.erase_cons_head] at hleft
        cases hleft
      · rw [hqueued] at hsame
        cases hsame
    | shard m =>
      rcases hop with ⟨-, hqueued⟩ | htwo
      · rw [hqueued] at hsame
        cases hsame
      · rw [htwo, List.erase_cons_head] at hleft
        cases hleft
  | _ => exact absurd ⟨hholds, hview⟩ hbefore

/-- **One step** that does not clash leaves the calls uncrossed. -/
theorem not_crossed_after (hclash : ¬ Clashes ttl shardOf pool i) (h : ¬ Crossed ttl pool) :
    ¬ Crossed ttl (pool.after i op r k s) := by
  rintro ⟨a, b, n, ha, hb⟩
  have hab : a ≠ b := by
    rintro rfl
    have horder := ha.1
    rw [hb.1] at horder
    simp at horder
  have hcollects : a ≠ i → Collects pool a n := by
    intro hai
    unfold Collects at ha
    rw [Locking.holds_after_ne hai, Pool.after_threads_ne _ _ _ _ _ _ hai] at ha
    exact ha
  have hrenews : b ≠ i → Renews ttl pool b n := by
    intro hbi
    unfold Renews dedupView at hb
    rw [Locking.holds_after_ne hbi, Pool.after_trace, watch_cons_ne _ _ (Ne.symm hbi)] at hb
    exact hb
  by_cases hai : a = i
  · subst hai
    exact hclash (clashes_of_collects hfollows hsettled hk hs (Ne.symm hab) ha (hrenews (Ne.symm hab)))
  · have hbefore : ¬ Renews ttl pool b n := fun hb => h ⟨a, b, n, hcollects hai, hb⟩
    by_cases hbi : b = i
    · subst hbi
      exact hclash (clashes_of_renews hfollows hsettled hk hs hai (hcollects hai) hbefore hb)
    · exact hbefore (hrenews hbi)

end Step

/-! ### A run -/

section Deadlock
variable (hfollows : FollowsLocks ttl shardOf pool) (hsettled : Settled ttl shardOf pool)
  (h : dedupLocking.Deadlocked pool)
include hfollows hsettled h

/-- In a deadlock, whoever holds the order mutex collects. -/
theorem collects_of_deadlocked (hheld : pool.shared.held .order = true) :
    ∃ i n, Collects pool i n ∧ pool.shared.held (.shard n) = true := by
  obtain ⟨i, op, k, l, hi, hk, hact, hl, hasks⟩ := h.holder hfollows.disciplined hsettled.holders hheld
  obtain rfl := eq_lock_of_take hact
  cases l with
  | order =>
    rcases hasks with hnone | ⟨n, hone⟩
    · rw [hnone] at hi
      cases hi
    · rw [hone] at hi
      simp at hi
  | shard n => exact ⟨i, n, ⟨hi, k, hk⟩, hl⟩

/-- In a deadlock, whoever holds a shard renews a claim in it. -/
theorem renews_of_deadlocked {n : ℕ} (hheld : pool.shared.held (.shard n) = true) :
    ∃ j, Renews ttl pool j n ∧ pool.shared.held .order = true := by
  obtain ⟨j, op, k, l, hj, hk, hact, hl, -⟩ := h.holder hfollows.disciplined hsettled.holders hheld
  obtain rfl := eq_lock_of_take hact
  have hop := hfollows.allows hk
  unfold DedupPhase.allows at hop
  rw [dedupPhaseOf_locks, dedupPhaseOf_view] at hop
  cases l with
  | order =>
    rcases hop with hnone | ⟨m, hone, hrenews⟩
    · rw [hnone] at hj
      cases hj
    · rw [hone] at hj
      cases List.mem_singleton.mp hj
      exact ⟨j, ⟨hone, hrenews⟩, hl⟩
  | shard m =>
    rcases hop with ⟨hnone, -⟩ | ⟨hone, -⟩
    · rw [hnone] at hj
      cases hj
    · rw [hone] at hj
      simp at hj

/-- Only crossed calls are deadlocked. -/
theorem crossed_of_deadlocked : Crossed ttl pool := by
  have horder : pool.shared.held .order = true → Crossed ttl pool := by
    intro hheld
    obtain ⟨i, n, hi, hn⟩ := collects_of_deadlocked hfollows hsettled h hheld
    obtain ⟨j, hj, -⟩ := renews_of_deadlocked hfollows hsettled h hn
    exact ⟨i, j, n, hi, hj⟩
  obtain ⟨i, hi⟩ := h.1
  obtain ⟨op, k, l, -, hact, hl⟩ := h.waits hi
  cases l with
  | order => exact horder hl
  | shard n =>
    obtain ⟨-, -, hheld⟩ := renews_of_deadlocked hfollows hsettled h hl
    exact horder hheld

end Deadlock

/-- **No deadlock.** In every run in which no call finds its claim expired in the shard that another is to collect
in next, and none comes to collect in a shard in which another has found its claim expired, some call can go on in
every state, or all have returned. -/
theorem dedup_live (shardOf : String → ℕ) (d : InMemoryDedup) (clock : ℕ) (calls : ι → DedupCall)
    (sched : List (ι × ℕ))
    (hrun : EachStep (Pool.step dedupAnswer) (fun pool x => ¬ Clashes d.ttl shardOf pool x.1)
      (DedupPool.start shardOf d clock calls) sched) :
    Throughout (Pool.step dedupAnswer) (fun pool => ¬ dedupLocking.Deadlocked pool)
      (DedupPool.start shardOf d clock calls) sched := by
  have hfollows : FollowsLocks d.ttl shardOf (DedupPool.start shardOf d clock calls) := fun i => program_meets (calls i)
  have hsettled : Settled d.ttl shardOf (DedupPool.start shardOf d clock calls) := by
    refine ⟨fun _ hl => (by cases hl), ⟨fun hl => (by cases hl), fun hl => (by cases hl), fun _ => List.nodup_nil⟩, ?_⟩
    intro i queue hqueue
    cases hqueue
  have huncrossed : ¬ Crossed d.ttl (DedupPool.start shardOf d clock calls) := by
    rintro ⟨i, j, n, ⟨hi, -⟩, -⟩
    cases hi
  refine Throughout.mono (P := fun pool => FollowsLocks d.ttl shardOf pool ∧ Settled d.ttl shardOf pool ∧
    ¬ Crossed d.ttl pool) (fun pool h hdead => h.2.2 (crossed_of_deadlocked h.1 h.2.1 hdead)) ?_
  refine throughout_of_eachStep (fun pool x hclash hpool => ?_) hrun ⟨hfollows, hsettled, huncrossed⟩
  exact Pool.step_keeps (P := fun _ => True) (C := fun pool x => ¬ Clashes d.ttl shardOf pool x.1)
    (I := fun pool => Settled d.ttl shardOf pool ∧ ¬ Crossed d.ttl pool) (fun _ _ _ _ _ _ _ _ => trivial)
    (fun pool i c op k r s hfollows hI _ hclash hk hs _ _ _ =>
      ⟨hI.1.after hfollows hk hs, not_crossed_after hfollows hI.1 hk hs hclash hI.2⟩)
    hpool.1 hpool.2 trivial hclash

/-- A call that alone takes steps never clashes. -/
theorem eachStep_alone (i : ι) (sched : List (ι × ℕ)) (hsched : ∀ x ∈ sched, x.1 = i)
    (hpool : ∀ j, j ≠ i → dedupLocking.holds pool j = []) :
    EachStep (Pool.step dedupAnswer) (fun pool x => ¬ Clashes ttl shardOf pool x.1) pool sched := by
  induction sched generalizing pool with
  | nil => trivial
  | cons x sched ih =>
    have hx : x.1 = i := hsched x List.mem_cons_self
    have hstep : ∀ j, j ≠ i → dedupLocking.holds (pool.step dedupAnswer x) j = [] := by
      intro j hj
      rcases Pool.step_cases dedupAnswer pool x with hidle | ⟨op, k, r, s, -, -, hmoved⟩
      · rw [hidle]
        exact hpool j hj
      · rw [hmoved, Locking.holds_after_ne (by rw [hx]; exact hj)]
        exact hpool j hj
    refine ⟨?_, ih (fun y hy => hsched y (List.mem_cons_of_mem _ hy)) hstep⟩
    rintro ⟨j, n, hj, ⟨-, hcollects, -⟩ | ⟨-, hrenews, -⟩⟩
    · rw [hpool j (hx ▸ hj)] at hcollects
      cases hcollects
    · rw [hpool j (hx ▸ hj)] at hrenews
      cases hrenews

end Run

/-! ### A claim that expires between two readings -/

/-- Three claims of one delivery that is good for ten units. -/
def claims (_ : Fin 3) : DedupCall := .tryClaim "x"

def oneShard (_ : String) : ℕ := 0

/-- One claim alone. -/
def claimedOnce : List (Fin 3 × ℕ) := List.replicate 12 (0, 0)

theorem claimedOnce_live : Throughout (Pool.step dedupAnswer) (fun pool => ¬ dedupLocking.Deadlocked pool)
    (DedupPool.start oneShard (.new 10) 0 claims) claimedOnce :=
  dedup_live oneShard (.new 10) 0 claims claimedOnce
    (eachStep_alone 0 claimedOnce (fun _ hx => by rw [List.eq_of_mem_replicate hx]) fun _ _ => rfl)

/-- The second claim collects at 9 and looks at 10; the third collects at 10. -/
def expiring : List (Fin 3 × ℕ) :=
  List.replicate 12 (0, 0) ++ List.replicate 4 (1, 9) ++ List.replicate 4 (1, 10) ++ List.replicate 4 (2, 10)

theorem expiring_deadlocks : ¬ ∀ (shardOf : String → ℕ) (d : InMemoryDedup) (clock : ℕ) (calls : Fin 3 → DedupCall)
    (sched : List (Fin 3 × ℕ)), Throughout (Pool.step dedupAnswer)
      (fun pool => ¬ dedupLocking.Deadlocked pool) (DedupPool.start shardOf d clock calls) sched := by
  intro h
  have hlast := (h oneShard (.new 10) 0 claims expiring).last
  refine hlast ⟨⟨1, Pool.not_returned (k := fun _ => _) rfl⟩, fun i => ?_⟩
  match i with
  | 0 => exact Locking.not_canStep_of_returned rfl
  | 1 => exact Locking.not_canStep_of_held rfl rfl rfl
  | 2 => exact Locking.not_canStep_of_held rfl rfl rfl

end AiManager.Telemetry
