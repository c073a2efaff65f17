import Mathlib.Data.List.Induction
import Mathlib.Data.List.Infix
import AiManager.Lib.Run
import AiManager.Telemetry.Bus

/-! # Consumer groups

Publishing, subscribing, reading and dropping subscriptions, one operation after the other, for any number of
groups. A group whose backlog never exceeds what the log keeps gets the published records in their order, through
whichever of its subscriptions it reads (`groups_exact`), and the operations of the others make no difference to
any group (`sameFor_filter`). -/

namespace AiManager.Telemetry

open Lib

variable {ch : BroadcastChannel BusMessage}

/-! ## Operations -/

/-- The ways to read from a subscription. -/
inductive BusRead where
  | tryRecv
  | drainLog
  | drainAvailable (max : ℕ)

def BusRead.run (tx : ch.Sender) (log : DurableLog) (cursor : ℕ) (rx : ch.Receiver) :
    BusRead → List BusMessage × ℕ × ch.Receiver
  | tryRecv =>
    let (msg, cursor, rx) := AiManager.Telemetry.tryRecv tx log cursor rx
    (msg.toList, cursor, rx)
  | drainLog =>
    let (out, cursor) := AiManager.Telemetry.drainLog log cursor
    (out, cursor, rx)
  | drainAvailable max => AiManager.Telemetry.drainAvailable tx log max cursor rx

/-- What a read is to give of what is unread. -/
def BusRead.upTo (unread : List BusMessage) : BusRead → List BusMessage
  | tryRecv => unread.take 1
  | drainLog => unread
  | drainAvailable max => unread.take max

/-- A subscription is named by its group and a number. -/
inductive BusOp where
  | publish (message : BusMessage)
  | subscribe (consumerGroup : String) (n : ℕ)
  | read (consumerGroup : String) (n : ℕ) (r : BusRead)
  | drop (consumerGroup : String) (n : ℕ)

structure BusState (ch : BroadcastChannel BusMessage) where
  topic : TopicState ch
  subs : String → ℕ → Option ch.Receiver

namespace BusState

def new : BusState ch := ⟨.new, fun _ _ => none⟩

def setSub (s : BusState ch) (g : String) (n : ℕ) (rx : Option ch.Receiver) : BusState ch :=
  { s with subs := Function.update s.subs g (Function.update (s.subs g) n rx) }

/-- What the operation returns and leaves. Nobody can read from a subscription that is dropped. -/
def perform (durableCap : ℕ) (s : BusState ch) : BusOp → List BusMessage × BusState ch
  | .publish message => ([], { s with topic := s.topic.publish durableCap message })
  | .subscribe g n =>
    let (rx, topic) := s.topic.subscribe g
    ([], { s with topic }.setSub g n (some rx))
  | .read g n r =>
    match s.subs g n with
    | none => ([], s)
    | some rx =>
      let (out, cursor, rx) := r.run s.topic.tx s.topic.log (s.topic.cursor g) rx
      (out, { s with topic := s.topic.storeCursor g cursor }.setSub g n (some rx))
  | .drop g n => ([], s.setSub g n none)

def step (durableCap : ℕ) (s : BusState ch) (op : BusOp) : BusState ch := (s.perform durableCap op).2

section Read
variable {durableCap n : ℕ} {s : BusState ch} {g : String} {r : BusRead}

theorem perform_read_dropped (hsub : s.subs g n = none) : s.perform durableCap (.read g n r) = ([], s) := by
  unfold perform
  dsimp only
  rw [hsub]

theorem perform_read {rx rx' : ch.Receiver} {out : List BusMessage} {cursor : ℕ} (hsub : s.subs g n = some rx)
    (hrun : r.run s.topic.tx s.topic.log (s.topic.cursor g) rx = (out, cursor, rx')) :
    s.perform durableCap (.read g n r) =
      (out, { s with topic := s.topic.storeCursor g cursor }.setSub g n (some rx')) := by
  unfold perform
  dsimp only
  rw [hsub]
  dsimp only
  rw [hrun]

end Read

end BusState

namespace BusOp

/-- The group of the subscription that is used. -/
def group : BusOp → Option String
  | publish _ => none
  | subscribe g _ | read g _ _ | drop g _ => some g

def message : BusOp → Option BusMessage
  | publish m => some m
  | _ => none

/-- Group `g` has to do with the operation. -/
def concerns (g : String) (op : BusOp) : Bool := op.group == none || op.group == some g

end BusOp

/-! ## Runs -/

def published (ops : List BusOp) : List BusMessage := ops.filterMap BusOp.message

section Runs
variable (ch) (durableCap : ℕ)

/-- The bus after the operations. -/
def busAfter (ops : List BusOp) : BusState ch := runFrom (BusState.step durableCap) .new ops

/-- What group `g` got when the operations are performed from `s`. -/
def deliveredFrom (g : String) : BusState ch → List BusOp → List BusMessage
  | _, [] => []
  | s, op :: ops =>
    (if op.group = some g then (s.perform durableCap op).1 else []) ++ deliveredFrom g (s.step durableCap op) ops

def delivered (g : String) (ops : List BusOp) : List BusMessage := deliveredFrom ch durableCap g .new ops

end Runs

section Concat
variable {durableCap : ℕ}

theorem published_concat_publish (ops : List BusOp) (m : BusMessage) :
    published (ops ++ [.publish m]) = published ops ++ [m] := List.filterMap_append

theorem published_concat {op : BusOp} (h : op.message = none) (ops : List BusOp) :
    published (ops ++ [op]) = published ops := by
  unfold published
  rw [List.filterMap_append, List.filterMap_cons_none h, List.filterMap_nil, List.append_nil]

theorem busAfter_concat (ops : List BusOp) (op : BusOp) :
    busAfter ch durableCap (ops ++ [op]) = (busAfter ch durableCap ops).step durableCap op := by
  unfold busAfter runFrom
  rw [List.foldl_append]
  rfl

theorem deliveredFrom_concat (g : String) (s : BusState ch) (ops : List BusOp) (op : BusOp) :
    deliveredFrom ch durableCap g s (ops ++ [op]) = deliveredFrom ch durableCap g s ops ++
      if op.group = some g then ((runFrom (BusState.step durableCap) s ops).perform durableCap op).1 else [] := by
  induction ops generalizing s with
  | nil => simp [deliveredFrom, runFrom]
  | cons x ops ih =>
    rw [List.cons_append, deliveredFrom, ih, deliveredFrom, List.append_assoc]
    rfl

theorem delivered_concat (g : String) (ops : List BusOp) (op : BusOp) :
    delivered ch durableCap g (ops ++ [op]) = delivered ch durableCap g ops ++
      if op.group = some g then ((busAfter ch durableCap ops).perform durableCap op).1 else [] :=
  deliveredFrom_concat ..

theorem delivered_concat_of_nil {op : BusOp} {ops : List BusOp}
    (h : ((busAfter ch durableCap ops).perform durableCap op).1 = []) (g : String) :
    delivered ch durableCap g (ops ++ [op]) = delivered ch durableCap g ops := by
  rw [delivered_concat, h, ite_self, List.append_nil]

end Concat

/-! ## Reading in the reach of the log -/

section Read
variable {s : TopicState ch} {durableCap cursor : ℕ} {msgs : List BusMessage} (h : s.Records durableCap msgs)
  (hreach : msgs.length ≤ cursor + durableCap)
include h hreach

theorem tryRecv_eq (rx : ch.Receiver) : ∃ rx', tryRecv s.tx s.log cursor rx =
    (msgs[cursor]?, cursor + (msgs[cursor]?).toList.length, rx') := by
  have hnext := h.next hreach
  unfold tryRecv
  cases hmsg : msgs[cursor]? with
  | some m =>
    rw [hmsg] at hnext
    rw [hnext]
    exact ⟨rx, rfl⟩
  | none =>
    rw [hmsg] at hnext
    rw [hnext]
    cases hrecv : ch.recv s.tx rx with
    | none => exact ⟨rx, rfl⟩
    | some x =>
      obtain ⟨r, rx'⟩ := x
      refine ⟨rx', ?_⟩
      cases r with
      | ok m => rfl
      | error e => cases e <;> rfl

theorem drainLog_eq : drainLog s.log cursor = (msgs.drop cursor, cursor + (msgs.drop cursor).length) := by
  induction hn : msgs.length - cursor generalizing cursor with
  | zero =>
    have hend : msgs.length ≤ cursor := by omega
    have hnone : nextFromLog s.log cursor = none := by
      rw [h.next hreach, List.getElem?_eq_none hend]
      rfl
    rw [List.drop_of_length_le hend]
    unfold drainLog
    split
    · next hsome =>
      rw [hnone] at hsome
      cases hsome
    · rfl
  | succ n ih =>
    have hlt : cursor < msgs.length := by omega
    have hnext : nextFromLog s.log cursor = some (cursor + 1, msgs[cursor]) := by
      rw [h.next hreach, List.getElem?_eq_getElem hlt]
      rfl
    unfold drainLog
    split
    · next seq msg hsome =>
      rw [hnext] at hsome
      cases hsome
      rw [ih (by omega) (by omega), List.drop_eq_getElem_cons hlt, List.length_cons]
      refine Prod.ext rfl ?_
      show cursor + 1 + _ = cursor + (_ + 1)
      omega
    · next hnone =>
      rw [hnext] at hnone
      cases hnone

theorem drainAvailable_eq (max : ℕ) (rx : ch.Receiver) : ∃ rx', drainAvailable s.tx s.log max cursor rx =
    ((msgs.drop cursor).take max, cursor + ((msgs.drop cursor).take max).length, rx') := by
  induction max generalizing cursor rx with
  | zero => exact ⟨rx, rfl⟩
  | succ max ih =>
    obtain ⟨rx', htry⟩ := tryRecv_eq h hreach rx
    unfold drainAvailable
    rcases Nat.lt_or_ge cursor msgs.length with hlt | hend
    · have hreach' : msgs.length ≤ cursor + 1 + durableCap := by omega
      obtain ⟨rx'', hrest⟩ := ih hreach' rx'
      rw [List.getElem?_eq_getElem hlt] at htry
      refine ⟨rx'', ?_⟩
      rw [htry, List.drop_eq_getElem_cons hlt, List.take_succ_cons, List.length_cons]
      dsimp only [Option.toList_some, List.length_singleton]
      rw [hrest]
      refine Prod.ext rfl (Prod.ext ?_ rfl)
      show cursor + 1 + _ = cursor + (_ + 1)
      omega
    · rw [List.getElem?_eq_none hend] at htry
      refine ⟨rx', ?_⟩
      rw [htry, List.drop_of_length_le hend]
      rfl

/-- A read gives what it is to give, and moves the cursor on by as much. -/
theorem read_eq (r : BusRead) (rx : ch.Receiver) : ∃ rx', r.run s.tx s.log cursor rx =
    (r.upTo (msgs.drop cursor), cursor + (r.upTo (msgs.drop cursor)).length, rx') := by
  cases r with
  | tryRecv =>
    obtain ⟨rx', htry⟩ := tryRecv_eq h hreach rx
    refine ⟨rx', ?_⟩
    unfold BusRead.run
    dsimp only
    rw [htry]
    dsimp only [BusRead.upTo]
    rw [List.take_one, List.head?_drop]
  | drainLog =>
    refine ⟨rx, ?_⟩
    unfold BusRead.run
    dsimp only
    rw [drainLog_eq h hreach]
    rfl
  | drainAvailable max => exact drainAvailable_eq h hreach max rx

end Read

theorem BusRead.upTo_prefix (r : BusRead) (unread : List BusMessage) : r.upTo unread <+: unread := by
  cases r with
  | tryRecv => exact List.take_prefix 1 unread
  | drainLog => exact List.prefix_refl unread
  | drainAvailable max => exact List.take_prefix max unread

/-! ## Runs in the reach of the log -/

section Reach
variable {durableCap : ℕ} {g : String} {ops : List BusOp}

variable (ch durableCap) in
/-- What the log holds is the same for every group. -/
theorem busAfter_records (ops : List BusOp) :
    (busAfter ch durableCap ops).topic.Records durableCap (published ops) := by
  induction ops using List.reverseRecOn with
  | nil => exact TopicState.records_new durableCap
  | append_singleton ops op ih =>
    rw [busAfter_concat]
    cases op with
    | publish m =>
      rw [published_concat_publish]
      exact ⟨(ih.append m).seq_eq, (ih.append m).log_eq⟩
    | subscribe g n | drop g n =>
      rw [published_concat rfl]
      exact ⟨ih.seq_eq, ih.log_eq⟩
    | read g n r =>
      rw [published_concat rfl]
      unfold BusState.step
      cases hsub : (busAfter ch durableCap ops).subs g n with
      | none =>
        rw [BusState.perform_read_dropped hsub]
        exact ih
      | some rx =>
        rw [BusState.perform_read hsub rfl]
        exact ⟨ih.seq_eq, ih.log_eq⟩

/-- Group `g` has got as much of what was published as its cursor says. -/
structure InStep (ch : BroadcastChannel BusMessage) (durableCap : ℕ) (g : String) (ops : List BusOp) : Prop where
  cursor_eq : (busAfter ch durableCap ops).topic.cursor g = (delivered ch durableCap g ops).length
  delivered_prefix : delivered ch durableCap g ops <+: published ops

/-- An operation that delivers nothing to the group and leaves its cursor. -/
theorem InStep.concat_of_nil (h : InStep ch durableCap g ops) {op : BusOp}
    (hdelivered : delivered ch durableCap g (ops ++ [op]) = delivered ch durableCap g ops)
    (hcursor : ((busAfter ch durableCap ops).step durableCap op).topic.cursor g =
      (busAfter ch durableCap ops).topic.cursor g) : InStep ch durableCap g (ops ++ [op]) := by
  refine ⟨?_, ?_⟩
  · rw [busAfter_concat, hcursor, hdelivered]
    exact h.cursor_eq
  · rw [hdelivered]
    refine h.delivered_prefix.trans ?_
    unfold published
    rw [List.filterMap_append]
    exact List.prefix_append _ _

/-- What a read of the group gives. -/
theorem InStep.read_eq (h : InStep ch durableCap g ops)
    (hreach : (published ops).length ≤ (delivered ch durableCap g ops).length + durableCap) {n : ℕ} {rx : ch.Receiver}
    (hsub : (busAfter ch durableCap ops).subs g n = some rx) (r : BusRead) :
    ((busAfter ch durableCap ops).perform durableCap (.read g n r)).1 =
        r.upTo ((published ops).drop (delivered ch durableCap g ops).length) ∧
      ((busAfter ch durableCap ops).step durableCap (.read g n r)).topic.cursor g =
        (delivered ch durableCap g ops).length +
          (r.upTo ((published ops).drop (delivered ch durableCap g ops).length)).length := by
  obtain ⟨rx', hrun⟩ := AiManager.Telemetry.read_eq (busAfter_records ch durableCap ops) hreach r rx
  rw [← h.cursor_eq] at hrun ⊢
  unfold BusState.step
  rw [BusState.perform_read hsub hrun]
  exact ⟨rfl, TopicState.cursor_storeCursor ..⟩

/-- **One operation** keeps the group in step, if its backlog is no more than the log keeps. -/
theorem InStep.concat (h : InStep ch durableCap g ops)
    (hreach : (published ops).length ≤ (delivered ch durableCap g ops).length + durableCap) (op : BusOp) :
    InStep ch durableCap g (ops ++ [op]) := by
  cases op with
  | publish m => exact h.concat_of_nil (delivered_concat_of_nil rfl g) rfl
  | subscribe g' n => exact h.concat_of_nil (delivered_concat_of_nil rfl g) (TopicState.cursor_subscribe ..)
  | drop g' n => exact h.concat_of_nil (delivered_concat_of_nil rfl g) rfl
  | read g' n r =>
    cases hsub : (busAfter ch durableCap ops).subs g' n with
    | none =>
      have hdropped : (busAfter ch durableCap ops).perform durableCap (.read g' n r) = ([], busAfter ch durableCap ops) :=
        BusState.perform_read_dropped hsub
      refine h.concat_of_nil (delivered_concat_of_nil (by rw [hdropped]) g) ?_
      unfold BusState.step
      rw [hdropped]
    | some rx =>
      by_cases hg : g' = g
      · subst hg
        obtain ⟨hout, hcursor⟩ := h.read_eq hreach hsub r
        have hdelivered : delivered ch durableCap g' (ops ++ [.read g' n r]) = delivered ch durableCap g' ops ++
            r.upTo ((published ops).drop (delivered ch durableCap g' ops).length) := by
          rw [delivered_concat, if_pos (by rfl), hout]
        refine ⟨?_, ?_⟩
        · rw [busAfter_concat, hcursor, hdelivered, List.length_append]
        · rw [hdelivered, published_concat rfl]
          obtain ⟨rest, hrest⟩ := h.delivered_prefix
          have hdrop : (published ops).drop (delivered ch durableCap g' ops).length = rest := by
            rw [← hrest, List.drop_left]
          rw [hdrop]
          conv_rhs => rw [← hrest]
          exact (List.prefix_append_right_inj _).mpr (r.upTo_prefix rest)
      · refine h.concat_of_nil ?_ ?_
        · have hother : (BusOp.read g' n r).group ≠ some g := fun h => hg (Option.some.inj h)
          rw [delivered_concat, if_neg hother, List.append_nil]
        · unfold BusState.step
          rw [BusState.perform_read hsub rfl]
          exact TopicState.cursor_storeCursor_ne _ (Ne.symm hg) _

/-- **A run.** -/
theorem inStep_of_reach (hreach : ∀ ops' ∈ ops.inits,
    (published ops').length ≤ (delivered ch durableCap g ops').length + durableCap) :
    InStep ch durableCap g ops := by
  induction ops using List.reverseRecOn with
  | nil => exact ⟨rfl, List.prefix_refl _⟩
  | append_singleton ops op ih =>
    have hbefore : ∀ ops' ∈ ops.inits,
        (published ops').length ≤ (delivered ch durableCap g ops').length + durableCap := by
      intro ops' hops'
      exact hreach ops' ((List.mem_inits ..).mpr (((List.mem_inits ..).mp hops').trans (List.prefix_append _ _)))
    exact (ih hbefore).concat (hbefore ops ((List.mem_inits ..).mpr (List.prefix_refl _))) op

end Reach

/-! ## Other groups -/

/-- Group `g` cannot tell the two apart. -/
structure SameFor (g : String) (s s' : BusState ch) : Prop where
  tx_eq : s.topic.tx = s'.topic.tx
  log_eq : s.topic.log = s'.topic.log
  seq_eq : s.topic.seq = s'.topic.seq
  cursor_eq : s.topic.cursor g = s'.topic.cursor g
  subs_eq : s.subs g = s'.subs g

theorem sameFor_refl (g : String) (s : BusState ch) : SameFor g s s := ⟨rfl, rfl, rfl, rfl, rfl⟩

theorem SameFor.trans {g : String} {s s' s'' : BusState ch} (h : SameFor g s s') (h' : SameFor g s' s'') :
    SameFor g s s'' :=
  ⟨h.tx_eq.trans h'.tx_eq, h.log_eq.trans h'.log_eq, h.seq_eq.trans h'.seq_eq, h.cursor_eq.trans h'.cursor_eq,
    h.subs_eq.trans h'.subs_eq⟩

section Others
variable {durableCap : ℕ} {g : String} {s s' : BusState ch}

theorem setSub_subs_ne {g' : String} (h : g ≠ g') (n : ℕ) (rx : Option ch.Receiver) :
    (s.setSub g' n rx).subs g = s.subs g := Function.update_of_ne h _ _

theorem setSub_subs_self (h : s.subs g = s'.subs g) (n : ℕ) {rx rx' : Option ch.Receiver} (hrx : rx = rx') :
    (s.setSub g n rx).subs g = (s'.setSub g n rx').subs g := by
  unfold BusState.setSub
  dsimp only
  rw [Function.update_self, Function.update_self, h, hrx]

/-- What another group does is not seen. -/
theorem sameFor_step_of_other {op : BusOp} (hop : op.concerns g = false) : SameFor g (s.step durableCap op) s := by
  cases op with
  | publish m => cases hop
  | subscribe g' n =>
    have hg : g ≠ g' := by
      rintro rfl
      simp [BusOp.concerns, BusOp.group] at hop
    exact ⟨rfl, rfl, rfl, TopicState.cursor_subscribe .., setSub_subs_ne hg _ _⟩
  | drop g' n =>
    have hg : g ≠ g' := by
      rintro rfl
      simp [BusOp.concerns, BusOp.group] at hop
    exact ⟨rfl, rfl, rfl, rfl, setSub_subs_ne hg _ _⟩
  | read g' n r =>
    have hg : g ≠ g' := by
      rintro rfl
      simp [BusOp.concerns, BusOp.group] at hop
    unfold BusState.step
    cases hsub : s.subs g' n with
    | none =>
      rw [BusState.perform_read_dropped hsub]
      exact sameFor_refl g s
    | some rx =>
      rw [BusState.perform_read hsub rfl]
      exact ⟨rfl, rfl, rfl, TopicState.cursor_storeCursor_ne _ hg _, setSub_subs_ne hg _ _⟩

variable (durableCap) in
/-- What the group itself does, and what is published, gives the same where it can tell no difference. -/
theorem SameFor.step (h : SameFor g s s') {op : BusOp} (hop : op.concerns g = true) :
    (s.perform durableCap op).1 = (s'.perform durableCap op).1 ∧
      SameFor g (s.step durableCap op) (s'.step durableCap op) := by
  obtain ⟨htx, hlog, hseq, hcursor, hsubs⟩ := h
  cases op with
  | publish m =>
    refine ⟨rfl, ?_, ?_, ?_, hcursor, hsubs⟩
    · show ch.send s.topic.tx m = ch.send s'.topic.tx m
      rw [htx]
    · show evict durableCap (s.topic.log ++ [(s.topic.seq + 1, m)]) = evict durableCap (s'.topic.log ++ [(s'.topic.seq + 1, m)])
      rw [hlog, hseq]
    · show s.topic.seq + 1 = s'.topic.seq + 1
      rw [hseq]
  | subscribe g' n =>
    obtain rfl : g' = g := by simpa [BusOp.concerns, BusOp.group] using hop
    refine ⟨rfl, htx, hlog, hseq, ?_, ?_⟩
    · show (s.topic.subscribe g').2.cursor g' = (s'.topic.subscribe g').2.cursor g'
      rw [TopicState.cursor_subscribe, TopicState.cursor_subscribe, hcursor]
    · refine setSub_subs_self hsubs n ?_
      show some (ch.subscribe s.topic.tx) = some (ch.subscribe s'.topic.tx)
      rw [htx]
  | drop g' n =>
    obtain rfl : g' = g := by simpa [BusOp.concerns, BusOp.group] using hop
    exact ⟨rfl, htx, hlog, hseq, hcursor, setSub_subs_self hsubs n rfl⟩
  | read g' n r =>
    obtain rfl : g' = g := by simpa [BusOp.concerns, BusOp.group] using hop
    unfold BusState.step
    cases hsub : s.subs g' n with
    | none =>
      have hsub' : s'.subs g' n = none := by rw [← hsubs, hsub]
      rw [BusState.perform_read_dropped hsub, BusState.perform_read_dropped hsub']
      exact ⟨rfl, htx, hlog, hseq, hcursor, hsubs⟩
    | some rx =>
      have hsub' : s'.subs g' n = some rx := by rw [← hsubs, hsub]
      have hrun : r.run s.topic.tx s.topic.log (s.topic.cursor g') rx =
          r.run s'.topic.tx s'.topic.log (s'.topic.cursor g') rx := by rw [htx, hlog, hcursor]
      rw [BusState.perform_read hsub hrun, BusState.perform_read hsub' rfl]
      refine ⟨rfl, htx, hlog, hseq, ?_, setSub_subs_self hsubs n rfl⟩
      exact (TopicState.cursor_storeCursor ..).trans (TopicState.cursor_storeCursor ..).symm

variable (durableCap) in
/-- **Other groups** make no difference: what a group gets, and how it stands, is the same without their
operations. -/
theorem sameFor_filter (ops : List BusOp) (h : SameFor g s s') :
    deliveredFrom ch durableCap g s ops = deliveredFrom ch durableCap g s' (ops.filter (·.concerns g)) ∧
      SameFor g (runFrom (BusState.step durableCap) s ops)
        (runFrom (BusState.step durableCap) s' (ops.filter (·.concerns g))) := by
  induction ops generalizing s s' with
  | nil => exact ⟨rfl, h⟩
  | cons op ops ih =>
    rw [List.filter_cons]
    cases hop : op.concerns g with
    | true =>
      obtain ⟨hout, hstep⟩ := h.step durableCap hop
      obtain ⟨hrest, hsame⟩ := ih hstep
      refine ⟨?_, hsame⟩
      rw [if_pos rfl, deliveredFrom, deliveredFrom, hout, hrest]
    | false =>
      obtain ⟨hrest, hsame⟩ := ih ((sameFor_step_of_other hop).trans h)
      refine ⟨?_, hsame⟩
      have hother : op.group ≠ some g := by
        intro hgroup
        simp [BusOp.concerns, hgroup] at hop
      rw [if_neg Bool.false_ne_true, deliveredFrom, if_neg hother, List.nil_append, hrest]

end Others

/-- **Consumption.** A group whose backlog never exceeds what the log keeps has got the published records in their
order, up to some record; its lag is the rest, every read gives what it is to give of the rest, whatever
subscription of the group it is made on, and nothing of this depends on the other groups. -/
theorem groups_exact (ch : BroadcastChannel BusMessage) (durableCap : ℕ) (g : String) (ops : List BusOp)
    (hreach : ∀ ops' ∈ ops.inits,
      (published ops').length ≤ (delivered ch durableCap g ops').length + durableCap) :
    delivered ch durableCap g ops <+: published ops ∧
      (busAfter ch durableCap ops).topic.lag g =
        (published ops).length - (delivered ch durableCap g ops).length ∧
      (∀ n rx r, (busAfter ch durableCap ops).subs g n = some rx →
        ((busAfter ch durableCap ops).perform durableCap (.read g n r)).1 =
          r.upTo ((published ops).drop (delivered ch durableCap g ops).length)) ∧
      delivered ch durableCap g ops = delivered ch durableCap g (ops.filter (·.concerns g)) ∧
      (busAfter ch durableCap ops).topic.lag g =
        (busAfter ch durableCap (ops.filter (·.concerns g))).topic.lag g := by
  have hstep : InStep ch durableCap g ops := inStep_of_reach hreach
  have hnow : (published ops).length ≤ (delivered ch durableCap g ops).length + durableCap :=
    hreach ops ((List.mem_inits ..).mpr (List.prefix_refl _))
  obtain ⟨hsame, hfilter⟩ := sameFor_filter durableCap ops (sameFor_refl g (.new : BusState ch))
  refine ⟨hstep.delivered_prefix, ?_, fun n rx r hsub => (hstep.read_eq hnow hsub r).1, hsame, ?_⟩
  · unfold TopicState.lag
    rw [hstep.cursor_eq, (busAfter_records ch durableCap ops).seq_eq]
  · unfold TopicState.lag busAfter
    rw [hfilter.seq_eq, hfilter.cursor_eq]

/-! ### A group that comes back -/

/-- Two messages; the subscription that read the first is dropped, and a new one reads on. -/
def comesBack : List BusOp :=
  [.subscribe "verify" 0, .publish (ping 0), .publish (ping 1), .read "verify" 0 .tryRecv, .drop "verify" 0,
    .subscribe "other" 0, .publish (ping 2), .subscribe "verify" 1, .read "verify" 1 (.drainAvailable 5)]

theorem comesBack_exact :
    delivered (ringChannel 2 BusMessage) 2 "verify" comesBack <+: published comesBack ∧
      (busAfter (ringChannel 2 BusMessage) 2 comesBack).topic.lag "verify" =
        (published comesBack).length - (delivered (ringChannel 2 BusMessage) 2 "verify" comesBack).length ∧
      (∀ n rx r, (busAfter (ringChannel 2 BusMessage) 2 comesBack).subs "verify" n = some rx →
        ((busAfter (ringChannel 2 BusMessage) 2 comesBack).perform 2 (.read "verify" n r)).1 =
          r.upTo ((published comesBack).drop
            (delivered (ringChannel 2 BusMessage) 2 "verify" comesBack).length)) ∧
      delivered (ringChannel 2 BusMessage) 2 "verify" comesBack =
        delivered (ringChannel 2 BusMessage) 2 "verify" (comesBack.filter (·.concerns "verify")) ∧
      (busAfter (ringChannel 2 BusMessage) 2 comesBack).topic.lag "verify" =
        (busAfter (ringChannel 2 BusMessage) 2 (comesBack.filter (·.concerns "verify"))).topic.lag "verify" :=
  groups_exact (ringChannel 2 BusMessage) 2 "verify" comesBack (by decide +kernel)

end AiManager.Telemetry
