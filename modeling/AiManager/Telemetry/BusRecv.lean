import AiManager.Lib.Run
import AiManager.Telemetry.Bus

/-! # The subscription that waits

`recv` looks in the durable log, waits for a live message when there is nothing, and looks again; a live message
is returned when the log has nothing even then. Publishing appends first and sends after. The calls take their
steps in any order, with any number of publishers and one subscription. A live copy of a record that came from
the log before is the only thing that is ever returned out of turn (`recv_prefix_iff`). -/

namespace AiManager.Telemetry

open Lib

variable {ch : BroadcastChannel BusMessage} {ι : Type} [DecidableEq ι]

/-! ## Steps -/

/-- Where the subscription is in a call of `recv`. -/
inductive RecvPhase where
  | idle
  /-- to look in the log, after a live message if there is one -/
  | look (live : Option BusMessage)
  | store (seq : ℕ) (msg : BusMessage)
  | wait

inductive BusAct (ι : Type) where
  /-- publisher `i` appends, under the write lock -/
  | append (i : ι) (message : BusMessage)
  | fanOut (i : ι)
  | subscribe
  /-- a call of `recv` begins -/
  | recv
  /-- the subscription looks in the log, under the read lock -/
  | look
  | storeCursor
  /-- the channel has something for the receiver -/
  | live
  /-- the call is dropped while it waits -/
  | cancel

/-- The topic, the subscription, the messages that are appended but not sent, and what was published and
returned. -/
structure BusSystem (ch : BroadcastChannel BusMessage) (ι : Type) where
  topic : TopicState ch
  rx : Option ch.Receiver
  phase : RecvPhase
  sending : ι → Option BusMessage
  published : List BusMessage
  returned : List BusMessage

namespace BusSystem

def new (ch : BroadcastChannel BusMessage) : BusSystem ch ι := ⟨.new, none, .idle, fun _ => none, [], []⟩

/-- What follows a look into the log. -/
def looked (s : BusSystem ch ι) (live : Option BusMessage) : Option (ℕ × BusMessage) → BusSystem ch ι
  | some (seq, msg) => { s with phase := .store seq msg }
  | none =>
    match live with
    | some msg => { s with phase := .idle, returned := s.returned ++ [msg] }
    | none => { s with phase := .wait }

/-- What follows the wait. -/
def woken (s : BusSystem ch ι) : Except RecvError BusMessage × ch.Receiver → BusSystem ch ι
  | (.ok msg, rx) => { s with rx := some rx, phase := .look (some msg) }
  | (.error (.lagged _), rx) => { s with rx := some rx, phase := .look none }
  | (.error .closed, rx) => { s with rx := some rx, phase := .idle }

/-- A step that is not due changes nothing. -/
def step (durableCap : ℕ) (g : String) (s : BusSystem ch ι) : BusAct ι → BusSystem ch ι
  | .append i message =>
    match s.sending i with
    | some _ => s
    | none =>
      { s with
        topic := s.topic.append durableCap message
        sending := Function.update s.sending i (some message)
        published := s.published ++ [message] }
  | .fanOut i =>
    match s.sending i with
    | some message => { s with topic := s.topic.fanOut message, sending := Function.update s.sending i none }
    | none => s
  | .subscribe =>
    match s.rx with
    | some _ => s
    | none =>
      let (rx, topic) := s.topic.subscribe g
      { s with topic, rx := some rx }
  | .recv =>
    match s.rx, s.phase with
    | some _, .idle => { s with phase := .look none }
    | _, _ => s
  | .look =>
    match s.phase with
    | .look live => s.looked live (nextFromLog s.topic.log (s.topic.cursor g))
    | _ => s
  | .storeCursor =>
    match s.phase with
    | .store seq msg =>
      { s with topic := s.topic.storeCursor g seq, phase := .idle, returned := s.returned ++ [msg] }
    | _ => s
  | .live =>
    match s.phase, s.rx with
    | .wait, some rx =>
      match ch.recv s.topic.tx rx with
      | some x => s.woken x
      | none => s
    | _, _ => s
  | .cancel =>
    match s.phase with
    | .wait => { s with phase := .idle }
    | _ => s

end BusSystem

/-! ## In turn -/

section InTurn
variable {durableCap : ℕ} {g : String} {s : BusSystem ch ι}

/-- What was returned is what was published, as far as the cursor says; a record that is about to be returned is
the next. -/
structure InTurn (durableCap : ℕ) (g : String) (s : BusSystem ch ι) : Prop where
  records : s.topic.Records durableCap s.published
  cursor_le : s.topic.cursor g ≤ s.published.length
  returned_eq : s.returned = s.published.take (s.topic.cursor g)
  storing : ∀ seq msg, s.phase = .store seq msg →
    seq = s.topic.cursor g + 1 ∧ s.published[s.topic.cursor g]? = some msg

omit [DecidableEq ι] in
theorem InTurn.returned_prefix (h : InTurn durableCap g s) : s.returned <+: s.published := by
  rw [h.returned_eq]
  exact List.take_prefix _ _

omit [DecidableEq ι] in
/-- The lag is what is still to come. -/
theorem InTurn.lag_eq (h : InTurn durableCap g s) : s.topic.lag g = s.published.length - s.topic.cursor g := by
  unfold TopicState.lag
  rw [h.records.seq_eq]

/-- When the subscription looks after a live message, there is something it has not got. -/
def LooksInTime (g : String) (s : BusSystem ch ι) (x : BusAct ι) : Prop :=
  ∀ msg, x = .look → s.phase = .look (some msg) → 0 < s.topic.lag g

omit [DecidableEq ι] in
/-- A step that only moves the subscription on to a phase in which it stores nothing. -/
theorem InTurn.of_phase (h : InTurn durableCap g s) {rx : Option ch.Receiver} {phase : RecvPhase}
    (hphase : ∀ seq msg, phase ≠ .store seq msg) : InTurn durableCap g { s with rx, phase } :=
  ⟨h.records, h.cursor_le, h.returned_eq, fun seq msg hs => absurd hs (hphase seq msg)⟩

theorem InTurn.append (h : InTurn durableCap g s) (i : ι) (message : BusMessage) :
    InTurn durableCap g (s.step durableCap g (.append i message)) := by
  unfold BusSystem.step
  dsimp only
  cases s.sending i with
  | some m => exact h
  | none =>
    have hle : s.topic.cursor g ≤ s.published.length := h.cursor_le
    refine ⟨h.records.append message, ?_, ?_, ?_⟩
    · show s.topic.cursor g ≤ (s.published ++ [message]).length
      rw [List.length_append]
      omega
    · show s.returned = (s.published ++ [message]).take (s.topic.cursor g)
      rw [List.take_append_of_le_length hle]
      exact h.returned_eq
    · intro seq msg hs
      obtain ⟨hseq, hmsg⟩ := h.storing seq msg hs
      obtain ⟨hlt, -⟩ := List.getElem?_eq_some_iff.mp hmsg
      refine ⟨hseq, ?_⟩
      show (s.published ++ [message])[s.topic.cursor g]? = some msg
      rw [List.getElem?_append_left hlt]
      exact hmsg

theorem InTurn.fanOut (h : InTurn durableCap g s) (i : ι) : InTurn durableCap g (s.step durableCap g (.fanOut i)) := by
  unfold BusSystem.step
  dsimp only
  cases s.sending i with
  | some m => exact ⟨⟨h.records.seq_eq, h.records.log_eq⟩, h.cursor_le, h.returned_eq, h.storing⟩
  | none => exact h

theorem InTurn.subscribe (h : InTurn durableCap g s) : InTurn durableCap g (s.step durableCap g .subscribe) := by
  unfold BusSystem.step
  dsimp only
  cases s.rx with
  | some rx => exact h
  | none =>
    have hcursor : (s.topic.subscribe g).2.cursor g = s.topic.cursor g := TopicState.cursor_subscribe ..
    refine ⟨⟨h.records.seq_eq, h.records.log_eq⟩, ?_, ?_, ?_⟩
    · show (s.topic.subscribe g).2.cursor g ≤ _
      rw [hcursor]
      exact h.cursor_le
    · show _ = List.take ((s.topic.subscribe g).2.cursor g) _
      rw [hcursor]
      exact h.returned_eq
    · intro seq msg hs
      show seq = (s.topic.subscribe g).2.cursor g + 1 ∧ s.published[(s.topic.subscribe g).2.cursor g]? = some msg
      rw [hcursor]
      exact h.storing seq msg hs

theorem InTurn.recv (h : InTurn durableCap g s) : InTurn durableCap g (s.step durableCap g .recv) := by
  unfold BusSystem.step
  dsimp only
  split
  · exact h.of_phase (fun _ _ h => by cases h)
  · exact h

theorem InTurn.live (h : InTurn durableCap g s) : InTurn durableCap g (s.step durableCap g .live) := by
  unfold BusSystem.step
  dsimp only
  split
  · split
    · next x hx =>
      obtain ⟨r, rx⟩ := x
      rcases r with (n | _) | msg
      · exact h.of_phase fun _ _ h => by cases h
      · exact h.of_phase fun _ _ h => by cases h
      · exact h.of_phase fun _ _ h => by cases h
    · exact h
  · exact h

theorem InTurn.cancel (h : InTurn durableCap g s) : InTurn durableCap g (s.step durableCap g .cancel) := by
  unfold BusSystem.step
  dsimp only
  split
  · exact h.of_phase (fun _ _ h => by cases h)
  · exact h

theorem InTurn.storeCursor (h : InTurn durableCap g s) : InTurn durableCap g (s.step durableCap g .storeCursor) := by
  unfold BusSystem.step
  dsimp only
  split
  · next seq msg hphase =>
    obtain ⟨rfl, hmsg⟩ := h.storing seq msg hphase
    obtain ⟨hlt, -⟩ := List.getElem?_eq_some_iff.mp hmsg
    have hcursor : (s.topic.storeCursor g (s.topic.cursor g + 1)).cursor g = s.topic.cursor g + 1 :=
      TopicState.cursor_storeCursor ..
    refine ⟨⟨h.records.seq_eq, h.records.log_eq⟩, ?_, ?_, fun _ _ h => by cases h⟩
    · show (s.topic.storeCursor g (s.topic.cursor g + 1)).cursor g ≤ _
      rw [hcursor]
      exact hlt
    · show s.returned ++ [msg] = List.take ((s.topic.storeCursor g (s.topic.cursor g + 1)).cursor g) _
      rw [hcursor, List.take_add_one, hmsg, h.returned_eq]
      rfl
  · exact h

omit [DecidableEq ι] in
/-- A look finds the next record, or there is none. -/
theorem InTurn.looks (h : InTurn durableCap g s) (hreach : s.topic.lag g ≤ durableCap) :
    nextFromLog s.topic.log (s.topic.cursor g) =
      s.published[s.topic.cursor g]?.map fun m => (s.topic.cursor g + 1, m) := by
  rw [h.lag_eq] at hreach
  exact h.records.next (by omega)

theorem InTurn.look (h : InTurn durableCap g s) (hreach : s.topic.lag g ≤ durableCap)
    (hlook : LooksInTime g s .look) : InTurn durableCap g (s.step durableCap g .look) := by
  have hnext := h.looks hreach
  unfold BusSystem.step
  dsimp only
  split
  · next live hphase =>
    rw [hnext]
    cases hmsg : s.published[s.topic.cursor g]? with
    | some m =>
      refine ⟨h.records, h.cursor_le, h.returned_eq, ?_⟩
      rintro seq msg ⟨⟩
      exact ⟨rfl, hmsg⟩
    | none =>
      cases live with
      | none => exact h.of_phase (fun _ _ h => by cases h)
      | some msg =>
        have hlag := hlook msg rfl hphase
        have hend := List.getElem?_eq_none_iff.mp hmsg
        rw [h.lag_eq] at hlag
        omega
  · exact h

/-- **One step.** -/
theorem InTurn.step (h : InTurn durableCap g s) (hreach : s.topic.lag g ≤ durableCap) {x : BusAct ι}
    (hx : LooksInTime g s x) : InTurn durableCap g (s.step durableCap g x) := by
  cases x with
  | append i message => exact h.append i message
  | fanOut i => exact h.fanOut i
  | subscribe => exact h.subscribe
  | recv => exact h.recv
  | look => exact h.look hreach hx
  | storeCursor => exact h.storeCursor
  | live => exact h.live
  | cancel => exact h.cancel

/-- A look that comes too late returns a record once more than there are records. -/
theorem InTurn.looksInTime (h : InTurn durableCap g s) (hreach : s.topic.lag g ≤ durableCap) {x : BusAct ι}
    (hstart : (s.step durableCap g x).returned <+: (s.step durableCap g x).published) : LooksInTime g s x := by
  rintro msg rfl hphase
  by_contra hlag
  rw [h.lag_eq] at hlag
  have hend : s.published.length ≤ s.topic.cursor g := by omega
  have hnext : nextFromLog s.topic.log (s.topic.cursor g) = none := by
    rw [h.looks hreach, List.getElem?_eq_none hend]
    rfl
  have hstep : s.step durableCap g .look = { s with phase := .idle, returned := s.returned ++ [msg] } := by
    unfold BusSystem.step
    dsimp only
    rw [hphase]
    dsimp only
    rw [hnext]
    rfl
  rw [hstep] at hstart
  have hlength := hstart.length_le
  rw [List.length_append, h.returned_eq, List.take_of_length_le hend, List.length_singleton] at hlength
  exact Nat.not_succ_le_self _ hlength

end InTurn

/-! ## Runs -/

/-- **Exactly once, in order.** As long as the backlog is no more than the log keeps, what `recv` returns is what was
published up to some record, in every state of a run, exactly if at every look after a live message something is
still to come. -/
theorem recv_prefix_iff (ch : BroadcastChannel BusMessage) (durableCap : ℕ) (g : String) (sched : List (BusAct ι))
    (hreach : Throughout (BusSystem.step durableCap g) (fun s => s.topic.lag g ≤ durableCap)
      (.new ch) sched) :
    Throughout (BusSystem.step durableCap g) (fun s => s.returned <+: s.published) (.new ch) sched ↔
      EachStep (BusSystem.step durableCap g) (LooksInTime g) (.new ch) sched := by
  have hnew : InTurn durableCap g (BusSystem.new ch : BusSystem ch ι) :=
    ⟨TopicState.records_new durableCap, Nat.zero_le _, rfl, fun _ _ h => by cases h⟩
  exact throughout_iff_of_stronger (G := InTurn durableCap g) (fun s hs => hs.returned_prefix)
    (fun s x hV hs hC => hs.step hV hC) (fun s x hV hs hP => hs.looksInTime hV hP) hreach.eachStep hnew

/-- One message, for which the subscription waits. -/
def oneRecv : List (BusAct Unit) := [.subscribe, .recv, .look, .append () (ping 0), .fanOut (), .live, .look, .storeCursor]

theorem oneRecv_prefix :
    Throughout (BusSystem.step 100000 "cg") (fun s => s.returned <+: s.published)
        (.new (ringChannel 65536 BusMessage)) oneRecv ↔
      EachStep (BusSystem.step 100000 "cg") (LooksInTime "cg") (.new (ringChannel 65536 BusMessage))
        oneRecv :=
  recv_prefix_iff (ringChannel 65536 BusMessage) 100000 "cg" oneRecv (by decide +kernel)

/-- The live copy of a record that came from the log. -/
def staleCopy : List (BusAct Unit) :=
  [.subscribe, .append () (ping 0), .fanOut (), .recv, .look, .storeCursor, .recv, .look, .live, .look]

theorem staleCopy_returned : ¬ ∀ sched : List (BusAct Unit),
    Throughout (BusSystem.step 100000 "cg") (fun s => s.topic.lag "cg" ≤ 100000)
      (.new (ringChannel 65536 BusMessage)) sched →
    Throughout (BusSystem.step 100000 "cg") (fun s => s.returned <+: s.published)
      (.new (ringChannel 65536 BusMessage)) sched := by
  intro h
  have hstart := (h staleCopy (by decide +kernel)).last
  have hlength : 2 ≤ 1 := hstart.length_le
  omega

end AiManager.Telemetry
