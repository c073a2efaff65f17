import AiManager.Lib.Broadcast
import AiManager.Lib.KMap
import AiManager.Lib.NumberedLog
import AiManager.Telemetry.Model

/-! # The in-process bus

A topic appends each message to a durable log, which keeps the last ones, and sends a live copy to whoever is
subscribed. A consumer group has one cursor for all of its subscriptions: the sequence number of the last
record that one of them has taken from the log. -/

namespace AiManager.Telemetry

open Lib

/-! ## Subscriptions -/

abbrev DurableLog : Type := List (ℕ × BusMessage)

/-- The next durable message past the cursor, with the cursor that is stored for it. -/
def nextFromLog (log : DurableLog) (cursor : ℕ) : Option (ℕ × BusMessage) :=
  log.find? fun e => cursor < e.1

section Subscription
variable {ch : BroadcastChannel BusMessage}

/-- The message, if there is one, and what becomes of the cursor and of the receiver. -/
def tryRecv (tx : ch.Sender) (log : DurableLog) (cursor : ℕ) (rx : ch.Receiver) :
    Option BusMessage × ℕ × ch.Receiver :=
  match nextFromLog log cursor with
  | some (seq, msg) => (some msg, seq, rx)
  | none =>
    match ch.recv tx rx with
    | some (.ok _, rx) =>
      match nextFromLog log cursor with
      | some (seq, msg) => (some msg, seq, rx)
      | none => (none, cursor, rx)
    | some (.error (.lagged _), rx) =>
      match nextFromLog log cursor with
      | some (seq, msg) => (some msg, seq, rx)
      | none => (none, cursor, rx)
    | some (.error .closed, rx) => (none, cursor, rx)
    | none => (none, cursor, rx)

/-- How much of the log is past the cursor. -/
def remaining (log : DurableLog) (cursor : ℕ) : ℕ := (log.filter fun e => cursor < e.1).length

theorem remaining_lt {log : DurableLog} {cursor seq : ℕ} {msg : BusMessage}
    (h : nextFromLog log cursor = some (seq, msg)) : remaining log seq < remaining log cursor := by
  have hseq : cursor < seq := by simpa using List.find?_some h
  have hmem : (seq, msg) ∈ log := List.mem_of_find?_eq_some h
  have hfilter : (log.filter fun e => seq < e.1) =
      (log.filter fun e => cursor < e.1).filter fun e => seq < e.1 := by
    rw [List.filter_filter]
    refine List.filter_congr fun e _ => ?_
    have hpast : seq < e.1 → cursor < e.1 := Nat.lt_trans hseq
    by_cases he : seq < e.1
    · simp [he, hpast he]
    · simp [he]
  unfold remaining
  rw [hfilter, List.length_filter_lt_length_iff_exists]
  exact ⟨(seq, msg), List.mem_filter.mpr ⟨hmem, decide_eq_true hseq⟩, by simp⟩

def drainLog (log : DurableLog) (cursor : ℕ) : List BusMessage × ℕ :=
  match _h : nextFromLog log cursor with
  | some (seq, msg) =>
    let (out, cursor) := drainLog log seq
    (msg :: out, cursor)
  | none => ([], cursor)
termination_by remaining log cursor
decreasing_by exact remaining_lt _h

def drainAvailable (tx : ch.Sender) (log : DurableLog) : ℕ → ℕ → ch.Receiver → List BusMessage × ℕ × ch.Receiver
  | 0, cursor, rx => ([], cursor, rx)
  | max + 1, cursor, rx =>
    match tryRecv tx log cursor rx with
    | (some m, cursor, rx) =>
      let (out, cursor, rx) := drainAvailable tx log max cursor rx
      (m :: out, cursor, rx)
    | (none, cursor, rx) => ([], cursor, rx)

end Subscription

/-! ## Topics -/

structure TopicState (ch : BroadcastChannel BusMessage) where
  tx : ch.Sender
  log : DurableLog
  seq : ℕ
  /-- consumer group to last sequence number -/
  cursors : KMap String ℕ

/-- Pop from the front while the log is too long. -/
def evict (durableCap : ℕ) : DurableLog → DurableLog
  | [] => []
  | e :: log => if durableCap < log.length + 1 then evict durableCap log else e :: log

theorem evict_eq_keepLast (durableCap : ℕ) (log : DurableLog) : evict durableCap log = keepLast durableCap log := by
  induction log with
  | nil => exact List.drop_nil.symm
  | cons e log ih =>
    unfold evict
    split_ifs with hlong
    · rw [ih]
      unfold keepLast
      rw [List.length_cons, Nat.succ_sub (by omega), List.drop_succ_cons]
    · unfold keepLast
      rw [List.length_cons, Nat.sub_eq_zero_of_le (by omega), List.drop_zero]

namespace TopicState
variable {ch : BroadcastChannel BusMessage}

def new : TopicState ch := ⟨ch.channel, [], 0, ∅⟩

/-- The durable append, under the write lock of the log. -/
def append (s : TopicState ch) (durableCap : ℕ) (message : BusMessage) : TopicState ch :=
  let seq := s.seq + 1
  { s with seq, log := evict durableCap (s.log ++ [(seq, message)]) }

/-- The live fanout. -/
def fanOut (s : TopicState ch) (message : BusMessage) : TopicState ch := { s with tx := ch.send s.tx message }

def publish (s : TopicState ch) (durableCap : ℕ) (message : BusMessage) : TopicState ch :=
  (s.append durableCap message).fanOut message

def subscribe (s : TopicState ch) (consumerGroup : String) : ch.Receiver × TopicState ch :=
  let cursors := if s.cursors.has consumerGroup then s.cursors else s.cursors.put consumerGroup 0
  (ch.subscribe s.tx, { s with cursors })

def cursor (s : TopicState ch) (consumerGroup : String) : ℕ := (s.cursors.get consumerGroup).getD 0

def storeCursor (s : TopicState ch) (consumerGroup : String) (seq : ℕ) : TopicState ch :=
  { s with cursors := s.cursors.put consumerGroup seq }

def lag (s : TopicState ch) (consumerGroup : String) : ℕ := s.seq - s.cursor consumerGroup

/-! ### What the log holds -/

/-- The log holds the last of what was published, numbered from one. -/
structure Records (s : TopicState ch) (durableCap : ℕ) (published : List BusMessage) : Prop where
  seq_eq : s.seq = published.length
  log_eq : s.log = keepLast durableCap (numberFrom 1 published)

section Records
variable {s : TopicState ch} {durableCap : ℕ} {published : List BusMessage}

theorem records_new (durableCap : ℕ) : (new : TopicState ch).Records durableCap [] :=
  ⟨rfl, List.drop_nil.symm⟩

theorem Records.append (h : s.Records durableCap published) (message : BusMessage) :
    (s.append durableCap message).Records durableCap (published ++ [message]) := by
  refine ⟨?_, ?_⟩
  · show s.seq + 1 = _
    rw [h.seq_eq, List.length_append, List.length_singleton]
  · show evict durableCap (s.log ++ [(s.seq + 1, message)]) = _
    rw [evict_eq_keepLast, h.log_eq, keepLast_concat, h.seq_eq, numberFrom_append, Nat.add_comm 1]
    rfl

/-- A reader that is not too far behind finds the next record. -/
theorem Records.next (h : s.Records durableCap published) {cursor : ℕ} (hreach : published.length ≤ cursor + durableCap) :
    nextFromLog s.log cursor = published[cursor]?.map fun m => (cursor + 1, m) := by
  unfold nextFromLog
  rw [h.log_eq]
  exact find_numbered hreach

end Records

@[simp] theorem cursor_storeCursor (s : TopicState ch) (g : String) (seq : ℕ) :
    (s.storeCursor g seq).cursor g = seq := by
  unfold cursor storeCursor
  rw [KMap.get_put, if_pos rfl, Option.getD_some]

theorem cursor_storeCursor_ne (s : TopicState ch) {g g' : String} (h : g' ≠ g) (seq : ℕ) :
    (s.storeCursor g seq).cursor g' = s.cursor g' := by
  unfold cursor storeCursor
  rw [KMap.get_put_ne _ _ h]

/-- A subscription leaves the cursors where they are. -/
@[simp] theorem cursor_subscribe (s : TopicState ch) (g g' : String) : (s.subscribe g).2.cursor g' = s.cursor g' := by
  unfold subscribe cursor
  dsimp only
  split_ifs with hhas
  · rfl
  · rw [KMap.get_put]
    split_ifs with hg
    · rw [hg, KMap.has_eq_false_iff.mp (Bool.eq_false_iff.mpr hhas)]
      rfl
    · rfl

end TopicState

/-- A message that tells nothing but its number. -/
def ping (n : ℕ) : BusMessage where
  topic := .eventsRaw
  partitionKey := "ten_chaos"
  payload := .event { (default : CanonicalEventRecord) with eventType := "chaos.ping", eventSequenceNumber := n }

end AiManager.Telemetry
