import Mathlib.Tactic.Common

/-! # Broadcast channels

A channel with one sender, from which each receiver gets every message that was sent since it subscribed, unless it
falls behind the capacity. -/

namespace AiManager.Lib

/-- What a receiver is told instead of a message. -/
inductive RecvError where
  | lagged (n : ℕ)
  | closed

/-- What a channel offers. There may be nothing for a receiver. -/
structure BroadcastChannel (α : Type) where
  Sender : Type
  Receiver : Type
  channel : Sender
  send : Sender → α → Sender
  subscribe : Sender → Receiver
  recv : Sender → Receiver → Option (Except RecvError α × Receiver)

/-- A channel as documented: a receiver has the place of its next message; one that has fallen behind by more
than the capacity is told so, and goes on with the oldest message that is left. -/
def ringChannel (capacity : ℕ) (α : Type) : BroadcastChannel α where
  Sender := List α
  Receiver := ℕ
  channel := []
  send sent msg := sent ++ [msg]
  subscribe sent := sent.length
  recv sent place :=
    if sent.length - capacity ≤ place then sent[place]?.map fun msg => (.ok msg, place + 1)
    else some (.error (.lagged (sent.length - capacity - place)), sent.length - capacity)

/-- What is received was sent. -/
structure BroadcastChannel.Delivers {α : Type} (ch : BroadcastChannel α) (sent : ch.Sender → List α) : Prop where
  channel : sent ch.channel = []
  send : ∀ tx msg, sent (ch.send tx msg) = sent tx ++ [msg]
  recv : ∀ {tx rx msg rx'}, ch.recv tx rx = some (.ok msg, rx') → msg ∈ sent tx

theorem ringChannel_delivers (capacity : ℕ) (α : Type) : (ringChannel capacity α).Delivers id where
  channel := rfl
  send _ _ := rfl
  recv := by
    intro sent place msg place' h
    unfold ringChannel at h
    dsimp only at h
    split_ifs at h
    · obtain ⟨m, hm, heq⟩ := Option.map_eq_some_iff.mp h
      cases heq
      exact List.mem_of_getElem? hm
    · cases h

end AiManager.Lib
