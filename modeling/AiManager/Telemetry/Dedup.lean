import AiManager.Lib.KMap

/-! # Deduplication

The volatile tier: a delivery id is claimed once within `ttl`, and a claim can be given back. Instants
are readings of a monotonic clock. -/

namespace AiManager.Telemetry

open Lib

/-- Claims by delivery id, with the instant of the claim. -/
structure InMemoryDedup where
  ttl : ℕ
  entries : KMap String ℕ
  /-- insertion order, oldest first -/
  order : List (String × ℕ)

namespace InMemoryDedup

def new (ttl : ℕ) : InMemoryDedup := ⟨ttl, ∅, []⟩

/-- `now.duration_since(inserted) < self.ttl`; the difference saturates. -/
def young (ttl now inserted : ℕ) : Bool := decide (now - inserted < ttl)

/-- The claims that are left when the queue is worked off from the front: an id is dropped if its claim,
which may be newer than its place in the queue, has expired too. -/
def gcLoop (ttl now : ℕ) (entries : KMap String ℕ) : List (String × ℕ) → KMap String ℕ × List (String × ℕ)
  | [] => (entries, [])
  | (id, inserted) :: order =>
    if young ttl now inserted then (entries, (id, inserted) :: order)
    else
      match entries.get id with
      | some claimed =>
        gcLoop ttl now (if young ttl now claimed then entries else entries.del id) order
      | none => gcLoop ttl now entries order

def gc (d : InMemoryDedup) (now : ℕ) : InMemoryDedup :=
  let (entries, order) := gcLoop d.ttl now d.entries d.order
  { d with entries, order }

def claim (d : InMemoryDedup) (now : ℕ) (eventId : String) : InMemoryDedup :=
  { d with entries := d.entries.put eventId now, order := d.order ++ [(eventId, now)] }

/-- True for the first who comes with the id; the clock is read before the collection and after it. -/
def tryClaim (d : InMemoryDedup) (gcNow now : ℕ) (eventId : String) : Bool × InMemoryDedup :=
  let d := d.gc gcNow
  match d.entries.get eventId with
  | some claimed =>
    if young d.ttl now claimed then (false, d) else (true, d.claim now eventId)
  | none => (true, d.claim now eventId)

def release (d : InMemoryDedup) (eventId : String) : InMemoryDedup :=
  { d with entries := d.entries.del eventId }

/-! ## What a refusal rests on -/

section Claims
variable {d : InMemoryDedup} {gcNow now : ℕ} {eventId id : String} {t : ℕ}

/-- The collection only drops claims. -/
theorem get_gcLoop {ttl : ℕ} {entries : KMap String ℕ} {order : List (String × ℕ)}
    (h : (gcLoop ttl now entries order).1.get id = some t) : entries.get id = some t := by
  induction order generalizing entries with
  | nil => exact h
  | cons x order ih =>
    obtain ⟨head, inserted⟩ := x
    unfold gcLoop at h
    split at h
    · exact h
    · split at h
      · have hold := ih h
        split_ifs at hold with hyoung
        · exact hold
        · rw [KMap.get_del] at hold
          split_ifs at hold
          exact hold
      · exact ih h

theorem get_gc (h : (d.gc now).entries.get id = some t) : d.entries.get id = some t := get_gcLoop h

/-- An id is refused only while a claim of it is held. -/
theorem held_of_refused (h : (d.tryClaim gcNow now eventId).1 = false) :
    ∃ t, d.entries.get eventId = some t := by
  unfold tryClaim at h
  cases hget : (d.gc gcNow).entries.get eventId with
  | none => simp [hget] at h
  | some t => exact ⟨t, get_gc hget⟩

/-- A claim that is held was held before, or was just taken. -/
theorem held_tryClaim (h : (d.tryClaim gcNow now eventId).2.entries.get id = some t) :
    (id = eventId ∧ (d.tryClaim gcNow now eventId).1 = true) ∨ d.entries.get id = some t := by
  have hclaim : ((d.gc gcNow).claim now eventId).entries.get id = some t →
      id = eventId ∨ d.entries.get id = some t := by
    intro ht
    by_cases hid : id = eventId
    · exact .inl hid
    · rw [claim, KMap.get_put_ne _ _ hid] at ht
      exact .inr (get_gc ht)
  unfold tryClaim at h ⊢
  dsimp only at h ⊢
  split at h
  · split_ifs at h with hyoung
    · exact .inr (get_gc h)
    · simpa [hyoung] using hclaim h
  · simpa using hclaim h

end Claims

end InMemoryDedup

end AiManager.Telemetry
