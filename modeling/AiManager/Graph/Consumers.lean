import AiManager.Graph.Projector
import AiManager.Lib.Run
import Mathlib.Logic.Function.Basic

/-! # Consumers of the topics

Any number of topics, each with a consumer, and requests over HTTP, over one pair of stores. Records and
requests are taken whole, one after another. A record has been got past once its consumer has moved on from
it; a restart may take a consumer back to a saved offset. -/

namespace AiManager.Graph

open Lib

inductive TopicRecord where
  /-- a record without a value -/
  | empty
  | unrecognized
  | payload (p : V1BusPayload)

/-- Where an effect comes from: record `k` of topic `i`, or a request about an event. -/
inductive Source (ι : Type) where
  | record (i : ι) (k : Nat)
  | request (key : String × String)
  deriving DecidableEq

/-- The stores, the consumers' offsets and how far they ever got, the effects with their sources, newest
first, and the payloads whose mark was new, with theirs. -/
structure Projector (ι : Type) where
  stores : ProjectStores
  offsets : ι → Nat
  passed : ι → Nat
  log : List (Source ι × Effect)
  takers : List (Source ι × V1BusPayload)

inductive ProjectorStep (ι : Type) where
  /-- the consumer of a topic takes the record at its offset -/
  | consume (i : ι) (faults : Faults)
  | restart (i : ι) (saved : Nat)
  | request (p : V1BusPayload) (faults : Faults)

namespace Projector
variable {ι : Type}

def emptyStores : ProjectStores := ⟨.new, .new, []⟩

/-- The stores without the marks. -/
def unmarked (stores : ProjectStores) : ProjectStores :=
  { stores with graph := { stores.graph with applied := ∅ } }

def start (stores : ProjectStores) : Projector ι := ⟨stores, fun _ => 0, fun _ => 0, [], []⟩

/-- Move on from a record. -/
def advance [DecidableEq ι] (s : Projector ι) (i : ι) : Projector ι :=
  { s with
    offsets := Function.update s.offsets i (s.offsets i + 1)
    passed := Function.update s.passed i (max (s.passed i) (s.offsets i + 1)) }

variable (mapEvent : V1CanonicalEvent → GraphMutation) (topic : ι → List TopicRecord)

/-- Hand a payload to the engine. -/
def take (s : Projector ι) (source : Source ι) (faults : Faults) (p : V1BusPayload) :
    GraphResult Unit × Projector ι :=
  let (r, stores) := handle mapEvent faults p s.stores.quiet
  (r, { s with
    stores := stores
    log := stores.effects.map (fun e => (source, e)) ++ s.log
    takers := if faults.mark = none ∧ s.stores.graph.applied.has p.key = false then (source, p) :: s.takers
      else s.takers })

def step [DecidableEq ι] (s : Projector ι) : ProjectorStep ι → Projector ι
  | .consume i faults =>
    match (topic i)[s.offsets i]? with
    | none => s
    | some (.payload p) =>
      match s.take mapEvent (.record i (s.offsets i)) faults p with
      | (.ok (), s') => s'.advance i
      | (.error _, s') => s'
    | some _ => s.advance i
  | .restart i saved => { s with offsets := Function.update s.offsets i (min saved (s.offsets i)) }
  | .request p faults => (s.take mapEvent (.request p.key) faults p).2

/-! ## One payload -/

section Take
variable (mapEvent : V1CanonicalEvent → GraphMutation) (source : Source ι) {s : Projector ι}
  {faults : Faults} {p : V1BusPayload}

/-- Nothing was done: the log, the marks and their takers are as before. -/
structure Idle (s s' : Projector ι) : Prop where
  log : s'.log = s.log
  takers : s'.takers = s.takers
  applied : s'.stores.graph.applied = s.stores.graph.applied

theorem take_fails {e : GraphError} (h : faults.mark = some e) :
    (s.take mapEvent source faults p).1 = .error e ∧ Idle s (s.take mapEvent source faults p).2 := by
  unfold take
  rw [handle_fails h]
  exact ⟨rfl, rfl, by simp [h], rfl⟩

theorem take_duplicate (hmark : faults.mark = none) (hold : s.stores.graph.applied.has p.key = true) :
    (s.take mapEvent source faults p).1 = .ok () ∧ Idle s (s.take mapEvent source faults p).2 := by
  unfold take
  rw [handle_duplicate mapEvent hmark (s := s.stores.quiet) hold]
  exact ⟨rfl, rfl, by simp [hold], rfl⟩

theorem take_new (hmark : faults.mark = none) (hnew : s.stores.graph.applied.has p.key = false) :
    (s.take mapEvent source faults p).2.log =
        (p.performed mapEvent faults).map (fun e => (source, e)) ++ s.log ∧
      (s.take mapEvent source faults p).2.takers = (source, p) :: s.takers ∧
      (s.take mapEvent source faults p).2.stores.graph.applied = s.stores.graph.applied.put p.key () := by
  obtain ⟨happlied, heffects, -⟩ :=
    handle_new mapEvent hmark (s := s.stores.quiet) hnew
  refine ⟨?_, by simp [take, hmark, hnew], happlied⟩
  show (handle mapEvent faults p s.stores.quiet).2.effects.map _ ++ s.log = _
  rw [heffects]
  show (_ ++ []).map _ ++ s.log = _
  rw [List.append_nil]

@[simp] theorem take_offsets : (s.take mapEvent source faults p).2.offsets = s.offsets := rfl

@[simp] theorem take_passed : (s.take mapEvent source faults p).2.passed = s.passed := rfl

/-- Everything a consumer's step can do. -/
theorem step_consume_cases [DecidableEq ι] (topic : ι → List TopicRecord) (s : Projector ι) (i : ι) (faults : Faults) :
    ((topic i)[s.offsets i]? = none ∧ s.step mapEvent topic (.consume i faults) = s) ∨
    (∃ r, (topic i)[s.offsets i]? = some r ∧ (∀ p, r ≠ .payload p) ∧
      s.step mapEvent topic (.consume i faults) = s.advance i) ∨
    ∃ p, (topic i)[s.offsets i]? = some (.payload p) ∧
      (((s.take mapEvent (.record i (s.offsets i)) faults p).1 = .ok () ∧
        s.step mapEvent topic (.consume i faults) =
          (s.take mapEvent (.record i (s.offsets i)) faults p).2.advance i) ∨
      (∃ e, (s.take mapEvent (.record i (s.offsets i)) faults p).1 = .error e ∧
        s.step mapEvent topic (.consume i faults) =
          (s.take mapEvent (.record i (s.offsets i)) faults p).2)) := by
  cases hrecord : (topic i)[s.offsets i]? with
  | none => exact .inl ⟨rfl, by simp [step, hrecord]⟩
  | some r =>
    cases r with
    | empty => exact .inr (.inl ⟨.empty, rfl, nofun, by simp [step, hrecord]⟩)
    | unrecognized => exact .inr (.inl ⟨.unrecognized, rfl, nofun, by simp [step, hrecord]⟩)
    | payload p =>
      refine .inr (.inr ⟨p, rfl, ?_⟩)
      simp only [step, hrecord]
      rcases s.take mapEvent (.record i (s.offsets i)) faults p with ⟨e | u, s'⟩
      · exact .inr ⟨e, rfl, rfl⟩
      · exact .inl ⟨rfl, rfl⟩

variable [DecidableEq ι] {topic : ι → List TopicRecord} {i : ι}

variable (faults) in
/-- The step on a record that can be read. -/
theorem step_consume_payload (hrecord : (topic i)[s.offsets i]? = some (.payload p)) :
    ((s.take mapEvent (.record i (s.offsets i)) faults p).1 = .ok () ∧
      s.step mapEvent topic (.consume i faults) =
        (s.take mapEvent (.record i (s.offsets i)) faults p).2.advance i) ∨
    ∃ e, (s.take mapEvent (.record i (s.offsets i)) faults p).1 = .error e ∧
      s.step mapEvent topic (.consume i faults) =
        (s.take mapEvent (.record i (s.offsets i)) faults p).2 := by
  rcases step_consume_cases mapEvent topic s i faults with
    ⟨hnone, -⟩ | ⟨r, hr, hunread, -⟩ | ⟨q, hq, hcase⟩
  · rw [hrecord] at hnone
    cases hnone
  · exact absurd (Option.some.inj (hr.symm.trans hrecord)) (hunread p)
  · obtain rfl := TopicRecord.payload.inj (Option.some.inj (hq.symm.trans hrecord))
    exact hcase

/-- A marked record: the consumer moves on and nothing is done. -/
theorem step_of_marked (hrecord : (topic i)[s.offsets i]? = some (.payload p))
    (hmarked : s.stores.graph.applied.has p.key = true) :
    ∃ s' : Projector ι, s.step mapEvent topic (.consume i {}) = s'.advance i ∧ Idle s s' ∧
      s'.offsets = s.offsets ∧ s'.passed = s.passed := by
  obtain ⟨hok, hidle⟩ : (s.take mapEvent (.record i (s.offsets i)) {} p).1 = .ok () ∧
      Idle s (s.take mapEvent (.record i (s.offsets i)) {} p).2 := take_duplicate mapEvent _ rfl hmarked
  rcases step_consume_payload mapEvent {} hrecord with ⟨-, heq⟩ | ⟨e, herror, -⟩
  · exact ⟨_, heq, hidle, rfl, rfl⟩
  · rw [hok] at herror
    cases herror

end Take

end Projector

end AiManager.Graph
