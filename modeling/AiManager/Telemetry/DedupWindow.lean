import AiManager.Telemetry.Dedup
import Mathlib.Data.List.Induction

/-! # The deduplication window

A claim is refused while an earlier one is standing. Beside the machine there is one that only keeps the claims, without
a queue and without a collection; that the two answer alike is `tryClaim_eq_bareClaim`, and when a claim is refused is
`dedup_window`. -/

namespace AiManager.Telemetry

open Lib

namespace InMemoryDedup

/-! ## Calls -/

/-- One atomic call; the clock is read for the collection and once more for the claim. -/
inductive Call where
  | tryClaim (gcNow now : ℕ) (eventId : String)
  | release (eventId : String)
  deriving DecidableEq

/-- What a call reads from the clock. -/
def Call.readings : Call → List ℕ
  | .tryClaim gcNow now _ => [gcNow, now]
  | .release _ => []

def call (d : InMemoryDedup) : Call → InMemoryDedup
  | .tryClaim gcNow now eventId => (d.tryClaim gcNow now eventId).2
  | .release eventId => d.release eventId

/-- The state after the calls. -/
def after (ttl : ℕ) (calls : List Call) : InMemoryDedup := calls.foldl call (new ttl)

/-- The clock does not go back. -/
def Timely (calls : List Call) : Prop := (calls.flatMap Call.readings).Pairwise (· ≤ ·)

instance (calls : List Call) : Decidable (Timely calls) :=
  inferInstanceAs (Decidable ((calls.flatMap Call.readings).Pairwise (· ≤ ·)))

/-! ## Claims without a collection -/

def bareClaim (ttl : ℕ) (claims : KMap String ℕ) (now : ℕ) (eventId : String) : Bool × KMap String ℕ :=
  match claims.get eventId with
  | some claimed => if young ttl now claimed then (false, claims) else (true, claims.put eventId now)
  | none => (true, claims.put eventId now)

def bareCall (ttl : ℕ) (claims : KMap String ℕ) : Call → KMap String ℕ
  | .tryClaim _ now eventId => (bareClaim ttl claims now eventId).2
  | .release eventId => claims.del eventId

/-- Every claim that was not released, however old. -/
def claimsAfter (ttl : ℕ) (calls : List Call) : KMap String ℕ := calls.foldl (bareCall ttl) ∅

section Runs
variable {d : InMemoryDedup} {ttl gcNow now n t u : ℕ} {claims : KMap String ℕ} {calls before between : List Call}
  {c : Call} {eventId id : String}

theorem after_concat : after ttl (calls ++ [c]) = (after ttl calls).call c := by
  unfold after
  rw [List.foldl_append]
  rfl

theorem claimsAfter_concat : claimsAfter ttl (calls ++ [c]) = bareCall ttl (claimsAfter ttl calls) c := by
  unfold claimsAfter
  rw [List.foldl_append]
  rfl

theorem timely_concat (h : Timely (calls ++ [c])) :
    Timely calls ∧ (∀ r ∈ calls.flatMap Call.readings, ∀ r' ∈ c.readings, r ≤ r') ∧ c.readings.Pairwise (· ≤ ·) := by
  unfold Timely at h
  rw [List.flatMap_append, List.flatMap_singleton, List.pairwise_append] at h
  exact ⟨h.1, h.2.2, h.2.1⟩

theorem young_iff : young ttl now u = true ↔ now - u < ttl := decide_eq_true_iff

/-! ## One call -/

@[simp] theorem ttl_gc : (d.gc now).ttl = d.ttl := rfl

/-- The collection keeps what is not yet old. -/
theorem get_gcLoop_of_young {entries : KMap String ℕ} {order : List (String × ℕ)} (h : entries.get id = some t)
    (hyoung : young ttl now t = true) : (gcLoop ttl now entries order).1.get id = some t := by
  induction order generalizing entries with
  | nil => exact h
  | cons x order ih =>
    obtain ⟨head, inserted⟩ := x
    unfold gcLoop
    split_ifs
    · exact h
    · cases hget : entries.get head with
      | none => exact ih h
      | some claimed =>
        refine ih ?_
        split_ifs with hclaimed
        · exact h
        · have hid : id ≠ head := by
            rintro rfl
            rw [hget] at h
            rw [Option.some.inj h] at hclaimed
            exact hclaimed hyoung
          rwa [KMap.get_del_ne _ hid]

theorem get_gc_of_young (h : d.entries.get id = some t) (hyoung : young d.ttl now t = true) :
    (d.gc now).entries.get id = some t :=
  get_gcLoop_of_young h hyoung

/-- A claim is refused if one is there that is young, and else taken. -/
theorem bareClaim_cases (ttl : ℕ) (claims : KMap String ℕ) (now : ℕ) (eventId : String) :
    (∃ t, claims.get eventId = some t ∧ now - t < ttl ∧ bareClaim ttl claims now eventId = (false, claims)) ∨
    ((∀ t, claims.get eventId = some t → ttl ≤ now - t) ∧
      bareClaim ttl claims now eventId = (true, claims.put eventId now)) := by
  unfold bareClaim
  cases hget : claims.get eventId with
  | none => exact .inr ⟨nofun, rfl⟩
  | some t =>
    dsimp only
    split_ifs with hyoung
    · exact .inl ⟨t, rfl, young_iff.mp hyoung, rfl⟩
    · rw [young_iff, Nat.not_lt] at hyoung
      refine .inr ⟨fun t' ht' => ?_, rfl⟩
      rwa [← Option.some.inj ht']

/-- After the collection, a claim of the machine is a bare one. -/
theorem tryClaim_eq : (d.tryClaim gcNow now eventId).1 = (bareClaim d.ttl (d.gc gcNow).entries now eventId).1 ∧
    (d.tryClaim gcNow now eventId).2.entries = (bareClaim d.ttl (d.gc gcNow).entries now eventId).2 ∧
      (d.tryClaim gcNow now eventId).2.ttl = d.ttl := by
  unfold tryClaim bareClaim
  dsimp only [ttl_gc]
  cases (d.gc gcNow).entries.get eventId with
  | none => exact ⟨rfl, rfl, rfl⟩
  | some t =>
    by_cases hyoung : young d.ttl now t = true
    · simp [hyoung]
    · simp [hyoung, claim]

/-! ## The collection does not show -/

/-- The machine holds claims that are standing, and all of them that have not grown old. -/
structure Agrees (ttl : ℕ) (entries claims : KMap String ℕ) (readings : List ℕ) : Prop where
  held : ∀ id t, entries.get id = some t → claims.get id = some t
  standing : ∀ id t, claims.get id = some t → entries.get id = some t ∨ ∃ r ∈ readings, ttl ≤ r - t

theorem Agrees.gc {readings : List ℕ} (httl : d.ttl = ttl) (h : Agrees ttl d.entries claims readings) (now : ℕ) :
    Agrees ttl (d.gc now).entries claims (readings ++ [now]) := by
  subst httl
  refine ⟨fun id t hget => h.held id t (get_gc hget), fun id t hget => ?_⟩
  rcases h.standing id t hget with hheld | ⟨r, hr, hold⟩
  · by_cases hyoung : young d.ttl now t = true
    · exact .inl (get_gc_of_young hheld hyoung)
    · rw [young_iff, Nat.not_lt] at hyoung
      exact .inr ⟨now, List.mem_append_right _ List.mem_cons_self, hyoung⟩
  · exact .inr ⟨r, List.mem_append_left _ hr, hold⟩

/-- A claim is answered alike, and the claims agree after it. -/
theorem Agrees.bareClaim {entries : KMap String ℕ} {readings : List ℕ} (h : Agrees ttl entries claims readings)
    (hnow : ∀ r ∈ readings, r ≤ now) (eventId : String) :
    (bareClaim ttl entries now eventId).1 = (bareClaim ttl claims now eventId).1 ∧
      Agrees ttl (bareClaim ttl entries now eventId).2 (bareClaim ttl claims now eventId).2 readings := by
  rcases bareClaim_cases ttl entries now eventId with ⟨t, hget, hyoung, heq⟩ | ⟨hold, heq⟩
  · rcases bareClaim_cases ttl claims now eventId with ⟨t', -, -, heq'⟩ | ⟨hold', -⟩
    · rw [heq, heq']
      exact ⟨rfl, h⟩
    · exact absurd hyoung (Nat.not_lt.mpr (hold' t (h.held eventId t hget)))
  · rcases bareClaim_cases ttl claims now eventId with ⟨t, hget, hyoung, -⟩ | ⟨-, heq'⟩
    · -- what only the bare machine still has is old
      rcases h.standing eventId t hget with hheld | ⟨r, hr, hrold⟩
      · exact absurd hyoung (Nat.not_lt.mpr (hold t hheld))
      · have := hnow r hr
        omega
    · rw [heq, heq']
      refine ⟨rfl, fun id t hget => ?_, fun id t hget => ?_⟩
      · rw [KMap.get_put] at hget ⊢
        split_ifs at hget ⊢
        · exact hget
        · exact h.held id t hget
      · rw [KMap.get_put] at hget ⊢
        split_ifs at hget ⊢
        · exact .inl hget
        · exact h.standing id t hget

theorem ttl_after : (after ttl calls).ttl = ttl := by
  induction calls using List.reverseRecOn with
  | nil => rfl
  | append_singleton calls c ih =>
    rw [after_concat]
    cases c with
    | tryClaim gcNow now eventId => exact tryClaim_eq.2.2.trans ih
    | release eventId => exact ih

theorem readings_le (h : Timely (calls ++ [.tryClaim gcNow now eventId])) :
    Timely calls ∧ ∀ r ∈ calls.flatMap Call.readings ++ [gcNow], r ≤ now := by
  obtain ⟨hcalls, hbefore, hself⟩ := timely_concat h
  refine ⟨hcalls, fun r hr => ?_⟩
  rcases List.mem_append.mp hr with hr | hr
  · exact hbefore r hr now (List.mem_cons_of_mem _ List.mem_cons_self)
  · rw [List.mem_singleton.mp hr]
    exact List.rel_of_pairwise_cons hself List.mem_cons_self

theorem agrees_after (h : Timely calls) :
    Agrees ttl (after ttl calls).entries (claimsAfter ttl calls) (calls.flatMap Call.readings) := by
  induction calls using List.reverseRecOn with
  | nil => exact ⟨fun _ _ hget => hget, fun _ _ hget => .inl hget⟩
  | append_singleton calls c ih =>
    rw [after_concat, claimsAfter_concat, List.flatMap_append, List.flatMap_singleton]
    cases c with
    | tryClaim gcNow now eventId =>
      obtain ⟨hcalls, hnow⟩ := readings_le h
      have hgc := (ih hcalls).gc ttl_after gcNow
      show Agrees ttl ((after ttl calls).tryClaim gcNow now eventId).2.entries
        (InMemoryDedup.bareClaim ttl (claimsAfter ttl calls) now eventId).2 _
      rw [tryClaim_eq.2.1, ttl_after]
      have hclaim := (hgc.bareClaim hnow eventId).2
      refine ⟨hclaim.held, fun id t hget => (hclaim.standing id t hget).imp_right ?_⟩
      rintro ⟨r, hr, hold⟩
      refine ⟨r, ?_, hold⟩
      rcases List.mem_append.mp hr with hr | hr
      · exact List.mem_append_left _ hr
      · rw [List.mem_singleton.mp hr]
        exact List.mem_append_right _ List.mem_cons_self
    | release eventId =>
      have hagrees := ih (timely_concat h).1
      show Agrees ttl ((after ttl calls).entries.del eventId) ((claimsAfter ttl calls).del eventId) _
      refine ⟨fun id t hget => ?_, fun id t hget => ?_⟩
      · rw [KMap.get_del] at hget ⊢
        split_ifs at hget ⊢
        exact hagrees.held id t hget
      · rw [KMap.get_del] at hget ⊢
        split_ifs at hget ⊢
        rw [show Call.readings (.release eventId) = [] from rfl, List.append_nil]
        exact hagrees.standing id t hget

/-- Neither the queue nor the collection changes an answer. -/
theorem tryClaim_eq_bareClaim (ttl : ℕ) (h : Timely (calls ++ [.tryClaim gcNow now eventId])) :
    ((after ttl calls).tryClaim gcNow now eventId).1 = (bareClaim ttl (claimsAfter ttl calls) now eventId).1 := by
  obtain ⟨hcalls, hnow⟩ := readings_le h
  rw [tryClaim_eq.1, ttl_after]
  exact (((agrees_after hcalls).gc ttl_after gcNow).bareClaim hnow eventId).1

/-! ## Standing claims -/

/-- The id was claimed at `u`, and not released since. -/
def Standing (ttl : ℕ) (calls : List Call) (eventId : String) (u : ℕ) : Prop :=
  ∃ before gcNow between, calls = before ++ .tryClaim gcNow u eventId :: between ∧
    ((after ttl before).tryClaim gcNow u eventId).1 = true ∧ .release eventId ∉ between

theorem standing_concat : Standing ttl (calls ++ [c]) eventId u ↔
    (∃ gcNow, c = .tryClaim gcNow u eventId ∧ ((after ttl calls).tryClaim gcNow u eventId).1 = true) ∨
      (Standing ttl calls eventId u ∧ c ≠ .release eventId) := by
  constructor
  · rintro ⟨before, gcNow, between, heq, htaken, hreleased⟩
    rcases List.eq_nil_or_concat' between with rfl | ⟨between, last, rfl⟩
    · obtain ⟨rfl, hc⟩ := List.append_inj' heq rfl
      exact .inl ⟨gcNow, (List.cons.inj hc).1, htaken⟩
    · rw [← List.cons_append, ← List.append_assoc] at heq
      obtain ⟨rfl, hc⟩ := List.append_inj' heq rfl
      obtain rfl := (List.cons.inj hc).1
      rw [List.mem_append, List.mem_singleton, not_or] at hreleased
      exact .inr ⟨⟨before, gcNow, between, rfl, htaken, hreleased.1⟩, Ne.symm hreleased.2⟩
  · rintro (⟨gcNow, rfl, htaken⟩ | ⟨⟨before, gcNow, between, rfl, htaken, hreleased⟩, hc⟩)
    · exact ⟨calls, gcNow, [], rfl, htaken, List.not_mem_nil⟩
    · refine ⟨before, gcNow, between ++ [c], by simp, htaken, ?_⟩
      rw [List.mem_append, List.mem_singleton, not_or]
      exact ⟨hreleased, Ne.symm hc⟩

theorem Standing.mem_readings (h : Standing ttl calls eventId u) : u ∈ calls.flatMap Call.readings := by
  obtain ⟨before, gcNow, between, rfl, -⟩ := h
  refine List.mem_flatMap.mpr ⟨.tryClaim gcNow u eventId, List.mem_append_right _ List.mem_cons_self, ?_⟩
  exact List.mem_cons_of_mem _ List.mem_cons_self

/-- The bare machine holds the latest standing claim. -/
theorem get_claimsAfter (ttl : ℕ) (h : Timely calls) :
    (∀ id t, (claimsAfter ttl calls).get id = some t → Standing ttl calls id t) ∧
      ∀ id u, Standing ttl calls id u → ∃ t, (claimsAfter ttl calls).get id = some t ∧ u ≤ t := by
  induction calls using List.reverseRecOn with
  | nil =>
    refine ⟨nofun, ?_⟩
    rintro id u ⟨before, gcNow, between, heq, -⟩
    exact absurd heq.symm (List.append_ne_nil_of_right_ne_nil _ (List.cons_ne_nil _ _))
  | append_singleton calls c ih =>
    rw [claimsAfter_concat]
    cases c with
    | release eventId =>
      obtain ⟨hheld, hstanding⟩ := ih (timely_concat h).1
      refine ⟨fun id t hget => ?_, fun id u hu => ?_⟩
      · rw [bareCall, KMap.get_del] at hget
        split_ifs at hget with hid
        exact standing_concat.mpr (.inr ⟨hheld id t hget, by simpa using Ne.symm hid⟩)
      · rcases standing_concat.mp hu with ⟨gcNow, hc, -⟩ | ⟨hu, hc⟩
        · cases hc
        · have hid : id ≠ eventId := by simpa using Ne.symm hc
          rw [bareCall, KMap.get_del_ne _ hid]
          exact hstanding id u hu
    | tryClaim gcNow now eventId =>
      obtain ⟨hcalls, hnow⟩ := readings_le h
      obtain ⟨hheld, hstanding⟩ := ih hcalls
      have hkept : ∀ {id u}, Standing ttl calls id u → Standing ttl (calls ++ [.tryClaim gcNow now eventId]) id u :=
        fun hu => standing_concat.mpr (.inr ⟨hu, nofun⟩)
      have hanswer := tryClaim_eq_bareClaim ttl h
      show (∀ id t, (bareClaim ttl (claimsAfter ttl calls) now eventId).2.get id = some t → _) ∧
        ∀ id u, _ → ∃ t, (bareClaim ttl (claimsAfter ttl calls) now eventId).2.get id = some t ∧ u ≤ t
      rcases bareClaim_cases ttl (claimsAfter ttl calls) now eventId with ⟨t, -, -, heq⟩ | ⟨-, heq⟩
      · rw [heq] at hanswer ⊢
        refine ⟨fun id t hget => hkept (hheld id t hget), fun id u hu => ?_⟩
        rcases standing_concat.mp hu with ⟨gcU, hc, htaken⟩ | ⟨hu, -⟩
        · cases hc
          rw [hanswer] at htaken
          cases htaken
        · exact hstanding id u hu
      · rw [heq] at hanswer ⊢
        refine ⟨fun id t hget => ?_, fun id u hu => ?_⟩
        · rw [KMap.get_put] at hget
          split_ifs at hget with hid
          · obtain rfl := Option.some.inj hget
            exact standing_concat.mpr (.inl ⟨gcNow, by rw [hid], by rw [hid, hanswer]⟩)
          · exact hkept (hheld id t hget)
        · rw [KMap.get_put]
          split_ifs with hid
          · refine ⟨now, rfl, ?_⟩
            rcases standing_concat.mp hu with ⟨gcU, hc, -⟩ | ⟨hu, -⟩
            · cases hc
              exact le_refl _
            · exact hnow u (List.mem_append_left _ hu.mem_readings)
          · rcases standing_concat.mp hu with ⟨gcU, hc, -⟩ | ⟨hu, -⟩
            · cases hc
              exact absurd rfl hid
            · exact hstanding id u hu

/-- A claim is refused exactly while one of the id is standing that is younger than `ttl`; the queue and the collection
play no part. -/
theorem dedup_window (ttl : ℕ) (calls : List Call) (gcNow now : ℕ) (eventId : String)
    (h : Timely (calls ++ [.tryClaim gcNow now eventId])) :
    (((after ttl calls).tryClaim gcNow now eventId).1 = false ↔ ∃ u, Standing ttl calls eventId u ∧ now - u < ttl) ∧
      ((after ttl calls).tryClaim gcNow now eventId).1 = (bareClaim ttl (claimsAfter ttl calls) now eventId).1 := by
  have hanswer := tryClaim_eq_bareClaim ttl h
  obtain ⟨hheld, hstanding⟩ := get_claimsAfter ttl (readings_le h).1
  refine ⟨?_, hanswer⟩
  rw [hanswer]
  rcases bareClaim_cases ttl (claimsAfter ttl calls) now eventId with ⟨t, hget, hyoung, heq⟩ | ⟨hold, heq⟩
  · rw [heq]
    exact iff_of_true rfl ⟨t, hheld eventId t hget, hyoung⟩
  · rw [heq]
    refine iff_of_false nofun ?_
    rintro ⟨u, hu, hyoung⟩
    obtain ⟨t, hget, hut⟩ := hstanding eventId u hu
    have := hold t hget
    omega

/-- Released and claimed again, with the first claim still in the queue. -/
def reclaimed : List Call := [.tryClaim 0 0 "ev", .release "ev", .tryClaim 7 7 "ev"]

theorem reclaimed_window :
    (((after 10 reclaimed).tryClaim 12 12 "ev").1 = false ↔ ∃ u, Standing 10 reclaimed "ev" u ∧ 12 - u < 10) ∧
      ((after 10 reclaimed).tryClaim 12 12 "ev").1 = (bareClaim 10 (claimsAfter 10 reclaimed) 12 "ev").1 :=
  dedup_window 10 reclaimed 12 12 "ev" (by decide)

end Runs

end InMemoryDedup

end AiManager.Telemetry
