import AiManager.Telemetry.RateLimit

/-! # When to come back

A refusal reports whole seconds until the oldest admitted call has the age of the window. A call that old still counts,
and part of a second is left out, so the time that is reported is too short unless it is the one second that is reported
at least (`retryAfter_iff`). -/

namespace AiManager.Telemetry

open Lib

namespace InMemoryRateLimiter

/-- A check that comes back after the reported time is admitted, if no other call of the tenant was in between. -/
def Truthful (limit window : ℕ) (calls : List RateCall) (now : ℕ) (tenantId : String) (secs : ℕ) : Prop :=
  ∀ (between : List RateCall) (later : ℕ), Timely (calls ++ ⟨now, tenantId⟩ :: between ++ [⟨later, tenantId⟩]) →
    admittedFrom (after limit window (calls ++ [⟨now, tenantId⟩])) tenantId between = [] →
      now + secs * nanosPerSec ≤ later →
        ((after limit window (calls ++ ⟨now, tenantId⟩ :: between)).check later tenantId).1 = .ok ()

section Retry
variable {limit window : ℕ} {calls between : List RateCall} {now later secs : ℕ} {tenantId : String}

/-- A refused check and what comes after it without an admission leave the admitted calls as they are. -/
theorem admitted_between (hrejected : ((after limit window calls).check now tenantId).1 = .error (.rateLimited secs))
    (hbetween : admittedFrom (after limit window (calls ++ [⟨now, tenantId⟩])) tenantId between = []) :
    admitted limit window (calls ++ ⟨now, tenantId⟩ :: between) tenantId = admitted limit window calls tenantId := by
  have hself : admitted limit window (calls ++ [⟨now, tenantId⟩]) tenantId = admitted limit window calls tenantId := by
    rw [admitted_concat, hrejected, if_neg (fun hok => nomatch hok.2), List.append_nil]
  rw [← List.singleton_append, ← List.append_assoc]
  unfold admitted at hself ⊢
  rw [admittedFrom_append, hself]
  unfold after at hbetween
  rw [hbetween, List.append_nil]

/-- What is reported is too short for the oldest call to be out of the window by then, but for the least second. -/
theorem lt_of_lt_retryAfterSecs {first : ℕ} (rest : List ℕ)
    (h : first + window < now + retryAfterSecs window now (first :: rest) * nanosPerSec) :
    first + window < now + nanosPerSec := by
  have hsecs : retryAfterSecs window now (first :: rest) = max ((window - (now - first)) / nanosPerSec) 1 := rfl
  rw [hsecs] at h
  rcases Nat.le_total ((window - (now - first)) / nanosPerSec) 1 with hle | hle
  · rwa [Nat.max_eq_right hle, Nat.one_mul] at h
  · rw [Nat.max_eq_left hle] at h
    have hwhole := Nat.div_mul_le_self (window - (now - first)) nanosPerSec
    omega

/-- A refusal is truthful exactly if the oldest call that still counts leaves the window in less than a second. -/
theorem retryAfter_iff (limit window : ℕ) (calls : List RateCall) (now : ℕ) (tenantId : String) (secs : ℕ)
    (hlimit : 1 ≤ limit) (h : Timely (calls ++ [⟨now, tenantId⟩]))
    (hrejected : ((after limit window calls).check now tenantId).1 = .error (.rateLimited secs)) :
    Truthful limit window calls now tenantId secs ↔
      ∀ first ∈ (recent window now (admitted limit window calls tenantId)).head?, first + window < now + nanosPerSec := by
  obtain ⟨hcalls, hnow⟩ := timely_concat h
  have hanswer := hrejected
  rw [check_after hcalls hnow] at hanswer
  split_ifs at hanswer with hfull
  have hsorted : (recent window now (admitted limit window calls tenantId)).Pairwise (· ≤ ·) :=
    (admitted_pairwise hcalls).sublist recent_sublist
  have hbounded : (recent window now (admitted limit window calls tenantId)).length ≤ limit :=
    (bounded_admitted hcalls).length_recent fun t ht => hnow t (mem_admitted ht)
  -- later it depends on those that count now whether there is room
  have hlater : ∀ between later, Timely (calls ++ ⟨now, tenantId⟩ :: between ++ [⟨later, tenantId⟩]) →
      admittedFrom (after limit window (calls ++ [⟨now, tenantId⟩])) tenantId between = [] →
        (((after limit window (calls ++ ⟨now, tenantId⟩ :: between)).check later tenantId).1 = .ok () ↔
          (recent window later (recent window now (admitted limit window calls tenantId))).length < limit) := by
    intro between later htimely hbetween
    obtain ⟨hcalls', hlater⟩ := timely_concat htimely
    have hle : now ≤ later :=
      hlater now (List.mem_map_of_mem (List.mem_append_right calls List.mem_cons_self))
    rw [check_after hcalls' hlater, admitted_between hrejected hbetween, recent_recent hle]
    split_ifs with hroom
    · exact iff_of_false nofun (Nat.not_lt.mpr hroom)
    · exact iff_of_true rfl (Nat.lt_of_not_le hroom)
  cases hrecent : recent window now (admitted limit window calls tenantId) with
  | nil =>
    rw [hrecent] at hfull
    exact absurd hfull (Nat.not_le.mpr hlimit)
  | cons first rest =>
    rw [hrecent] at hanswer hfull hsorted hbounded hlater
    have hsecs : retryAfterSecs window now (first :: rest) = secs := by
      injection hanswer with hanswer
      injection hanswer
    constructor
    · intro htruthful oldest holdest
      obtain rfl : first = oldest := Option.some.inj holdest
      have htimely : Timely (calls ++ ⟨now, tenantId⟩ :: [] ++ [⟨now + secs * nanosPerSec, tenantId⟩]) := by
        unfold Timely
        rw [List.map_append, List.pairwise_append]
        refine ⟨h, List.pairwise_singleton _ _, fun r hr r' hr' => ?_⟩
        rw [List.mem_singleton.mp hr']
        refine Nat.le_trans ?_ (Nat.le_add_right now _)
        rw [List.map_append] at hr
        rcases List.mem_append.mp hr with hr | hr
        · exact hnow r hr
        · exact Nat.le_of_eq (List.mem_singleton.mp hr)
      have hroom := (hlater [] _ htimely rfl).mp (htruthful [] _ htimely rfl (Nat.le_refl _))
      refine lt_of_lt_retryAfterSecs rest ?_
      rw [hsecs]
      -- if the oldest still counted, all would
      by_contra hold
      rw [recent_eq_self hsorted (Nat.le_of_not_lt hold)] at hroom
      exact absurd hroom (Nat.not_lt.mpr hfull)
    · intro hsoon between later htimely hbetween hback
      refine (hlater between later htimely hbetween).mpr ?_
      have hone : 1 ≤ secs := by
        rw [← hsecs]
        exact Nat.le_max_right _ 1
      have hgone : first + window < later := by
        have hfirst := hsoon first rfl
        have hsecond : nanosPerSec ≤ secs * nanosPerSec := Nat.le_mul_of_pos_left nanosPerSec hone
        omega
      have hlength := length_recent_le rest hgone
      rw [List.length_cons] at hbounded
      omega

/-- The least window of the tests: what is refused may come back after a second. -/
theorem shortWindow_truthful : Truthful 1 500000000 [⟨0, "ten_1"⟩] 100000000 "ten_1" 1 := by
  refine (retryAfter_iff 1 500000000 [⟨0, "ten_1"⟩] 100000000 "ten_1" 1 (by decide) (by decide)
    (by decide +kernel)).mpr ?_
  decide +kernel

/-- After the whole minute that is reported, the call at the other end of it still counts. -/
theorem minute_not_truthful :
    ¬ ∀ (limit window : ℕ) (calls : List RateCall) (now : ℕ) (tenantId : String) (secs : ℕ), 1 ≤ limit →
      Timely (calls ++ [⟨now, tenantId⟩]) →
        ((after limit window calls).check now tenantId).1 = .error (.rateLimited secs) →
          Truthful limit window calls now tenantId secs := by
  intro h
  have htruthful := h 1 60000000000 [⟨0, "ten_1"⟩] 0 "ten_1" 60 (by decide) (by decide) (by decide +kernel)
  have hback := htruthful [] 60000000000 (by decide) rfl (by decide)
  exact absurd hback (by decide +kernel)

end Retry

end InMemoryRateLimiter

end AiManager.Telemetry
