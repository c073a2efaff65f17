import AiManager.Lib.KMap
import AiManager.Lib.SlidingWindow
import AiManager.Telemetry.Model
import Mathlib.Data.List.Induction

/-! # The rate limiter

The embedded limiter keeps, for each tenant, the instants of its last admitted calls, oldest first. What it keeps are the
admitted calls that still count (`Keeps`); the bound for every stretch of time follows from that
(`rateLimiter_window`). -/

namespace AiManager.Telemetry

open Lib

/-- Sliding-window limiter in process memory; times are in nanoseconds. -/
structure InMemoryRateLimiter where
  limitPerWindow : ℕ
  window : ℕ
  /-- tenant → timestamps of recent requests -/
  windows : KMap String (List ℕ)

/-- A call of `check`, and when. -/
structure RateCall where
  now : ℕ
  tenantId : String
  deriving DecidableEq

namespace InMemoryRateLimiter

def nanosPerSec : ℕ := 1000000000

def withWindow (limit window : ℕ) : InMemoryRateLimiter := ⟨limit, window, ∅⟩

/-- The timestamps that are left when the old ones are taken from the front. -/
def prune (window now : ℕ) (q : List ℕ) : List ℕ := q.dropWhile fun front => window < now - front

/-- Whole seconds until the front leaves the window, at least one; the difference saturates. -/
def retryAfterSecs (window now : ℕ) (q : List ℕ) : ℕ :=
  (q.head?.map fun t => max ((window - (now - t)) / nanosPerSec) 1).getD 1

def check (rl : InMemoryRateLimiter) (now : ℕ) (tenantId : String) : CoreResult Unit × InMemoryRateLimiter :=
  let q := prune rl.window now ((rl.windows.get tenantId).getD [])
  if rl.limitPerWindow ≤ q.length then
    (.error (.rateLimited (retryAfterSecs rl.window now q)), { rl with windows := rl.windows.put tenantId q })
  else (.ok (), { rl with windows := rl.windows.put tenantId (q ++ [now]) })

/-! ## Runs -/

def call (rl : InMemoryRateLimiter) (c : RateCall) : InMemoryRateLimiter := (rl.check c.now c.tenantId).2

/-- The limiter after the calls. -/
def after (limit window : ℕ) (calls : List RateCall) : InMemoryRateLimiter := calls.foldl call (withWindow limit window)

/-- The instants of the tenant's admitted calls. -/
def admittedFrom (rl : InMemoryRateLimiter) (tenantId : String) : List RateCall → List ℕ
  | [] => []
  | c :: cs =>
    (if c.tenantId = tenantId ∧ (rl.check c.now c.tenantId).1 = .ok () then [c.now] else []) ++
      admittedFrom (rl.call c) tenantId cs

def admitted (limit window : ℕ) (calls : List RateCall) (tenantId : String) : List ℕ :=
  admittedFrom (withWindow limit window) tenantId calls

/-- The clock does not go back. -/
def Timely (calls : List RateCall) : Prop := (calls.map RateCall.now).Pairwise (· ≤ ·)

instance (calls : List RateCall) : Decidable (Timely calls) :=
  inferInstanceAs (Decidable ((calls.map RateCall.now).Pairwise (· ≤ ·)))

section Runs
variable {limit window : ℕ} {calls : List RateCall} {c : RateCall} {tenantId : String} {rl : InMemoryRateLimiter}
  {now : ℕ}

theorem after_concat : after limit window (calls ++ [c]) = (after limit window calls).call c := by
  unfold after
  rw [List.foldl_append]
  rfl

theorem admittedFrom_append {cs cs' : List RateCall} :
    admittedFrom rl tenantId (cs ++ cs') =
      admittedFrom rl tenantId cs ++ admittedFrom (cs.foldl call rl) tenantId cs' := by
  induction cs generalizing rl with
  | nil => rfl
  | cons c cs ih =>
    show _ ++ admittedFrom (rl.call c) tenantId (cs ++ cs') = _
    rw [ih, ← List.append_assoc]
    rfl

theorem admitted_concat : admitted limit window (calls ++ [c]) tenantId =
    admitted limit window calls tenantId ++
      if c.tenantId = tenantId ∧ ((after limit window calls).check c.now c.tenantId).1 = .ok () then [c.now] else [] := by
  unfold admitted
  rw [admittedFrom_append]
  exact congrArg _ (List.append_nil _)

theorem mem_admitted {t : ℕ} (h : t ∈ admitted limit window calls tenantId) : t ∈ calls.map RateCall.now := by
  induction calls using List.reverseRecOn with
  | nil => cases h
  | append_singleton calls c ih =>
    rw [admitted_concat] at h
    rw [List.map_append]
    rcases List.mem_append.mp h with h | h
    · exact List.mem_append_left _ (ih h)
    · split_ifs at h
      · exact List.mem_append_right _ h
      · cases h

theorem timely_concat (h : Timely (calls ++ [c])) : Timely calls ∧ ∀ r ∈ calls.map RateCall.now, r ≤ c.now := by
  unfold Timely at h
  rw [List.map_append, List.pairwise_append] at h
  exact ⟨h.1, fun r hr => h.2.2 r hr c.now List.mem_cons_self⟩

theorem admitted_pairwise (h : Timely calls) : (admitted limit window calls tenantId).Pairwise (· ≤ ·) := by
  induction calls using List.reverseRecOn with
  | nil => exact List.Pairwise.nil
  | append_singleton calls c ih =>
    obtain ⟨hcalls, hnow⟩ := timely_concat h
    rw [admitted_concat]
    split_ifs
    · refine List.pairwise_append.mpr ⟨ih hcalls, List.pairwise_singleton _ _, ?_⟩
      intro t ht r hr
      rw [List.mem_singleton.mp hr]
      exact hnow t (mem_admitted ht)
    · rw [List.append_nil]
      exact ih hcalls

/-! ## What is kept -/

/-- The tenant's queue. -/
def queue (rl : InMemoryRateLimiter) (tenantId : String) : List ℕ := (rl.windows.get tenantId).getD []

/-- What a check does with the queue that is left by the pruning. -/
theorem check_cases (rl : InMemoryRateLimiter) (now : ℕ) (tenantId : String) :
    (rl.limitPerWindow ≤ (prune rl.window now (rl.queue tenantId)).length ∧
      (rl.check now tenantId).1 =
        .error (.rateLimited (retryAfterSecs rl.window now (prune rl.window now (rl.queue tenantId)))) ∧
      (rl.check now tenantId).2 =
        { rl with windows := rl.windows.put tenantId (prune rl.window now (rl.queue tenantId)) }) ∨
    ((prune rl.window now (rl.queue tenantId)).length < rl.limitPerWindow ∧ (rl.check now tenantId).1 = .ok () ∧
      (rl.check now tenantId).2 =
        { rl with windows := rl.windows.put tenantId (prune rl.window now (rl.queue tenantId) ++ [now]) }) := by
  unfold check queue
  dsimp only
  split_ifs with hfull
  · exact .inl ⟨hfull, rfl, rfl⟩
  · exact .inr ⟨Nat.lt_of_not_le hfull, rfl, rfl⟩

theorem queue_put {q : List ℕ} (windows : KMap String (List ℕ)) (id : String) :
    queue { rl with windows := windows.put tenantId q } id = if id = tenantId then q else (windows.get id).getD [] := by
  unfold queue
  dsimp only
  rw [KMap.get_put]
  split_ifs <;> rfl

theorem queue_call_ne (h : c.tenantId ≠ tenantId) : (rl.call c).queue tenantId = rl.queue tenantId := by
  unfold call
  rcases check_cases rl c.now c.tenantId with ⟨-, -, heq⟩ | ⟨-, -, heq⟩
  · rw [heq, queue_put, if_neg (Ne.symm h)]
    rfl
  · rw [heq, queue_put, if_neg (Ne.symm h)]
    rfl

theorem config_call : (rl.call c).limitPerWindow = rl.limitPerWindow ∧ (rl.call c).window = rl.window := by
  unfold call
  rcases check_cases rl c.now c.tenantId with ⟨-, -, heq⟩ | ⟨-, -, heq⟩ <;>
    · rw [heq]
      exact ⟨rfl, rfl⟩

theorem config_after : (after limit window calls).limitPerWindow = limit ∧ (after limit window calls).window = window := by
  induction calls using List.reverseRecOn with
  | nil => exact ⟨rfl, rfl⟩
  | append_singleton calls c ih =>
    rw [after_concat, config_call.1, config_call.2]
    exact ih

/-- The queue is what counted at some earlier instant. -/
def Keeps (limit window : ℕ) (calls : List RateCall) (tenantId : String) : Prop :=
  ∃ m, (∀ now, (∀ r ∈ calls.map RateCall.now, r ≤ now) → m ≤ now) ∧
    (after limit window calls).queue tenantId = recent window m (admitted limit window calls tenantId)

theorem Keeps.prune (h : Keeps limit window calls tenantId) (hcalls : Timely calls)
    (hnow : ∀ r ∈ calls.map RateCall.now, r ≤ now) :
    prune window now ((after limit window calls).queue tenantId) =
      recent window now (admitted limit window calls tenantId) := by
  obtain ⟨m, hm, hqueue⟩ := h
  unfold InMemoryRateLimiter.prune
  rw [hqueue, dropWhile_eq_recent ((admitted_pairwise hcalls).sublist recent_sublist), recent_recent (hm now hnow)]

theorem recent_self (t : ℕ) : recent window t [t] = [t] := by
  unfold recent
  rw [List.filter_cons_of_pos (by simp), List.filter_nil]

/-- A tenant's check keeps what counts now; others leave the queue as it is. -/
theorem keeps_after (h : Timely calls) (tenantId : String) : Keeps limit window calls tenantId := by
  induction calls using List.reverseRecOn with
  | nil => exact ⟨0, fun _ _ => Nat.zero_le _, rfl⟩
  | append_singleton calls c ih =>
    obtain ⟨hcalls, hnow⟩ := timely_concat h
    have hkeeps := ih hcalls
    unfold Keeps
    rw [after_concat, admitted_concat]
    by_cases htenant : c.tenantId = tenantId
    · subst htenant
      have hprune := hkeeps.prune hcalls hnow
      refine ⟨c.now, fun now hle => hle c.now (List.mem_map_of_mem (List.mem_append_right _ List.mem_cons_self)), ?_⟩
      unfold call
      rcases check_cases (after limit window calls) c.now c.tenantId with ⟨-, hanswer, heq⟩ | ⟨-, hanswer, heq⟩
      · rw [heq, queue_put, if_pos rfl, hanswer, if_neg (fun hok => nomatch hok.2), List.append_nil, config_after.2,
          hprune]
      · rw [heq, queue_put, if_pos rfl, hanswer, if_pos ⟨rfl, rfl⟩, config_after.2, hprune, recent_append, recent_self]
    · obtain ⟨m, hm, hqueue⟩ := hkeeps
      rw [queue_call_ne htenant, if_neg (fun hok => htenant hok.1), List.append_nil]
      refine ⟨m, fun now hle => hm now fun r hr => hle r ?_, hqueue⟩
      rw [List.map_append]
      exact List.mem_append_left _ hr

/-- A check is admitted if there is room among the admitted calls that still count. -/
theorem check_after (hcalls : Timely calls) (hnow : ∀ r ∈ calls.map RateCall.now, r ≤ now) :
    ((after limit window calls).check now tenantId).1 =
      if limit ≤ (recent window now (admitted limit window calls tenantId)).length then
        .error (.rateLimited (retryAfterSecs window now (recent window now (admitted limit window calls tenantId))))
      else .ok () := by
  rw [← (keeps_after hcalls tenantId).prune hcalls hnow]
  rcases check_cases (after limit window calls) now tenantId with ⟨hfull, hanswer, -⟩ | ⟨hroom, hanswer, -⟩
  · rw [config_after.1, config_after.2] at hfull
    rw [hanswer, config_after.2, if_pos hfull]
  · rw [config_after.1, config_after.2] at hroom
    rw [hanswer, if_neg (Nat.not_le.mpr hroom)]

theorem bounded_admitted (h : Timely calls) : Bounded limit window (admitted limit window calls tenantId) := by
  induction calls using List.reverseRecOn with
  | nil => exact Bounded.nil
  | append_singleton calls c ih =>
    obtain ⟨hcalls, hnow⟩ := timely_concat h
    rw [admitted_concat]
    split_ifs with hok
    · obtain ⟨rfl, hok⟩ := hok
      refine (ih hcalls).concat ?_
      rw [check_after hcalls hnow] at hok
      split_ifs at hok with hfull
      exact Nat.lt_of_not_le hfull
    · rw [List.append_nil]
      exact ih hcalls

/-! ## Tenants -/

/-- An answer depends on the tenant's own queue. -/
theorem check_congr {rl rl' : InMemoryRateLimiter} (hlimit : rl.limitPerWindow = rl'.limitPerWindow)
    (hwindow : rl.window = rl'.window) (hqueue : rl.queue tenantId = rl'.queue tenantId) (now : ℕ) :
    (rl.check now tenantId).1 = (rl'.check now tenantId).1 ∧
      (rl.check now tenantId).2.queue tenantId = (rl'.check now tenantId).2.queue tenantId := by
  rcases check_cases rl now tenantId with ⟨hfull, hanswer, heq⟩ | ⟨hroom, hanswer, heq⟩
  · rcases check_cases rl' now tenantId with ⟨-, hanswer', heq'⟩ | ⟨hroom', -⟩
    · rw [hanswer, hanswer', heq, heq', queue_put, queue_put, if_pos rfl, if_pos rfl, hwindow, hqueue]
      exact ⟨rfl, rfl⟩
    · rw [hlimit, hwindow, hqueue] at hfull
      exact absurd hroom' (Nat.not_lt.mpr hfull)
  · rcases check_cases rl' now tenantId with ⟨hfull', -⟩ | ⟨-, hanswer', heq'⟩
    · rw [hlimit, hwindow, hqueue] at hroom
      exact absurd hroom (Nat.not_lt.mpr hfull')
    · rw [hanswer, hanswer', heq, heq', queue_put, queue_put, if_pos rfl, if_pos rfl, hwindow, hqueue]
      exact ⟨rfl, rfl⟩

theorem queue_filter (tenantId : String) : (after limit window calls).queue tenantId =
    (after limit window (calls.filter fun c => c.tenantId = tenantId)).queue tenantId := by
  induction calls using List.reverseRecOn with
  | nil => rfl
  | append_singleton calls c ih =>
    rw [after_concat, List.filter_append]
    by_cases htenant : c.tenantId = tenantId
    · subst htenant
      rw [List.filter_cons_of_pos (by simp), List.filter_nil, after_concat]
      exact (check_congr (config_after.1.trans config_after.1.symm) (config_after.2.trans config_after.2.symm) ih c.now).2
    · rw [List.filter_cons_of_neg (by simpa using htenant), List.filter_nil, List.append_nil, queue_call_ne htenant, ih]

/-- What holds of every run of the limiter. -/
structure RateLimited (limit window : ℕ) (calls : List RateCall) : Prop where
  bound : ∀ tenantId s, ((admitted limit window calls tenantId).filter fun t => s ≤ t ∧ t ≤ s + window).length ≤ limit
  rejected : ∀ before c rest, calls = before ++ c :: rest →
    ((after limit window before).check c.now c.tenantId).1 ≠ .ok () →
      limit ≤ ((admitted limit window before c.tenantId).filter fun t => c.now ≤ t + window ∧ t ≤ c.now).length
  apart : ∀ before c rest, calls = before ++ c :: rest →
    ((after limit window before).check c.now c.tenantId).1 =
      ((after limit window (before.filter fun d => d.tenantId = c.tenantId)).check c.now c.tenantId).1

theorem rateLimiter_window (limit window : ℕ) (calls : List RateCall) (h : Timely calls) :
    RateLimited limit window calls := by
  constructor
  case bound => exact fun tenantId s => bounded_admitted h s
  case rejected =>
    rintro before c rest rfl hrejected
    have hbefore : Timely (before ++ [c]) := by
      refine List.Pairwise.sublist (List.Sublist.map _ ?_) h
      exact List.Sublist.append (List.Sublist.refl before) (List.Sublist.cons_cons c (List.nil_sublist rest))
    obtain ⟨hcalls, hnow⟩ := timely_concat hbefore
    rw [check_after hcalls hnow] at hrejected
    split_ifs at hrejected with hfull
    · refine hfull.trans (Nat.le_of_eq (congrArg List.length (List.filter_congr fun t ht => ?_)))
      rw [decide_eq_decide]
      exact (and_iff_left (hnow t (mem_admitted ht))).symm
    · exact absurd rfl hrejected
  case apart =>
    rintro before c rest rfl
    exact (check_congr (config_after.1.trans config_after.1.symm) (config_after.2.trans config_after.2.symm)
      (queue_filter c.tenantId) c.now).1

/-- Three checks of one tenant and one of another, at a limit of two. -/
def threeChecks : List RateCall := [⟨0, "ten_1"⟩, ⟨5, "ten_1"⟩, ⟨7, "ten_2"⟩, ⟨10, "ten_1"⟩]

theorem threeChecks_window : RateLimited 2 10 threeChecks := rateLimiter_window 2 10 threeChecks (by decide)

end Runs

end InMemoryRateLimiter

end AiManager.Telemetry
