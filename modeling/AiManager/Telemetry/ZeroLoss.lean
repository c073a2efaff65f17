import AiManager.Telemetry.IngestPhases
import Mathlib.Data.Fintype.Sets

/-! # Zero loss

Concurrent calls of `ingest`, from any tenants. Whoever is told that a request was taken care of should
find its payload on `events.raw` or among the dead letters, or with a running call that gets it there. A
delivery that is refused as a duplicate rests on the call that holds the claim of its id; nothing in the
claim says whose delivery that was, or how it will end. -/

namespace AiManager.Telemetry

open Lib

abbrev IngestEvent (ι : Type) := Event ι IngestOp IngestOp.Res

abbrev IngestPool (ι : Type) := Pool ι IngestOp IngestOp.Res IngestShared (CoreResult IngestOutcome)

section History
variable {ι : Type} [DecidableEq ι]

/-- The call that claimed the id last, unless the id was released since. -/
def holder (id : String) : List (IngestEvent ι) → Option ι
  | [] => none
  | ⟨i, .tryClaim id', .ok true⟩ :: tr => if id' = id then some i else holder id tr
  | ⟨_, .release id', .ok _⟩ :: tr => if id' = id then none else holder id tr
  | _ :: tr => holder id tr

/-- The call on whose claim the refusal of call `i` rests. -/
def restsOn (i : ι) : List (IngestEvent ι) → Option ι
  | [] => none
  | ⟨k, .tryClaim id, .ok false⟩ :: tr => if k = i then holder id tr else restsOn i tr
  | _ :: tr => restsOn i tr

/-- The call gave its claim back, or tried to. -/
def gaveUp (j : ι) : List (IngestEvent ι) → Bool
  | [] => false
  | ⟨k, .release _, _⟩ :: tr => k = j || gaveUp j tr
  | _ :: tr => gaveUp j tr

/-- After `i` was refused, the claim it rests on was released: by the call that took it, or by another
that took the id for its own. -/
def ReleasedUnder (i : ι) : List (IngestEvent ι) → Prop
  | [] => False
  | ⟨k, .release id, _⟩ :: tr =>
    (∃ j, restsOn i tr = some j ∧ (j = k ∨ holder id tr = some j)) ∨ ReleasedUnder i tr
  | _ :: tr => ReleasedUnder i tr

end History

/-! ## The property -/

namespace IngestPipeline
variable (p : IngestPipeline)

/-- The payload is on `events.raw`, or among the tenant's dead letters. -/
def Stored (s : IngestShared) (req : IngestRequest) : Prop :=
  (∃ message ∈ s.published, message.topic = .eventsRaw ∧ p.Carries req message) ∨
    ∃ reason, StoredObject.dlq req.tenantId reason req.body ∈ s.objects

end IngestPipeline

namespace IngestRequest

/-- The requests are of one tenant and have the same payload. -/
def SamePayload (req req' : IngestRequest) : Prop :=
  req.tenantId = req'.tenantId ∧ req.provider = req'.provider ∧ req.body = req'.body

instance (req req' : IngestRequest) : Decidable (req.SamePayload req') := by
  unfold SamePayload
  infer_instance

end IngestRequest

namespace IngestPool
variable {ι : Type}

/-- The calls at their start. -/
def start (p : IngestPipeline) (calls : ι → IngestRequest) (s : IngestShared) : IngestPool ι :=
  ⟨s, fun i => (p.ingest (calls i)).run, []⟩

/-- The call runs, and claimed its delivery. -/
def Carrying (pool : IngestPool ι) (j : ι) : Prop :=
  (∃ op k, pool.threads j = .call op k) ∧
    ∃ id, (⟨j, .tryClaim id, .ok true⟩ : IngestEvent ι) ∈ pool.trace

variable [DecidableEq ι]

/-- Nothing is lost that a call answered for, and no answer rests on a stranger or on a claim that was
released later. -/
structure ZeroLoss (p : IngestPipeline) (calls : ι → IngestRequest) (pool : IngestPool ι) : Prop where
  kept : ∀ i outcome, pool.threads i = .pure (.ok outcome) →
    p.Stored pool.shared (calls i) ∨
      ∃ j, (calls j).SamePayload (calls i) ∧ pool.Carrying j
  rests : ∀ i outcome, pool.threads i = .pure (.ok outcome) → outcome.status = .duplicate →
    ∃ j, restsOn i pool.trace = some j ∧ (calls j).tenantId = (calls i).tenantId ∧
      ¬ ReleasedUnder i pool.trace

/-! ## The condition -/

/-- What a call may do in a state. A delivery is refused only on the strength of a claim that a call of
the same tenant took for the same payload and did not give up; a dead letter is stored; and a claim is
only released, by its own call or by one that had the id before, if no refusal rests on it. -/
def SoundCall (calls : ι → IngestRequest) (pool : IngestPool ι) (i : ι) (c : IngestChoice) :
    IngestOp → Prop
  | .tryClaim id =>
    c.fault = none → (pool.shared.dedup.tryClaim c.gcNow c.claimNow id).1 = false →
      ∃ j, holder id pool.trace = some j ∧ (calls j).SamePayload (calls i) ∧
        gaveUp j pool.trace = false
  | .putDlq _ _ _ => c.fault = none
  | .release id => ∀ k j, restsOn k pool.trace = some j → j ≠ i ∧ holder id pool.trace ≠ some j
  | _ => True

def Sound (calls : ι → IngestRequest) (pool : IngestPool ι) (x : ι × IngestChoice) : Prop :=
  match pool.threads x.1 with
  | .call op _ => SoundCall calls pool x.1 x.2 op
  | .pure _ => True

instance [Fintype ι] (calls : ι → IngestRequest) (pool : IngestPool ι) (i : ι) (c : IngestChoice) :
    (op : IngestOp) → Decidable (SoundCall calls pool i c op)
  | .tryClaim id =>
    inferInstanceAs (Decidable (c.fault = none →
      (pool.shared.dedup.tryClaim c.gcNow c.claimNow id).1 = false →
      ∃ j, holder id pool.trace = some j ∧ (calls j).SamePayload (calls i) ∧
        gaveUp j pool.trace = false))
  | .putDlq _ _ _ => inferInstanceAs (Decidable (c.fault = none))
  | .release id =>
    inferInstanceAs (Decidable
      (∀ k j, restsOn k pool.trace = some j → j ≠ i ∧ holder id pool.trace ≠ some j))
  | .elapsedMs | .newEventId | .readFresh | .getTenant _ | .verifyWebhook _ _ _ _ | .checkRate _
  | .putRawPayload _ _ _ _ | .ensureUser _ _ _ _ | .currentAclVersion _ | .applyRevocation _
  | .publish _ | .upsert _ => isTrue trivial

instance [Fintype ι] (calls : ι → IngestRequest) (pool : IngestPool ι) (x : ι × IngestChoice) :
    Decidable (Sound calls pool x) :=
  match h : pool.threads x.1 with
  | .pure _ => isTrue (by simp [Sound, h])
  | .call op _ => decidable_of_iff (SoundCall calls pool x.1 x.2 op) (by simp [Sound, h])

end IngestPool

/-! ## Runs -/

section Runs
variable {ι : Type} [DecidableEq ι] {p : IngestPipeline} {calls : ι → IngestRequest}
  {pool : IngestPool ι} {i : ι} {c : IngestChoice} {op : IngestOp} {r : op.Res} {s : IngestShared}
  {k : op.Res → Prog IngestOp IngestOp.Res (CoreResult IngestOutcome)}

def phaseOf (pool : IngestPool ι) (i : ι) : IngestPhase :=
  watch IngestPhase.next .unclaimed i pool.trace

theorem watch_ingestMonitor (q : IngestRequest × IngestPhase) (tr : List (IngestEvent ι)) :
    watch (ingestMonitor p).next q i tr = (q.1, watch IngestPhase.next q.2 i tr) := by
  induction tr with
  | nil => rfl
  | cons e tr ih =>
    unfold watch
    rw [ih]
    split_ifs <;> rfl

theorem phaseOf_after_self : phaseOf (pool.after i op r k s) i = (phaseOf pool i).next op r :=
  watch_cons_self _ _ _ _ _ _

theorem phaseOf_after_ne {j : ι} (h : j ≠ i) :
    phaseOf (pool.after i op r k s) j = phaseOf pool j :=
  watch_cons_ne _ _ (Ne.symm h) _ _ _

theorem answer_replies {s' : IngestShared} (h : p.answer c op s = some (r, s')) :
    (ingestMonitor p).replies op r := by
  refine ⟨fun e he => answer_ofPort h he, ?_⟩
  split
  · next tenantId tenant =>
    obtain ⟨-, hperform⟩ := answer_ok h
    exact Table.key_of_get (Except.ok.inj (Prod.mk.inj hperform).1).symm
  · obtain ⟨-, hperform⟩ | ⟨e, hfallible, -⟩ := answer_cases h
    · cases hperform
    · cases hfallible
  · trivial

/-- How the calls stand. What is refused rests on a call that is stored or on its way, and no claim on
which a refusal rests was ever released. -/
structure Standing (p : IngestPipeline) (calls : ι → IngestRequest) (pool : IngestPool ι) : Prop where
  stored : ∀ i, phaseOf pool i = .stored → p.Stored pool.shared (calls i)
  saved : ∀ i, phaseOf pool i ≠ .unsaved
  refused : ∀ i, phaseOf pool i = .refused → ∃ j, restsOn i pool.trace = some j ∧
    (calls j).SamePayload (calls i) ∧ (phaseOf pool j).Live
  unreleased : ∀ i, ¬ ReleasedUnder i pool.trace
  held : ∀ id j, holder id pool.trace = some j → (phaseOf pool j).Live ∨ gaveUp j pool.trace = true
  claimed : ∀ i, phaseOf pool i = .claimed →
    ∃ id, (⟨i, .tryClaim id, .ok true⟩ : IngestEvent ι) ∈ pool.trace

theorem stored_mono {s s' : IngestShared} {req : IngestRequest} (h : p.Stored s req)
    (hkeeps : (∀ o ∈ s.objects, o ∈ s'.objects) ∧ ∀ m ∈ s.published, m ∈ s'.published) :
    p.Stored s' req := by
  rcases h with ⟨message, hmem, hraw⟩ | ⟨reason, hmem⟩
  · exact .inl ⟨message, hkeeps.2 message hmem, hraw⟩
  · exact .inr ⟨reason, hkeeps.1 _ hmem⟩

/-- Only a call's own refusal changes what it rests on. -/
theorem restsOn_cons_ne {j : ι} (h : j ≠ i) (tr : List (IngestEvent ι)) :
    restsOn j (⟨i, op, r⟩ :: tr) = restsOn j tr := by
  cases op with
  | tryClaim id =>
    rcases r with e | (_ | _)
    · rfl
    · simp [restsOn, Ne.symm h]
    · rfl
  | _ => rfl

/-- What the acting call has to show for the calls to stand as before. The others are where they were,
and so is what they rest on, if the acting call stays live for those who rest on it. -/
theorem standing_after (hI : Standing p calls pool) (hs : p.answer c op pool.shared = some (r, s))
    (hstored : (phaseOf pool i).next op r = .stored → p.Stored s (calls i))
    (hsaved : (phaseOf pool i).next op r ≠ .unsaved)
    (hrefused : (phaseOf pool i).next op r = .refused →
      ∃ j, restsOn i (⟨i, op, r⟩ :: pool.trace) = some j ∧ (calls j).SamePayload (calls i) ∧
        (phaseOf (pool.after i op r k s) j).Live)
    (hlive : ∀ j, restsOn j pool.trace = some i → (phaseOf pool i).Live →
      ((phaseOf pool i).next op r).Live)
    (hunreleased : ∀ j, ¬ ReleasedUnder j (⟨i, op, r⟩ :: pool.trace))
    (hheld : ∀ id j, holder id (⟨i, op, r⟩ :: pool.trace) = some j →
      (phaseOf (pool.after i op r k s) j).Live ∨ gaveUp j (⟨i, op, r⟩ :: pool.trace) = true)
    (hclaimed : (phaseOf pool i).next op r = .claimed →
      ∃ id, (⟨i, .tryClaim id, .ok true⟩ : IngestEvent ι) ∈
        (⟨i, op, r⟩ : IngestEvent ι) :: pool.trace) :
    Standing p calls (pool.after i op r k s) := by
  -- the phases of the others are as before, and the store only grows
  constructor
  case stored =>
    intro j hj
    by_cases h : j = i
    · subst h
      rw [phaseOf_after_self] at hj
      exact hstored hj
    · rw [phaseOf_after_ne h] at hj
      exact stored_mono (hI.stored j hj) (answer_keeps hs)
  case saved =>
    intro j hj
    by_cases h : j = i
    · subst h
      rw [phaseOf_after_self] at hj
      exact hsaved hj
    · rw [phaseOf_after_ne h] at hj
      exact hI.saved j hj
  case refused =>
    intro j hj
    by_cases h : j = i
    · subst h
      rw [phaseOf_after_self] at hj
      exact hrefused hj
    · rw [phaseOf_after_ne h] at hj
      obtain ⟨l, hl, hpayload, hllive⟩ := hI.refused j hj
      refine ⟨l, (restsOn_cons_ne h _).trans hl, hpayload, ?_⟩
      by_cases hli : l = i
      · subst hli
        rw [phaseOf_after_self]
        exact hlive j hl hllive
      · rw [phaseOf_after_ne hli]
        exact hllive
  case unreleased => exact hunreleased
  case held => exact hheld
  case claimed =>
    intro j hj
    by_cases h : j = i
    · subst h
      rw [phaseOf_after_self] at hj
      exact hclaimed hj
    · rw [phaseOf_after_ne h] at hj
      obtain ⟨id, hid⟩ := hI.claimed j hj
      exact ⟨id, List.mem_cons_of_mem _ hid⟩

/-- The event says nothing about claims. -/
def Unmoved (e : IngestEvent ι) : Prop :=
  ∀ tr : List (IngestEvent ι), (∀ id, holder id (e :: tr) = holder id tr) ∧
    (∀ i, restsOn i (e :: tr) = restsOn i tr) ∧ (∀ i, gaveUp i (e :: tr) = gaveUp i tr) ∧
    ∀ i, ReleasedUnder i (e :: tr) = ReleasedUnder i tr

/-- A call that is not about claims at most gets its own payload stored. -/
theorem standing_unmoved (hI : Standing p calls pool) (hs : p.answer c op pool.shared = some (r, s))
    (hmove : Unmoved ⟨i, op, r⟩)
    (hphase : (phaseOf pool i).next op r = phaseOf pool i ∨
      (phaseOf pool i).next op r = .stored ∧ p.Stored s (calls i)) :
    Standing p calls (pool.after i op r k s) := by
  obtain ⟨hholder, hrests, hgave, hreleased⟩ := hmove pool.trace
  have hlive : ∀ j, (phaseOf pool j).Live → (phaseOf (pool.after i op r k s) j).Live := by
    intro j hj
    by_cases h : j = i
    · subst h
      rw [phaseOf_after_self]
      rcases hphase with hsame | ⟨hstored, -⟩
      · rw [hsame]
        exact hj
      · exact .inr hstored
    · rw [phaseOf_after_ne h]
      exact hj
  apply standing_after hI hs
  case hstored =>
    intro h
    rcases hphase with hsame | ⟨-, hstored⟩
    · exact stored_mono (hI.stored i (hsame ▸ h)) (answer_keeps hs)
    · exact hstored
  case hsaved =>
    intro h
    rcases hphase with hsame | ⟨hstored, -⟩
    · exact hI.saved i (hsame ▸ h)
    · rw [hstored] at h
      cases h
  case hrefused =>
    intro h
    rcases hphase with hsame | ⟨hstored, -⟩
    · obtain ⟨j, hj, hpayload, hjlive⟩ := hI.refused i (hsame ▸ h)
      exact ⟨j, (hrests i).trans hj, hpayload, hlive j hjlive⟩
    · rw [hstored] at h
      cases h
  case hlive =>
    intro j _ hi
    have hafter := hlive i hi
    rwa [phaseOf_after_self] at hafter
  case hunreleased =>
    intro j
    rw [hreleased]
    exact hI.unreleased j
  case hheld =>
    intro id j hj
    rw [hholder] at hj
    rw [hgave]
    exact (hI.held id j hj).imp_left (hlive j)
  case hclaimed =>
    intro h
    rcases hphase with hsame | ⟨hstored, -⟩
    · obtain ⟨id, hid⟩ := hI.claimed i (hsame ▸ h)
      exact ⟨id, List.mem_cons_of_mem _ hid⟩
    · rw [hstored] at h
      cases h

theorem unmoved_of_quiet (h : op.quiet = true) : Unmoved (⟨i, op, r⟩ : IngestEvent ι) := by
  intro tr
  cases op <;> first | exact ⟨fun _ => rfl, fun _ => rfl, fun _ => rfl, fun _ => rfl⟩ | cases h

/-- The publish: on `events.raw` it is the request's own payload. -/
theorem standing_publish {message : BusMessage} {r : IngestOp.Res (.publish message)}
    {k : IngestOp.Res (.publish message) → Prog IngestOp IngestOp.Res (CoreResult IngestOutcome)}
    (hI : Standing p calls pool) (hs : p.answer c (.publish message) pool.shared = some (r, s))
    (hallow : message.topic = .eventsRaw → p.Carries (calls i) message) :
    Standing p calls (pool.after i (.publish message) r k s) := by
  apply standing_unmoved hI hs
  · intro tr
    exact ⟨fun _ => rfl, fun _ => rfl, fun _ => rfl, fun _ => rfl⟩
  · cases r with
    | error e => exact .inl rfl
    | ok u =>
      by_cases htopic : message.topic = .eventsRaw
      · refine .inr ⟨?_, .inl ⟨message, ?_, htopic, hallow htopic⟩⟩
        · simp [IngestPhase.next, htopic]
        · obtain ⟨-, hperform⟩ := answer_ok hs
          rw [(Prod.mk.inj hperform).2]
          exact List.mem_cons_self
      · exact .inl (by simp [IngestPhase.next, htopic])

/-- The dead letter, if its port does not fail. -/
theorem standing_putDlq {tenantId reason : String} {bytes : List UInt8}
    {r : IngestOp.Res (.putDlq tenantId reason bytes)}
    {k : IngestOp.Res (.putDlq tenantId reason bytes) →
      Prog IngestOp IngestOp.Res (CoreResult IngestOutcome)}
    (hI : Standing p calls pool)
    (hs : p.answer c (.putDlq tenantId reason bytes) pool.shared = some (r, s))
    (hallow : tenantId = (calls i).tenantId ∧ bytes = (calls i).body) (hfault : c.fault = none) :
    Standing p calls (pool.after i (.putDlq tenantId reason bytes) r k s) := by
  obtain ⟨-, hperform⟩ | ⟨e, -, hfault', -⟩ := answer_cases hs
  · apply standing_unmoved hI hs
    · intro tr
      cases r <;> exact ⟨fun _ => rfl, fun _ => rfl, fun _ => rfl, fun _ => rfl⟩
    · obtain ⟨rfl, rfl⟩ := Prod.mk.inj hperform
      obtain ⟨rfl, rfl⟩ := hallow
      exact .inr ⟨rfl, .inr ⟨reason, List.mem_cons_self⟩⟩
  · rw [hfault] at hfault'
    cases hfault'

/-- The claim: the call holds the id from now on. -/
theorem standing_claim {id : String}
    {k : IngestOp.Res (.tryClaim id) → Prog IngestOp IngestOp.Res (CoreResult IngestOutcome)}
    (hI : Standing p calls pool) (hs : p.answer c (.tryClaim id) pool.shared = some (.ok true, s))
    (hallow : phaseOf pool i = .unclaimed) :
    Standing p calls (pool.after i (.tryClaim id) (.ok true) k s) := by
  apply standing_after hI hs
  case hstored => exact nofun
  case hsaved => exact nofun
  case hrefused => exact nofun
  case hlive =>
    intro _ _ _
    exact .inl rfl
  case hunreleased => exact hI.unreleased
  case hheld =>
    intro id' j hj
    by_cases h : j = i
    · subst h
      rw [phaseOf_after_self]
      exact .inl (.inl rfl)
    · rw [phaseOf_after_ne h]
      apply hI.held id' j
      simp only [holder] at hj
      split_ifs at hj with hid
      · exact absurd (Option.some.inj hj).symm h
      · exact hj
  case hclaimed =>
    intro _
    exact ⟨id, List.mem_cons_self⟩

/-- The refusal: it rests on a live call. -/
theorem standing_refusal {id : String}
    {k : IngestOp.Res (.tryClaim id) → Prog IngestOp IngestOp.Res (CoreResult IngestOutcome)}
    (hI : Standing p calls pool) (hs : p.answer c (.tryClaim id) pool.shared = some (.ok false, s))
    (hallow : phaseOf pool i = .unclaimed) (hC : IngestPool.SoundCall calls pool i c (.tryClaim id)) :
    Standing p calls (pool.after i (.tryClaim id) (.ok false) k s) := by
  obtain ⟨hfault, hperform⟩ := answer_ok hs
  obtain ⟨j, hj, hpayload, hgave⟩ :=
    hC (hfault rfl) (Except.ok.inj (Prod.mk.inj hperform).1).symm
  have hnotLive : ¬ (phaseOf pool i).Live := by
    rw [hallow]
    rintro (h | h) <;> cases h
  have hjlive : (phaseOf pool j).Live := (hI.held id j hj).resolve_right (by simp [hgave])
  -- a live call is not the refused one, and stays as it is
  have hlive : ∀ l, (phaseOf pool l).Live →
      (phaseOf (pool.after i (.tryClaim id) (.ok false) k s) l).Live := by
    intro l hl
    have hne : l ≠ i := by
      intro heq
      exact hnotLive (heq ▸ hl)
    rw [phaseOf_after_ne hne]
    exact hl
  apply standing_after hI hs
  case hstored => exact nofun
  case hsaved => exact nofun
  case hrefused =>
    intro _
    refine ⟨j, ?_, hpayload, hlive j hjlive⟩
    simpa [restsOn] using hj
  case hlive =>
    intro _ _ hi
    exact absurd hi hnotLive
  case hunreleased => exact hI.unreleased
  case hheld =>
    intro id' l hl
    exact (hI.held id' l hl).imp_left (hlive l)
  case hclaimed => exact nofun

/-- The release: nobody rests on the claim, whosever it is. -/
theorem standing_release {id : String} {r : IngestOp.Res (.release id)}
    {k : IngestOp.Res (.release id) → Prog IngestOp IngestOp.Res (CoreResult IngestOutcome)}
    (hI : Standing p calls pool) (hs : p.answer c (.release id) pool.shared = some (r, s))
    (hC : IngestPool.SoundCall calls pool i c (.release id)) :
    Standing p calls (pool.after i (.release id) r k s) := by
  apply standing_after hI hs
  case hstored => exact nofun
  case hsaved => exact nofun
  case hrefused => exact nofun
  case hlive =>
    intro j hj _
    exact absurd rfl (hC j i hj).1
  case hunreleased =>
    intro j
    rintro (⟨l, hl, hli | hlheld⟩ | hold)
    · exact (hC j l hl).1 hli
    · exact (hC j l hl).2 hlheld
    · exact hI.unreleased j hold
  case hheld =>
    intro id' j hj
    have hold : holder id' pool.trace = some j := by
      cases r with
      | error e => exact hj
      | ok u =>
        simp only [holder] at hj
        split_ifs at hj
        exact hj
    by_cases h : j = i
    · exact .inr (by simp [gaveUp, h])
    · rw [phaseOf_after_ne h]
      refine (hI.held id' j hold).imp_right ?_
      intro hgave
      simp [gaveUp, hgave]
  case hclaimed => exact nofun

/-- Every call of a sound step keeps the standing. -/
theorem standing_step (hI : Standing p calls pool) (hs : p.answer c op pool.shared = some (r, s))
    (hallow : (ingestMonitor p).allows (calls i, phaseOf pool i) op)
    (hC : IngestPool.SoundCall calls pool i c op) : Standing p calls (pool.after i op r k s) := by
  cases op with
  | tryClaim id =>
    rcases r with e | (_ | _)
    · apply standing_unmoved hI hs
      · intro tr
        exact ⟨fun _ => rfl, fun _ => rfl, fun _ => rfl, fun _ => rfl⟩
      · exact .inl rfl
    · exact standing_refusal hI hs hallow hC
    · exact standing_claim hI hs hallow
  | release id => exact standing_release hI hs hC
  | putDlq tenantId reason bytes => exact standing_putDlq hI hs hallow hC
  | publish message => exact standing_publish hI hs hallow
  | _ => exact standing_unmoved hI hs (unmoved_of_quiet rfl) (.inl (next_quiet rfl _))

/-! ### Claims and their holders -/

/-- A claim in the store is the claim of a call. -/
def Owned (pool : IngestPool ι) : Prop :=
  ∀ id t, pool.shared.dedup.entries.get id = some t → ∃ j, holder id pool.trace = some j

/-- A call that fails, fails before it claims anything. -/
theorem owned_after (hI : Owned pool) (hs : p.answer c op pool.shared = some (r, s))
    (hlate : c.late = false) : Owned (pool.after i op r k s) := by
  intro id t ht
  rw [Pool.after_shared] at ht
  rw [Pool.after_trace]
  obtain ⟨-, hperform⟩ | ⟨e, -, -, rfl, rfl⟩ := answer_cases hs
  · obtain ⟨hr, rfl⟩ := Prod.mk.inj hperform
    cases op with
    | tryClaim eventId =>
      replace hr : r = .ok (pool.shared.dedup.tryClaim c.gcNow c.claimNow eventId).1 := hr
      rcases InMemoryDedup.held_tryClaim ht with ⟨rfl, htrue⟩ | hbefore
      · rw [hr, htrue]
        exact ⟨i, by simp [holder]⟩
      · obtain ⟨j, hj⟩ := hI id t hbefore
        generalize (pool.shared.dedup.tryClaim c.gcNow c.claimNow eventId).1 = first at hr
        subst hr
        cases first with
        | false => exact ⟨j, hj⟩
        | true =>
          simp only [holder]
          split_ifs
          · exact ⟨i, rfl⟩
          · exact ⟨j, hj⟩
    | release eventId =>
      replace ht : (pool.shared.dedup.entries.del eventId).get id = some t := ht
      rw [KMap.get_del] at ht
      split_ifs at ht with hid
      obtain ⟨j, hj⟩ := hI id t ht
      replace hr : r = .ok () := hr
      subst hr
      exact ⟨j, by simp [holder, Ne.symm hid, hj]⟩
    | _ => exact hI id t ht
  · simp only [hlate, Bool.false_eq_true, if_false] at ht
    obtain ⟨j, hj⟩ := hI id t ht
    refine ⟨j, ?_⟩
    cases op <;> exact hj

/-- Where no port fails late, every claim in the store has a holder, so that what a refusal rests on is
never unknown. -/
theorem owned_throughout (start : IngestShared) (hstart : start.dedup.entries = ∅)
    {sched : List (ι × IngestChoice)} (hlate : ∀ x ∈ sched, x.2.late = false) :
    Throughout (Pool.step p.answer) Owned (IngestPool.start p calls start) sched := by
  have hC : EachStep (Pool.step p.answer) (fun _ x => x.2.late = false)
      (IngestPool.start p calls start) sched := EachStep.of_mem (fun _ x hx => hlate x hx) _
  apply throughout_of_eachStep _ hC
  · intro id t ht
    replace ht : start.dedup.entries.get id = some t := ht
    rw [hstart] at ht
    simp at ht
  · intro pool x hx hI
    rcases pool.step_cases p.answer x with heq | ⟨op, k, r, s, -, hs, heq⟩
    · rw [heq]
      exact hI
    · rw [heq]
      exact owned_after hI hs hx

/-- Every call is in the phase that the monitor says, and stands. -/
def Follows (p : IngestPipeline) (calls : ι → IngestRequest) (pool : IngestPool ι) : Prop :=
  pool.Tracks (ingestMonitor p) (fun i r q => q.1 = calls i ∧ q.2.Settles r)
      (fun i => (calls i, .unclaimed)) ∧
    Standing p calls pool

theorem follows_start (s : IngestShared) : Follows p calls (IngestPool.start p calls s) := by
  refine ⟨fun i => ingest_moves, ?_⟩
  constructor
  case refused => exact nofun
  case unreleased => exact fun _ h => h
  all_goals exact nofun

theorem follows_step {x : ι × IngestChoice} (hC : IngestPool.Sound calls pool x)
    (h : Follows p calls pool) : Follows p calls (pool.step p.answer x) := by
  apply Pool.step_keeps (P := fun _ => True) (C := IngestPool.Sound calls) _ _ h.1 h.2 trivial hC
  · intro pool c op r s _ _ hs
    exact answer_replies hs
  · intro pool i c op k r s _ hI _ hC hk hs _ hallow _
    rw [watch_ingestMonitor] at hallow
    simp only [IngestPool.Sound, hk] at hC
    exact standing_step hI hs hallow hC

/-- Calls that stand lose nothing. -/
theorem zeroLoss_of_follows (h : Follows p calls pool) : pool.ZeroLoss p calls := by
  obtain ⟨htracks, hI⟩ := h
  have hsettles : ∀ i r, pool.threads i = .pure r → (phaseOf pool i).Settles r := by
    intro i r hr
    have hpost := (htracks.post_of_returned hr).2
    rwa [watch_ingestMonitor] at hpost
  constructor
  case kept =>
    intro i outcome hi
    have hphase := hsettles i _ hi
    by_cases hdup : outcome.status = .duplicate
    · -- who refused it is stored, or still runs: it could only have ended by giving up its claim
      simp only [IngestPhase.Settles, hdup, if_true] at hphase
      obtain ⟨j, -, hpayload, hlive⟩ := hI.refused i hphase
      rcases hlive with hclaimed | hstored
      · refine .inr ⟨j, hpayload, ?_, hI.claimed j hclaimed⟩
        cases hthread : pool.threads j with
        | call op k => exact ⟨op, k, rfl⟩
        | pure r =>
          have hr := hsettles j r hthread
          rw [hclaimed] at hr
          cases r with
          | ok outcome =>
            simp only [IngestPhase.Settles] at hr
            split_ifs at hr
            simp at hr
          | error e => rcases hr.2 with h | h <;> cases h
      · obtain ⟨htenant, hprovider, hbody⟩ := hpayload
        have hj := hI.stored j hstored
        simp only [IngestPipeline.Stored, IngestPipeline.Carries, htenant, hprovider, hbody] at hj
        exact .inl hj
    · simp only [IngestPhase.Settles, hdup, if_false] at hphase
      exact .inl (hI.stored i (hphase.resolve_right (hI.saved i)))
  case rests =>
    intro i outcome hi hdup
    have hphase := hsettles i _ hi
    simp only [IngestPhase.Settles, hdup, if_true] at hphase
    obtain ⟨j, hj, hpayload, -⟩ := hI.refused i hphase
    exact ⟨j, hj, hpayload.1, hI.unreleased i⟩

end Runs

/-- **Zero loss.** In every run whose steps are sound, whatever the ports fail at and however the calls
interleave: what a call answered for is stored or with a running call that claimed it, and no refusal
rests on another tenant's delivery or on a claim that is released. -/
theorem ingest_zeroLoss {ι : Type} [DecidableEq ι] (p : IngestPipeline) (calls : ι → IngestRequest)
    (s : IngestShared) (sched : List (ι × IngestChoice))
    (h : EachStep (Pool.step p.answer) (IngestPool.Sound calls) (IngestPool.start p calls s) sched) :
    Throughout (Pool.step p.answer) (fun pool => IngestPool.ZeroLoss p calls pool)
      (IngestPool.start p calls s) sched := by
  have hrun : Throughout (Pool.step p.answer) (Follows p calls) (IngestPool.start p calls s) sched := by
    apply throughout_of_eachStep _ h (follows_start s)
    intro pool x hC hpool
    exact follows_step hC hpool
  exact hrun.mono fun pool hpool => zeroLoss_of_follows hpool

/-! ### A delivery id of two tenants -/

section Demo

/-- Deliveries are taken as signed, and no body is JSON. -/
def lenient : IngestPipeline where
  authSkip := true
  verifyWebhook _ _ _ _ _ := .ok ()
  fromSlice _ := .error "expected value"
  normalizeOther _ _ _ := .error (.normalization "unknown")
  inlineStore := false

def delivery (tenantId : String) : IngestRequest where
  tenantId := tenantId
  provider := .github
  body := [120]
  headers := { deliveryId := some "d" }

def twoTenants : IngestShared where
  tenants := (Table.put ∅ { tenantId := "a" }).put { tenantId := "b" }
  dedup := .new 60
  acl := .new
  objects := []
  published := []

/-- No port fails, and no time passes. -/
def calm : IngestChoice := {}

/-- One call to its end, then the other, without a failure. -/
def oneThenOther : List (Bool × IngestChoice) :=
  List.replicate 6 (false, calm) ++ List.replicate 4 (true, calm)

/-- The first is refused only after the other claimed, and returns before it. -/
def redelivered : List (Bool × IngestChoice) :=
  List.replicate 3 (false, calm) ++ List.replicate 4 (true, calm) ++ List.replicate 3 (false, calm)

/-- The second call answers while the first still runs, and the first stores the payload of both. -/
theorem redelivery_is_kept :
    Throughout (Pool.step lenient.answer)
      (fun pool => IngestPool.ZeroLoss lenient (fun _ : Bool => delivery "a") pool)
      (IngestPool.start lenient (fun _ => delivery "a") twoTenants) redelivered :=
  ingest_zeroLoss lenient (fun _ => delivery "a") twoTenants redelivered (by decide +kernel)

/-- Tenant `b` is told that its delivery is a duplicate; only the payload of `a` was stored. -/
theorem stranger_is_lost :
    ¬ Throughout (Pool.step lenient.answer)
      (fun pool => IngestPool.ZeroLoss lenient (fun b => delivery (if b then "b" else "a")) pool)
      (IngestPool.start lenient (fun b => delivery (if b then "b" else "a")) twoTenants)
      oneThenOther := by
  intro h
  have hobjects : (runFrom (Pool.step lenient.answer)
      (IngestPool.start lenient (fun b => delivery (if b then "b" else "a")) twoTenants)
      oneThenOther).shared.objects =
      [.dlq "a" "normalize_error" [120], .rawPayload "a" "github" "d" [120]] := by decide +kernel
  rcases h.last.kept true ⟨"d", .duplicate, 0⟩ rfl with
    (⟨message, hmem, -⟩ | ⟨reason, hmem⟩) | ⟨j, -, ⟨op, k, hrunning⟩, -⟩
  · cases hmem
  · rw [hobjects] at hmem
    simp [delivery] at hmem
  · -- both calls have returned
    cases j <;> cases hrunning

end Demo

end AiManager.Telemetry
