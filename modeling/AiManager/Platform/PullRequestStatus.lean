import AiManager.Graph.MapEvent
import AiManager.Graph.ProjectAll
import AiManager.Graph.StoreCrdb
import AiManager.Graph.StoreLocks
import AiManager.Platform.Wire
import AiManager.Telemetry.Github

/-! # The status of a pull request, from the webhook to the graph

The ingestion writes the action of a webhook into the type of its event, and beside it what the payload
says of the pull request. The graph reads the type alone: it finds the status in the words of the action.
What the payload says reaches the graph when the action happens to say it too (`pullRequest_status`). The
production store lets a later status overwrite an earlier one; the call on the embedded store is blocked
there (`StoreLocks`), and what it has stored by then is what it was. -/

namespace AiManager.Platform

open Lib Telemetry AiManager.Graph

/-- The lifecycle value that the graph projects for an event of the ingestion. -/
def projectedLifecycle (isAlphanumeric : Char → Bool) (event : CanonicalEventRecord) : Option String :=
  ((mapEvent isAlphanumeric (wireEvent event)).states.find? fun s =>
    s.stateKey = "lifecycle").map EntityState.stateValue

/-- The production store after these events. -/
def projectEvents (isAlphanumeric : Char → Bool) (column : DateTime → DateTime) (db : CrdbGraphStore)
    (events : List CanonicalEventRecord) : CrdbGraphStore :=
  events.foldl (fun db e => db.applyMutation column (mapEvent isAlphanumeric (wireEvent e))) db

/-- The stored lifecycle value of an entity. -/
def lifecycleIn (states : Table EntityState.key) (tenantId nodeId : String) : Option String :=
  (states.get (tenantId, nodeId, "lifecycle")).map EntityState.stateValue

def isMerged (pr : Json) : Bool := ((pr.get "merged").bind Json.asBool).getD false

def isState (state : String) (pr : Json) : Bool := pr.getStr "state" = some state

/-- A lifecycle value says what the payload says. -/
structure StatusSurvives (pr : Json) (lifecycle : Option String) : Prop where
  merged : isMerged pr → lifecycle = some "MERGED"
  closed : isState "closed" pr → ¬ isMerged pr → lifecycle = some "CLOSED"
  opened : lifecycle = some "OPEN" → isState "open" pr

/-- An event about a closed pull request opens nothing, neither in the production store nor in the embedded one,
whatever its call leaves there. -/
structure NeverReopens (isAlphanumeric : Char → Bool) (pr : Json) (event : CanonicalEventRecord) : Prop where
  production : isState "closed" pr → ∀ (column : DateTime → DateTime) (db : CrdbGraphStore)
    (tenantId nodeId : String), lifecycleIn db.states tenantId nodeId ≠ some "OPEN" →
      lifecycleIn (projectEvents isAlphanumeric column db [event]).states tenantId nodeId ≠ some "OPEN"
  embedded : isState "closed" pr → ∀ (sh : StoreShards) (io : PersistIo) (graph graph' : InMemoryGraphStore)
    (tenantId nodeId : String), Applies sh io graph (mapEvent isAlphanumeric (wireEvent event)) graph' →
      lifecycleIn graph.states tenantId nodeId ≠ some "OPEN" →
        lifecycleIn graph'.states tenantId nodeId ≠ some "OPEN"

/-- The action says of the pull request what its payload says. -/
structure ActionTells (action : String) (pr : Json) : Prop where
  merged : isMerged pr → Text.contains action "merged"
  closed : isState "closed" pr → ¬ isMerged pr →
    Text.contains action "closed" ∧ ¬ Text.contains action "merged"
  opened : ¬ Text.contains action "merged" → ¬ Text.contains action "closed" → isState "open" pr

/-- What the action says. -/
def toldStatus (action : String) : String :=
  if Text.contains action "merged" then "MERGED"
  else if Text.contains action "closed" then "CLOSED" else "OPEN"

section Lifecycle
variable {isAlphanumeric : Char → Bool} {event : CanonicalEventRecord} {action : String}

/-- The prefix of the type has no say. -/
theorem contains_typeOf {part : String} (hdot : '.' ∉ part.toList)
    (hkind : Text.isInfix part.toList "pull_request".toList = false)
    (hother : Text.contains "updated" part = false) (hempty : Text.contains "" part = false) :
    Text.contains (typeOf "pull_request." action "updated") part = Text.contains action part := by
  have hsplit : "pull_request.".toList = "pull_request".toList ++ ['.'] := by decide
  unfold typeOf
  rw [Text.contains_append hsplit hdot, hkind, Bool.false_or]
  split_ifs with haction
  · rw [haction, hother, hempty]
  · rfl

theorem lifecycleOf_typeOf :
    lifecycleOf (typeOf "pull_request." action "updated") = toldStatus action := by
  unfold lifecycleOf toldStatus
  rw [contains_typeOf (by decide) (by decide) (by decide) (by decide),
    contains_typeOf (by decide) (by decide) (by decide) (by decide), ite_self]

variable (isAlphanumeric) in
theorem projectedStates (h : event.eventType = typeOf "pull_request." action "updated") :
    ∃ nodeId, (mapEvent isAlphanumeric (wireEvent event)).states =
      [eventState (wireEvent event) nodeId "lifecycle" (toldStatus action)] := by
  have htype : (wireEvent event).eventType = typeOf "pull_request." action "updated" := h
  have hdispatch : isPullRequestEvent (wireEvent event).eventType = true := by
    rw [htype]
    simp [isPullRequestEvent, typeOf]
  rw [mapEvent_states_of_pullRequest hdispatch, htype, lifecycleOf_typeOf]
  exact ⟨_, rfl⟩

theorem projectedLifecycle_eq (h : event.eventType = typeOf "pull_request." action "updated") :
    projectedLifecycle isAlphanumeric event = some (toldStatus action) := by
  obtain ⟨nodeId, hstates⟩ := projectedStates isAlphanumeric h
  unfold projectedLifecycle
  rw [hstates]
  rfl

/-- A value that says what the payload says does not open a closed pull request. -/
theorem StatusSurvives.not_open {pr : Json} {lifecycle : Option String}
    (h : StatusSurvives pr lifecycle) (hclosed : isState "closed" pr) : lifecycle ≠ some "OPEN" := by
  intro hopen
  have hstates : pr.getStr "state" = some "closed" ∧ pr.getStr "state" = some "open" :=
    ⟨of_decide_eq_true hclosed, of_decide_eq_true (h.opened hopen)⟩
  rw [hstates.1] at hstates
  exact absurd hstates.2 (by decide)

theorem StatusSurvives.neverReopens {pr : Json}
    (htype : event.eventType = typeOf "pull_request." action "updated")
    (h : StatusSurvives pr (some (toldStatus action))) : NeverReopens isAlphanumeric pr event := by
  obtain ⟨node, hstates⟩ := projectedStates isAlphanumeric htype
  refine ⟨?_, ?_⟩
  · intro hclosed column db tenantId nodeId hbefore
    show lifecycleIn (db.applyMutation column (mapEvent isAlphanumeric (wireEvent event))).states _ _ ≠ _
    unfold lifecycleIn at hbefore ⊢
    rcases db.applyMutation_states_or column (mapEvent isAlphanumeric (wireEvent event))
      (tenantId, nodeId, "lifecycle") with hkept | ⟨s, hs, hwritten⟩
    · rw [hkept]
      exact hbefore
    · rw [hstates] at hs
      obtain rfl := List.mem_singleton.mp hs
      rw [hwritten]
      exact h.not_open hclosed
  · intro hclosed sh io graph graph' tenantId nodeId hcall hbefore
    obtain ⟨n, d, rfl⟩ := hcall.exists_upTo
    unfold lifecycleIn at hbefore ⊢
    rcases graph.applyMutation_states_or ((mapEvent isAlphanumeric (wireEvent event)).upTo n)
      (tenantId, nodeId, "lifecycle") with hkept | ⟨s, hs, hwritten⟩
    · dsimp only
      rw [hkept]
      exact hbefore
    · have hmem : s ∈ (mapEvent isAlphanumeric (wireEvent event)).states := List.mem_of_mem_take hs
      rw [hstates] at hmem
      obtain rfl := List.mem_singleton.mp hmem
      dsimp only
      rw [hwritten]
      exact h.not_open hclosed

/-- Nor does a run of such events. -/
theorem neverReopens_run (column : DateTime → DateTime) (tenantId nodeId : String)
    {events : List CanonicalEventRecord}
    (h : ∀ e ∈ events, ∃ pr, isState "closed" pr ∧ NeverReopens isAlphanumeric pr e) :
    ∀ db, lifecycleIn db.states tenantId nodeId ≠ some "OPEN" →
      lifecycleIn (projectEvents isAlphanumeric column db events).states tenantId nodeId ≠ some "OPEN" := by
  induction events with
  | nil => exact fun _ hbefore => hbefore
  | cons e events ih =>
    intro db hbefore
    obtain ⟨pr, hclosed, hnever⟩ := h e List.mem_cons_self
    refine ih (fun e he => h e (List.mem_cons_of_mem _ he)) _ ?_
    exact hnever.production hclosed column db tenantId nodeId hbefore

/-- An event that opens what an event before it had closed. -/
theorem not_neverReopens {pr : Json} {column : DateTime → DateTime} {db : CrdbGraphStore} {tenantId nodeId : String}
    {before : CanonicalEventRecord} (hclosed : isState "closed" pr)
    (hbefore : lifecycleIn (projectEvents isAlphanumeric column db [before]).states tenantId nodeId = some "CLOSED")
    (hafter : lifecycleIn (projectEvents isAlphanumeric column db [before, event]).states tenantId nodeId =
      some "OPEN") : ¬ NeverReopens isAlphanumeric pr event := by
  intro h
  refine h.production hclosed column (projectEvents isAlphanumeric column db [before]) tenantId nodeId ?_ hafter
  rw [hbefore]
  decide

theorem statusSurvives_iff {pr : Json} :
    StatusSurvives pr (some (toldStatus action)) ↔ ActionTells action pr := by
  unfold toldStatus
  by_cases hmerged : Text.contains action "merged"
  · rw [if_pos hmerged]
    refine ⟨fun h => ⟨fun _ => hmerged, fun hc hm => ?_, fun hno => absurd hmerged hno⟩,
      fun h => ⟨fun _ => rfl, fun hc hm => ?_, fun hopen => ?_⟩⟩
    · exact absurd (h.closed hc hm) (by decide)
    · exact absurd hmerged (h.closed hc hm).2
    · exact absurd hopen (by decide)
  · rw [if_neg hmerged]
    by_cases hclosed : Text.contains action "closed"
    · rw [if_pos hclosed]
      refine ⟨fun h => ⟨fun hm => ?_, fun _ _ => ⟨hclosed, hmerged⟩, fun _ hno => absurd hclosed hno⟩,
        fun h => ⟨fun hm => absurd (h.merged hm) hmerged, fun _ _ => rfl, fun hopen => ?_⟩⟩
      · exact absurd (h.merged hm) (by decide)
      · exact absurd hopen (by decide)
    · rw [if_neg hclosed]
      refine ⟨fun h => ⟨fun hm => ?_, fun hc hm => ?_, fun _ _ => h.opened rfl⟩,
        fun h => ⟨fun hm => absurd (h.merged hm) hmerged, fun hc hm => ?_,
          fun _ => h.opened hmerged hclosed⟩⟩
      · exact absurd (h.merged hm) (by decide)
      · exact absurd (h.closed hc hm) (by decide)
      · exact absurd (h.closed hc hm).1 hclosed

end Lifecycle

section Webhook
variable {isAlphanumeric : Char → Bool} {chrono : Chrono} {v pr : Json} {ctx : NormalizeContext}
  {fresh : Fresh}

variable (isAlphanumeric chrono fresh) in
/-- **The status of a pull request.** -/
theorem pullRequest_status (hname : ctx.eventName = some "pull_request")
    (hpr : v.get "pull_request" = some pr) :
    ∃ event, normalizeGithub chrono v ctx fresh = .ok event ∧
      (StatusSurvives pr (projectedLifecycle isAlphanumeric event) ∧
          NeverReopens isAlphanumeric pr event ↔
        ActionTells ((v.getStr "action").getD "") pr) := by
  obtain ⟨event, hevent, htype⟩ := normalizeGithub_pullRequest chrono fresh (by rw [hname]; rfl) hpr
  refine ⟨event, hevent, ?_⟩
  rw [projectedLifecycle_eq htype, statusSurvives_iff, and_iff_left_iff_imp]
  exact fun htells => (statusSurvives_iff.mpr htells).neverReopens htype

end Webhook

/-! ## Webhooks of one pull request -/

section Samples

/-- Times as they are written, with no calendar. -/
def sampleChrono : Chrono where
  parseFromRfc3339 := fun _ => none
  timestampOpt := fun secs => some (secs * 1000000000)
  timestampMillisOpt := fun ms => some (ms * 1000000)
  truncate := fun mantissa scale => mantissa.tdiv (10 ^ scale)

def sampleFresh : Fresh where
  eventId := "e"
  now := 0
  ingestedAt := 0

def sampleContext (deliveryId : String) : NormalizeContext where
  tenantId := "t"
  provider := .github
  deliveryId := some deliveryId
  eventName := some "pull_request"
  rawPayloadS3Uri := ""
  defaultGroupIds := []
  actorGlobalUserId := "u"
  aclVersion := 1
  allowedGroupIds := []
  isPrivate := false

def samplePullRequest (merged : Bool) (updatedAt : Int) : Json :=
  .obj [("number", .num 1 0), ("state", .str "closed"), ("merged", .bool merged),
    ("updated_at", .num updatedAt 0)]

def samplePayload (action : String) (pr : Json) : Json :=
  .obj [("action", .str action), ("pull_request", pr),
    ("repository", .obj [("full_name", .str "acme/app")])]

/-- A pull request that is closed and not merged. -/
theorem pullRequest_status_closed :
    ∃ event, normalizeGithub sampleChrono (samplePayload "closed" (samplePullRequest false 1))
        (sampleContext "d") sampleFresh = .ok event ∧
      StatusSurvives (samplePullRequest false 1) (projectedLifecycle Char.isAlphanum event) := by
  obtain ⟨event, hevent, hiff⟩ := pullRequest_status Char.isAlphanum sampleChrono sampleFresh
    (rfl : (sampleContext "d").eventName = some "pull_request")
    (rfl : (samplePayload "closed" (samplePullRequest false 1)).get "pull_request" = _)
  refine ⟨event, hevent, (hiff.mpr ⟨?_, ?_, ?_⟩).1⟩
  · decide
  · exact fun _ _ => ⟨by decide, by decide⟩
  · exact fun _ hno => absurd (by decide) hno

/-- The webhook of a merge leaves the pull request merely closed, and a label opens a closed one again in the
production store. The call on the embedded store never returns. -/
theorem label_reopens :
    (∃ merge, normalizeGithub sampleChrono (samplePayload "closed" (samplePullRequest true 1))
        (sampleContext "d") sampleFresh = .ok merge ∧
      projectedLifecycle Char.isAlphanum merge = some "CLOSED" ∧
      ¬ StatusSurvives (samplePullRequest true 1) (projectedLifecycle Char.isAlphanum merge)) ∧
    ∃ close label,
      normalizeGithub sampleChrono (samplePayload "closed" (samplePullRequest false 1))
        (sampleContext "d") sampleFresh = .ok close ∧
      normalizeGithub sampleChrono (samplePayload "labeled" (samplePullRequest false 2))
        (sampleContext "d'") sampleFresh = .ok label ∧
      lifecycleIn (projectEvents Char.isAlphanum id .new [close]).states "t" "pr:acme/app/pr/1" =
        some "CLOSED" ∧
      lifecycleIn (projectEvents Char.isAlphanum id .new [close, label]).states "t" "pr:acme/app/pr/1" =
        some "OPEN" ∧
      ¬ NeverReopens Char.isAlphanum (samplePullRequest false 2) label ∧
      ∀ sh io, ¬ (StoreLocks.applyMutation sh io (mapEvent Char.isAlphanum (wireEvent label))).Completes
        (InMemoryGraphStore.new.applyMutation (mapEvent Char.isAlphanum (wireEvent close))) := by
  refine ⟨⟨_, rfl, by decide +kernel, ?_⟩, _, _, rfl, rfl, ?before, ?after,
    not_neverReopens (by decide) ?before ?after, ?_⟩
  · intro h
    exact absurd (h.merged rfl) (by decide +kernel)
  case before => decide +kernel
  case after => decide +kernel
  intro sh io
  rw [StoreLocks.applyMutation_completes_iff]
  intro hall
  have hlabel := hall [] _ [] rfl
  revert hlabel
  decide +kernel

end Samples

end AiManager.Platform
