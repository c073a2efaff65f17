import AiManager.Twins.Delivery
import AiManager.Twins.GraphView
import AiManager.Twins.LedgerText
import Mathlib.Data.List.Destutter

/-! # The ledger compiler

`compilePerson` reads the graph as a person, through every identity the person has had, and stores the
ledger of the period. Views that are filtered by access go in, a ledger snapshot and the text of a
draft come out.

A fetch that fails is skipped. The compiler cannot tell it from a person without activity
(`compilePerson_emptied`), so the ledger of the period is replaced all the same, and the next step of
the scheduler puts the poorer text into the open draft. Stored work is safe from a failed fetch
exactly when the compile is refused for some other reason (`failureSpares_iff`). -/

namespace AiManager.Twins

open Lib

/-- Compile options for a single run. -/
structure CompileOpts where
  /-- aligned wall-clock bucket, stable for a ledger id -/
  periodStart : DateTime
  periodEnd : DateTime
  /-- rolling activity lookback -/
  activityStart : DateTime
  activityEnd : DateTime
  hops : Nat

structure CompileOutcome where
  runId : String
  ledger : LedgerSnapshot
  draftText : String
  aclEmpty : Bool

/-- Graph data for a person, by tenant, user, person node and number of hops. -/
abbrev GraphSource : Type := String → String → String → Nat → TwinResult GraphView

/-! ## Fetching -/

def pushAlias (ids : List String) (a : Json) : List String :=
  match a.asStr with
  | some s =>
    let s := Text.trim s
    if Text.startsWith s "gu_" && !ids.contains s then ids ++ [s] else ids
  | none => ids

/-- Primary subject and `gu_` aliases, the identities before a restart. -/
def subjectIds (twin : Twin) : List String :=
  match (twin.configJson.get "provider_aliases").bind Json.asArray with
  | some arr => arr.foldl pushAlias [twin.subjectId]
  | none => [twin.subjectId]

def personNode (sid : String) : String := "person:" ++ sid

def fetchPersonView (source : GraphSource) (twin : Twin) (hops : Nat) (sid : String) :
    TwinResult GraphView :=
  source twin.tenantId sid (personNode sid) hops

/-- Add the view of one identity; an error is skipped. -/
def fetchInto (source : GraphSource) (twin : Twin) (hops : Nat) (view : GraphView)
    (sid : String) : GraphView :=
  match fetchPersonView source twin hops sid with
  | .ok part => mergeGraphView view part
  | .error _ => view

def fetchViews (source : GraphSource) (twin : Twin) (hops : Nat) : GraphView :=
  (subjectIds twin).foldl (fetchInto source twin hops) {}

/-! ## Items -/

/-- What a node looks like; it can look like more than one thing. -/
structure WorkShape where
  isPr : Bool
  isIssue : Bool
  isCommit : Bool
  isRepo : Bool

namespace WorkShape

def any (w : WorkShape) : Bool := w.isPr || w.isIssue || w.isCommit || w.isRepo

def kind (w : WorkShape) : String :=
  if w.isPr then "pr" else if w.isIssue then "issue" else if w.isCommit then "commit" else "repo"

end WorkShape

def workShape (node : GraphNodeView) : WorkShape where
  isPr := Text.eqIgnoreAsciiCase node.nodeType "PullRequest" || Text.startsWith node.nodeId "pr:"
    || Text.contains node.nodeId "/pr/"
  isIssue := Text.eqIgnoreAsciiCase node.nodeType "Issue"
    || Text.eqIgnoreAsciiCase node.nodeType "Ticket" || Text.startsWith node.nodeId "issue:"
    || Text.startsWith node.nodeId "ticket:"
  isCommit := Text.eqIgnoreAsciiCase node.nodeType "Commit"
    || Text.startsWith node.nodeId "commit:"
  isRepo := Text.eqIgnoreAsciiCase node.nodeType "Repo" || Text.startsWith node.nodeId "repo:"

/-- The edges between a person and a node. -/
structure Signals where
  authored : Option GraphEdgeView
  assigned : Option GraphEdgeView
  pushed : Option GraphEdgeView
  checked : Option GraphEdgeView
  linked : List GraphEdgeView

namespace Signals

/-- The named edges, in this order. -/
def named (s : Signals) : List GraphEdgeView :=
  [s.authored, s.assigned, s.pushed, s.checked].filterMap id

def isEmpty (s : Signals) : Bool := s.named.isEmpty && s.linked.isEmpty

end Signals

/-- An edge at the node with a person at either end. -/
def touches (persons : List String) (edgeType nodeId : String) (e : GraphEdgeView) : Bool :=
  Text.eqIgnoreAsciiCase e.edgeType edgeType && (e.toNodeId == nodeId || e.fromNodeId == nodeId)
    && (persons.contains e.fromNodeId || persons.contains e.toNodeId)

/-- An edge from a person to the node. -/
def reaches (persons : List String) (edgeType nodeId : String) (e : GraphEdgeView) : Bool :=
  Text.eqIgnoreAsciiCase e.edgeType edgeType && persons.contains e.fromNodeId
    && e.toNodeId == nodeId

def signals (persons : List String) (edges : List GraphEdgeView) (nodeId : String) : Signals where
  authored := edges.find? (touches persons "AUTHORED" nodeId)
  assigned := edges.find? (touches persons "ASSIGNED_TO" nodeId)
  pushed := edges.find? (reaches persons "PUSHED_TO" nodeId)
  checked := edges.find? (reaches persons "CHECKED" nodeId)
  linked := edges.filter fun e =>
    (persons.contains e.fromNodeId && e.toNodeId == nodeId)
      || (persons.contains e.toNodeId && e.fromNodeId == nodeId)

def nodeState (states : List EntityStateView) (nodeId : String) : Option EntityStateView :=
  (states.find? fun s => s.nodeId == nodeId && s.stateKey == "lifecycle").or
    (states.find? fun s => s.nodeId == nodeId && s.stateKey == "status")

def later (ts : Option DateTime) (t : DateTime) : Option DateTime :=
  some (match ts with | none => t | some cur => max cur t)

def newestEdge (edges : List GraphEdgeView) : Option DateTime :=
  (edges.filterMap GraphEdgeView.validFrom).foldl later none

/-- Newest person-linked edge time, or the time of the state. -/
def activityTs (s : Signals) (state : Option EntityStateView) : Option DateTime :=
  let ts := (newestEdge s.named).or (newestEdge s.linked)
  match state with
  | some st => later ts st.asOf
  | none => ts

/-- A timestamp outside the rolling lookback; no timestamp counts as inside. -/
def outsideLookback (opts : CompileOpts) : Option DateTime → Bool
  | some ts => decide (ts < opts.activityStart) || decide (ts > opts.activityEnd)
  | none => false

def nonempty (label value : String) : List String := if value = "" then [] else [label ++ value]

def edgeEvidence (e : GraphEdgeView) : List String :=
  ["edge:" ++ e.edgeId] ++ nonempty "event:" e.eventId
    ++ match e.validFrom with
      | some ts => ["at:" ++ ts.toRfc3339]
      | none => []

def evidence (nodeId : String) (s : Signals) (state : Option EntityStateView) : List String :=
  let found := s.named.flatMap edgeEvidence
    ++ match state with
      | some st => nonempty "event:" st.eventId
      | none => []
  (if found.isEmpty then ["node:" ++ nodeId] else found).eraseDups

def isFinished (lifecycle : String) : Bool := ["MERGED", "CLOSED", "DONE"].contains lifecycle

def nodeTitle (node : GraphNodeView) : String :=
  (((node.properties.get "title").or (node.properties.get "message")).bind Json.asStr).getD
    node.displayName

def summaryOf (w : WorkShape) (node : GraphNodeView) (s : Signals) (lifecycle : String) : String :=
  let title := nodeTitle node
  let named := if title = "" then node.resourceId else title
  if w.isCommit then
    if title = "" then "Commit " ++ String.ofList (node.resourceId.toList.take 7)
    else "Commit: " ++ title
  else if w.isRepo then
    if s.pushed.isSome then "Pushed to " ++ named
    else if s.checked.isSome then "CI/activity on " ++ named
    else "Active on " ++ named
  else if title = "" then
    Text.toAsciiUppercase w.kind ++ " " ++ node.resourceId ++ " (" ++ lifecycle ++ ")"
  else if isFinished lifecycle then lifecycle ++ " " ++ w.kind ++ ": " ++ title
  else "Open " ++ w.kind ++ ": " ++ title

/-- The item of a node that a person worked on in the window, and when. -/
def nodeItem (opts : CompileOpts) (persons : List String) (view : GraphView)
    (node : GraphNodeView) : Option (Option DateTime × LedgerItem) :=
  let w := workShape node
  let s := signals persons view.edges node.nodeId
  let state := nodeState view.states node.nodeId
  let lifecycle := (state.map EntityStateView.stateValue).getD "OPEN"
  let openWork := (w.isPr || w.isIssue) && !(isFinished lifecycle || lifecycle == "RESOLVED")
  let ts := activityTs s state
  if persons.contains node.nodeId || nodeViewIsDemoSeed node then none
  else if !w.any || s.isEmpty then none
  -- open pull requests and issues stay in, whatever their age
  else if !openWork && outsideLookback opts ts then none
  else some (ts, {
    kind := w.kind
    resourceId := if node.resourceId = "" then node.nodeId else node.resourceId
    nodeId := node.nodeId
    summary := summaryOf w node s lifecycle
    confidence := scoreItemConfidence lifecycle true
    evidenceRefs := evidence node.nodeId s state })

/-- No timestamp comes before all timestamps. -/
def tsLe : Option DateTime → Option DateTime → Bool
  | none, _ => true
  | some _, none => false
  | some a, some b => decide (a ≤ b)

/-- Cap commit noise at five. -/
def capCommits : Nat → List LedgerItem → List LedgerItem
  | _, [] => []
  | n, it :: rest =>
    if it.kind = "commit" then
      if n + 1 > 5 then capCommits (n + 1) rest else it :: capCommits (n + 1) rest
    else it :: capCommits n rest

/-- Newest activity first. -/
def compiledItems (opts : CompileOpts) (persons : List String) (view : GraphView) :
    List LedgerItem :=
  let ranked := view.nodes.filterMap (nodeItem opts persons view)
  capCommits 0 ((ranked.insertionSort fun a b => tsLe b.1 a.1).map Prod.snd)

/-! ## Blockers -/

def isBlockEdge (e : GraphEdgeView) : Bool :=
  Text.eqIgnoreAsciiCase e.edgeType "BLOCKS" || Text.eqIgnoreAsciiCase e.edgeType "BLOCKED_BY"

def blockTarget (e : GraphEdgeView) : String :=
  if Text.eqIgnoreAsciiCase e.edgeType "BLOCKED_BY" then e.fromNodeId else e.toNodeId

def blockerOf (nodes : List GraphNodeView) (e : GraphEdgeView) : Option BlockerItem :=
  if edgeIsDemoSeed e nodes then none
  else if nodeIdIsDemoSeed (blockTarget e) || nodeIdIsDemoSeed e.fromNodeId
      || nodeIdIsDemoSeed e.toNodeId then none
  else some {
    nodeId := blockTarget e
    summary := (e.properties.getStr "summary").getD ("Blocked via " ++ e.edgeType)
    confidence := .blocker
    evidenceRefs :=
      ["edge:" ++ e.edgeId, "event:" ++ e.eventId].filter fun s => !Text.endsWith s ":" }

/-- The open blockers, one for each node. -/
def compiledBlockers (view : GraphView) : List BlockerItem :=
  let found := (view.blockers ++ view.edges.filter isBlockEdge).filterMap (blockerOf view.nodes)
  (found.insertionSort fun a b => ¬ b.nodeId < a.nodeId).destutter fun a b => a.nodeId ≠ b.nodeId

/-! ## Compiling -/

/-- What a run reads from the clock and the generator of identifiers. -/
structure CompileReadings where
  uuid : String
  started : DateTime
  /-- the time of the graph, where no view gives one -/
  graphAsOf : DateTime
  compiledAt : DateTime
  finished : DateTime

/-- Failures of the store. -/
structure CompileFaults where
  putLedger : Option TwinError := none
  putCompileRun : Option TwinError := none

def compiledLedger (source : GraphSource) (r : CompileReadings) (twin : Twin)
    (opts : CompileOpts) : LedgerSnapshot :=
  let view := fetchViews source twin opts.hops
  let persons := (subjectIds twin).map personNode
  let graphAsOf := view.graphAsOf.getD r.graphAsOf
  let ledger := applyRollup {
    tenantId := twin.tenantId
    personId := twin.subjectId
    period := ⟨opts.activityStart, opts.activityEnd⟩
    confidenceRollup := .medium
    items := compiledItems opts persons view
    openBlockers := compiledBlockers view
    graphAsOf
    compiledAt := r.compiledAt }
  { tenantId := twin.tenantId
    ledgerId := ledgerIdFor twin.tenantId twin.twinId opts.periodStart opts.periodEnd
    twinId := twin.twinId
    periodStart := opts.periodStart
    periodEnd := opts.periodEnd
    confidenceRollup := ledger.confidenceRollup
    ledger
    graphAsOf
    compiledAt := r.compiledAt }

def compileRunRow (r : CompileReadings) (twin : Twin) : CompileRun where
  tenantId := twin.tenantId
  runId := "run_" ++ r.uuid
  twinId := twin.twinId
  status := "ok"
  errorText := ""
  startedAt := r.started
  finishedAt := some r.finished

def compileOutcome (upper : Char → String) (source : GraphSource) (r : CompileReadings)
    (twin : Twin) (opts : CompileOpts) : CompileOutcome :=
  let view := fetchViews source twin opts.hops
  let snap := compiledLedger source r twin opts
  { runId := "run_" ++ r.uuid
    ledger := snap
    draftText := renderDraftText upper snap.ledger
    aclEmpty := view.nodes.isEmpty && view.edges.isEmpty && view.blockers.isEmpty }

/-- A write of the store, or its failure without effect. -/
def writeOr (fault : Option TwinError) (st : InMemoryTwinStore)
    (f : InMemoryTwinStore → TwinResult Unit × InMemoryTwinStore) :
    TwinResult Unit × InMemoryTwinStore :=
  match fault with
  | some e => (.error e, st)
  | none => f st

/-- Compile the ledger of a person twin. -/
def compilePerson (upper : Char → String) (source : GraphSource) (faults : CompileFaults)
    (r : CompileReadings) (twin : Twin) (opts : CompileOpts) (st : InMemoryTwinStore) :
    TwinResult CompileOutcome × InMemoryTwinStore :=
  if twin.twinKind ≠ .person then
    (.error (.validation "compile_person requires person twin"), st)
  else if twin.tenantId = "" then (.error (.validation "tenant_id required"), st)
  else
    match writeOr faults.putLedger st fun st => st.putLedger (compiledLedger source r twin opts) with
    | (.error e, st) => (.error e, st)
    | (.ok _, st) =>
      match writeOr faults.putCompileRun st fun st => st.putCompileRun (compileRunRow r twin) with
      | (.error e, st) => (.error e, st)
      | (.ok _, st) => (.ok (compileOutcome upper source r twin opts), st)

/-- What the scheduler knows of a twin when it compiles: the time, the last message it sent and the
least interval between two. -/
structure ScheduleTick where
  now : DateTime
  lastNotify : Option DateTime
  notifyIntervalSecs : Int

def ScheduleTick.shouldNotify (tick : ScheduleTick) : Bool :=
  match tick.lastNotify with
  | none => true
  | some last =>
    decide ((tick.now - last).tdiv DateTime.nanosPerSecond ≥ tick.notifyIntervalSecs)

/-- What the scheduler hands to the delivery; an empty window is not worth a message. -/
def ScheduleTick.startInput (tick : ScheduleTick) (twin : Twin) (o : CompileOutcome) :
    StartInput where
  twin := twin
  snap := o.ledger
  draftText := o.draftText
  now := tick.now
  allowNotify := tick.shouldNotify && !ledgerIsEmpty o.ledger.ledger
  forceNotify := false

/-- The step of the scheduler after a compile; a failed compile is skipped. -/
def scheduleStep (svc : DeliveryService) (tick : ScheduleTick) (twin : Twin) :
    TwinResult CompileOutcome → DeliveryM (Option DeliveryStartResult)
  | .error _ => return none
  | .ok o => do
    let started ← startAfterCompileOpts svc (tick.startInput twin o)
    return some started

/-! ## What a compile does to the store -/

section Specs
variable {upper : Char → String} {source : GraphSource} {faults : CompileFaults}
  {r : CompileReadings} {twin : Twin} {opts : CompileOpts} {st : InMemoryTwinStore}

/-- The compile gives up before it writes: it is not for this twin, the ledger of the period is
published, or the store fails. -/
def Refused (faults : CompileFaults) (twin : Twin) (opts : CompileOpts)
    (st : InMemoryTwinStore) : Prop :=
  twin.twinKind ≠ .person ∨ twin.tenantId = "" ∨ faults.putLedger ≠ none ∨
    st.publishByLedger.has (twin.tenantId,
      ledgerIdFor twin.tenantId twin.twinId opts.periodStart opts.periodEnd) = true

theorem compilePerson_of_refused (h : Refused faults twin opts st) :
    ∃ e, compilePerson upper source faults r twin opts st = (.error e, st) := by
  unfold compilePerson
  split_ifs with hkind htenant
  · exact ⟨_, rfl⟩
  · exact ⟨_, rfl⟩
  · obtain hk | ht | hfault | hpublished := h
    · exact absurd hk hkind
    · exact absurd ht htenant
    · obtain ⟨e, he⟩ := Option.ne_none_iff_exists'.mp hfault
      rw [he]
      exact ⟨e, rfl⟩
    · cases hfault : faults.putLedger with
      | some e => exact ⟨e, rfl⟩
      | none =>
        dsimp only [writeOr]
        rw [InMemoryTwinStore.putLedger_published hpublished]
        exact ⟨_, rfl⟩

/-- Otherwise the ledger of the period is replaced, even where the compile fails after that. -/
theorem compilePerson_of_not_refused (h : ¬ Refused faults twin opts st) :
    (compilePerson upper source faults r twin opts st).2.getLedgerByPeriod twin.tenantId
        twin.twinId opts.periodStart opts.periodEnd =
      some (compiledLedger source r twin opts) := by
  simp only [Refused, not_or, not_not, Bool.not_eq_true] at h
  obtain ⟨hkind, htenant, hfault, hfree⟩ := h
  have hfree : st.publishByLedger.has (compiledLedger source r twin opts).key = false := hfree
  obtain ⟨hok, hstored⟩ := InMemoryTwinStore.putLedger_free hfree
  unfold compilePerson
  rw [if_neg (not_not.mpr hkind), if_neg htenant, hfault]
  simp only [writeOr]
  rcases hput : st.putLedger (compiledLedger source r twin opts) with ⟨outcome, st'⟩
  rw [hput] at hok hstored
  obtain rfl : outcome = .ok () := hok
  -- the record of the run is kept beside the ledgers
  cases faults.putCompileRun <;> exact hstored

/-! ## Failed fetches -/

/-- The fetch fails for the subject or for an alias. -/
def FetchFails (source : GraphSource) (twin : Twin) (opts : CompileOpts) : Prop :=
  ∃ sid ∈ subjectIds twin, ∃ e, fetchPersonView source twin opts.hops sid = .error e

/-- The source that answers a view with nothing in it where `source` fails. -/
def emptied (source : GraphSource) : GraphSource := fun tenantId userId node hops =>
  match source tenantId userId node hops with
  | .ok view => .ok view
  | .error _ => .ok {}

theorem fetchInto_emptied (hops : Nat) :
    fetchInto (emptied source) twin hops = fetchInto source twin hops := by
  funext view sid
  unfold fetchInto fetchPersonView emptied
  cases source twin.tenantId sid (personNode sid) hops with
  | ok part => rfl
  | error e => exact mergeGraphView_empty view

/-- **An upstream failure is compiled as no activity**, whatever the identities and whichever of them
fail. -/
theorem compilePerson_emptied :
    compilePerson upper (emptied source) faults r twin opts st =
      compilePerson upper source faults r twin opts st := by
  have hviews : fetchViews (emptied source) twin opts.hops = fetchViews source twin opts.hops := by
    unfold fetchViews
    rw [fetchInto_emptied]
  simp only [compilePerson, compiledLedger, compileOutcome, hviews]

end Specs

section Spares
variable (svc : DeliveryService) (tick : ScheduleTick) (upper : Char → String)
  (source : GraphSource) (faults : CompileFaults) (twin : Twin) (opts : CompileOpts)

/-- The ledger of the period, and the texts of the open drafts over the next step of the scheduler,
are what they were before the compile. -/
def Spared (s : DeliveryState) (compiled : TwinResult CompileOutcome × InMemoryTwinStore) : Prop :=
  compiled.2.getLedgerByPeriod twin.tenantId twin.twinId opts.periodStart opts.periodEnd =
    s.store.getLedgerByPeriod twin.tenantId twin.twinId opts.periodStart opts.periodEnd ∧
  ∀ cs r s', (scheduleStep svc tick twin compiled.1).run.exec answer cs
      { s with store := compiled.2 } = some (r, s') →
    ∀ k d, s.store.drafts.get k = some d → d.status.openish = true →
      ∃ d', s'.store.drafts.get k = some d' ∧ d'.draftText = d.draftText

/-- If a fetch fails, the compile and the next step of the scheduler spare what is stored, whenever
they run. -/
def FailureSpares (s : DeliveryState) : Prop :=
  FetchFails source twin opts →
    ∀ r, Spared svc tick twin opts s (compilePerson upper source faults r twin opts s.store)

variable {svc tick upper source faults twin opts} {s : DeliveryState}

theorem spared_of_refused (h : Refused faults twin opts s.store) (r : CompileReadings) :
    Spared svc tick twin opts s (compilePerson upper source faults r twin opts s.store) := by
  have hrefused : ∃ e, compilePerson upper source faults r twin opts s.store = (.error e, s.store) :=
    compilePerson_of_refused h
  obtain ⟨e, he⟩ := hrefused
  rw [he]
  refine ⟨rfl, ?_⟩
  intro cs result s' hexec k d hd _
  -- a failed compile is skipped: the step returns at once
  obtain ⟨-, rfl⟩ : _ ∧ s = s' := by simpa [scheduleStep, Prog.exec] using hexec
  exact ⟨d, hd, rfl⟩

/-- A compile that is not refused writes a ledger that carries its own time. -/
theorem not_spared (h : ¬ Refused faults twin opts s.store) :
    ∃ r, ¬ Spared svc tick twin opts s (compilePerson upper source faults r twin opts s.store) := by
  -- a time at which the stored ledger was not compiled
  obtain ⟨t, ht⟩ : ∃ t : DateTime, ∀ l, s.store.getLedgerByPeriod twin.tenantId twin.twinId
      opts.periodStart opts.periodEnd = some l → l.compiledAt ≠ t := by
    cases s.store.getLedgerByPeriod twin.tenantId twin.twinId opts.periodStart opts.periodEnd with
    | none =>
      refine ⟨0, ?_⟩
      intro l hl
      cases hl
    | some l =>
      refine ⟨l.compiledAt + 1, ?_⟩
      intro l' hl
      obtain rfl := Option.some.inj hl
      exact Int.ne_of_lt (Int.lt_succ l.compiledAt)
  refine ⟨⟨"", t, t, t, t⟩, ?_⟩
  rintro ⟨hledger, -⟩
  rw [compilePerson_of_not_refused h] at hledger
  exact ht _ hledger.symm rfl

/-- **Stored work is spared by failed fetches exactly when no fetch fails or the compile is refused
for another reason.** -/
theorem failureSpares_iff (svc : DeliveryService) (tick : ScheduleTick) (upper : Char → String)
    (source : GraphSource) (faults : CompileFaults) (twin : Twin) (opts : CompileOpts)
    (s : DeliveryState) :
    FailureSpares svc tick upper source faults twin opts s ↔
      ¬ FetchFails source twin opts ∨ Refused faults twin opts s.store := by
  constructor
  · intro hspares
    by_contra hcond
    obtain ⟨hfails, hrefused⟩ := not_or.mp hcond
    have hspared : ∃ r, ¬ Spared svc tick twin opts s
        (compilePerson upper source faults r twin opts s.store) := not_spared hrefused
    obtain ⟨r, hr⟩ := hspared
    exact hr (hspares (not_not.mp hfails) r)
  · rintro (hfine | hrefused) hfails r
    · exact absurd hfails hfine
    · exact spared_of_refused hrefused r

end Spares

/-! ### An outage -/

def aliceTwin : Twin :=
  { (default : Twin) with
    tenantId := "t", twinId := "twin:person:gu_alice", twinKind := .person,
    subjectId := "gu_alice", enabled := true,
    configJson := .obj [("provider_aliases", .arr [.str "gu_old"])] }

def aliceOpts : CompileOpts := ⟨0, 86400000000000, 0, 86400000000000, 3⟩

/-- Alice has an open pull request; her former identity has nothing. -/
def aliceSource : GraphSource := fun _ userId _ _ =>
  if userId = "gu_alice" then
    .ok { nodes := [{ (default : GraphNodeView) with
            nodeId := "pr:a/b/pr/7", nodeType := "PullRequest", displayName := "fix the login" }],
          edges := [{ (default : GraphEdgeView) with
            edgeId := "e", edgeType := "AUTHORED", fromNodeId := "person:gu_alice",
            toNodeId := "pr:a/b/pr/7", eventId := "v" }] }
  else .ok {}

def outage : GraphSource := fun _ _ _ _ => .error (.upstream "v2 neighborhood: timed out")

def upperAscii (c : Char) : String := Text.toAsciiUppercase (String.ofList [c])

/-- What was stored before the outage: a compile that saw the pull request. -/
def beforeOutage : DeliveryState where
  store := (compilePerson upperAscii aliceSource {} ⟨"a", 1, 1, 1, 1⟩ aliceTwin aliceOpts .new).2
  issued := []
  posts := []

/-- How many items the stored ledger of the period has. -/
def storedItems (st : InMemoryTwinStore) : Option Nat :=
  (st.getLedgerByPeriod aliceTwin.tenantId aliceTwin.twinId aliceOpts.periodStart
    aliceOpts.periodEnd).map fun l => l.ledger.items.length

/-- During an outage the ledger with the pull request is replaced by an empty one. -/
theorem outage_not_spared :
    ¬ FailureSpares mockService ⟨3, none, 0⟩ upperAscii outage {} aliceTwin aliceOpts
      beforeOutage := by
  intro h
  have hfails : FetchFails outage aliceTwin aliceOpts := ⟨"gu_alice", by decide, _, rfl⟩
  have hledger := (h hfails ⟨"b", 2, 2, 2, 2⟩).1
  have hbefore : storedItems beforeOutage.store = some 1 := by decide +kernel
  have hafter : storedItems (compilePerson upperAscii outage {} ⟨"b", 2, 2, 2, 2⟩ aliceTwin
      aliceOpts beforeOutage.store).2 = some 0 := by decide +kernel
  rw [storedItems, hledger] at hafter
  rw [storedItems, hafter] at hbefore
  cases hbefore

end AiManager.Twins
