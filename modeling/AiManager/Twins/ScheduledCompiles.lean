import AiManager.Twins.Compiler
import AiManager.Twins.StartCalls

/-! # A tick of the scheduler

The scheduler compiles the enabled person twins of its tenants one after the other and delivers what was
compiled. A compile that fails is skipped: whatever it left in the store, the rest of the tick goes on as if
the twin were not there. A delivery that fails ends the tick. So a failing twin is without effect on the
others exactly if no delivery fails but the last one of the tick (`isolated_iff`). -/

namespace AiManager.Twins

open Lib

/-! ## The loop -/

/-- The tenants of a tick: those of a demo, and the default ones. -/
def scheduledTenants (lastDemo : List String) : List String :=
  ["ten_github", "ten_demo", "ten_live", "ten_q", "ten_platform"].foldl
    (fun tenants t => if tenants.contains t then tenants else tenants ++ [t]) lastDemo

/-- The twins that a tick visits, in order; a tenant whose listing fails has none. -/
def scheduledTwins (listed : String → TwinResult (List Twin)) (tenants : List String) :
    List (String × Twin) :=
  tenants.flatMap fun tenant =>
    (((listed tenant).toOption.getD []).filter fun t => t.enabled && t.twinKind = .person).map (tenant, ·)

/-- What the environment decides for one twin: what the graph answers, the demo fixture included, the
readings and faults of the compile, and the choices at the calls of the delivery. -/
structure TwinEnv where
  source : GraphSource
  readings : CompileReadings
  faults : CompileFaults
  choices : ℕ → Choice

structure TickConfig where
  service : DeliveryService
  upper : Char → String
  opts : CompileOpts
  now : DateTime
  notifyIntervalSecs : Int
  env : String × Twin → TwinEnv

structure TickState where
  delivery : DeliveryState
  /-- (tenant, twin) → time of the last message -/
  lastNotify : KMap (String × String) DateTime

/-- How a visit to a twin ended. -/
inductive VisitEnd where
  | skipped (e : TwinError)
  | started (o : CompileOutcome) (r : DeliveryStartResult)
  | failed (o : CompileOutcome) (e : TwinError)

/-- A visit, with the messages that went out. -/
structure Visit where
  ended : VisitEnd
  posts : List ChatPost

namespace VisitEnd

def isError : VisitEnd → Bool
  | skipped _ | failed _ _ => true
  | started _ _ => false

/-- The error leaves the loop. -/
def aborts : VisitEnd → Bool
  | failed _ _ => true
  | _ => false

end VisitEnd

namespace TickConfig
variable (cfg : TickConfig)

/-- What the scheduler knows of a twin. -/
def scheduleTick (s : TickState) (x : String × Twin) : ScheduleTick :=
  ⟨cfg.now, s.lastNotify.get (x.1, x.2.twinId), cfg.notifyIntervalSecs⟩

/-- After a message the twin rests for a while. -/
def noted (s : TickState) (x : String × Twin) (r : DeliveryStartResult) (delivery : DeliveryState) :
    TickState where
  delivery := delivery
  lastNotify := if r.dmSent then s.lastNotify.put (x.1, x.2.twinId) cfg.now else s.lastNotify

/-- Compile and deliver one twin; `none` where the choices are impossible. -/
def visit (x : String × Twin) (s : TickState) : Option (Visit × TickState) :=
  let env := cfg.env x
  match compilePerson cfg.upper env.source env.faults env.readings x.2 cfg.opts s.delivery.store with
  | (.error e, store) => some (⟨.skipped e, []⟩, { s with delivery := { s.delivery with store } })
  | (.ok o, store) =>
    match (startAfterCompileOpts cfg.service ((cfg.scheduleTick s x).startInput x.2 o)).run.exec answer
        env.choices { s.delivery with store } with
    | none => none
    | some (r, delivery) =>
      let posts := delivery.posts.take (delivery.posts.length - s.delivery.posts.length)
      match r with
      | .ok r => some (⟨.started o r, posts⟩, cfg.noted s x r delivery)
      | .error e => some (⟨.failed o e, posts⟩, { s with delivery })

/-- The visits of a tick, up to the first that leaves the loop. -/
def runScheduledCompiles : List (String × Twin) → TickState → Option (List Visit × TickState)
  | [], s => some ([], s)
  | x :: rest, s =>
    match cfg.visit x s with
    | none => none
    | some (v, s') =>
      if v.ended.aborts then some ([v], s')
      else (runScheduledCompiles rest s').map (Prod.map (v :: ·) id)

/-! ## Isolation -/

/-- Where a visit ends in an error, the others are what they are in a tick without the twin. -/
def Isolated (twins : List (String × Twin)) (s : TickState) : Prop :=
  ∀ visits s', cfg.runScheduledCompiles twins s = some (visits, s') →
    ∀ i v, visits[i]? = some v → v.ended.isError = true →
      ∃ s'', cfg.runScheduledCompiles (twins.eraseIdx i) s = some (visits.eraseIdx i, s'')

/-- No delivery fails but that of the last twin. -/
def OnlyLastFails : List (String × Twin) → TickState → Prop
  | [], _ => True
  | x :: rest, s =>
    match cfg.visit x s with
    | none => True
    | some (v, s') => if v.ended.aborts then rest = [] else OnlyLastFails rest s'

end TickConfig

/-! ## Deliveries do not read ledgers -/

/-- The store without its ledgers. -/
def InMemoryTwinStore.forgetLedgers (st : InMemoryTwinStore) : InMemoryTwinStore :=
  { st with ledgers := ∅, ledgerPeriod := ∅ }

def DeliveryState.forgetLedgers (s : DeliveryState) : DeliveryState :=
  { s with store := s.store.forgetLedgers }

def DeliveryOp.LedgerBlind : DeliveryOp → Prop
  | .getLedger _ _ => False
  | _ => True

section Blind
variable {c : Choice} {s : DeliveryState}

theorem reading_forget {α : Type} (v : α) : s.forgetLedgers.reading c v =
    (s.reading c v).map (Prod.map id DeliveryState.forgetLedgers) := by
  unfold DeliveryState.reading
  cases c.fault <;> rfl

theorem writing_forget {α : Type} (f : InMemoryTwinStore → TwinResult α × InMemoryTwinStore)
    (h : ∀ st, f st.forgetLedgers = Prod.map id InMemoryTwinStore.forgetLedgers (f st)) :
    s.forgetLedgers.writing c f = (s.writing c f).map (Prod.map id DeliveryState.forgetLedgers) := by
  unfold DeliveryState.writing
  cases c.fault with
  | some e => rfl
  | none =>
    show some ((f s.store.forgetLedgers).1, { s.forgetLedgers with store := (f s.store.forgetLedgers).2 }) = _
    rw [h]
    rfl

theorem posting_forget (outcome : TwinResult DeliveryPostResult) (post : ChatPost) :
    s.forgetLedgers.posting outcome post =
      (s.posting outcome post).map (Prod.map id DeliveryState.forgetLedgers) := by
  unfold DeliveryState.posting
  cases outcome <;> rfl

theorem putDraft_forget (st : InMemoryTwinStore) (d : DraftDelivery) :
    st.forgetLedgers.putDraft d = Prod.map id InMemoryTwinStore.forgetLedgers (st.putDraft d) := by
  have hsame : st.forgetLedgers.draftByLedger = st.draftByLedger := rfl
  unfold InMemoryTwinStore.putDraft
  rw [hsame]
  cases st.draftByLedger.get d.ledgerKey with
  | none => rfl
  | some existingId =>
    dsimp only
    split_ifs <;> rfl

theorem updateDraft_forget (st : InMemoryTwinStore) (d : DraftDelivery) :
    st.forgetLedgers.updateDraft d = Prod.map id InMemoryTwinStore.forgetLedgers (st.updateDraft d) := by
  unfold InMemoryTwinStore.updateDraft
  show (if st.drafts.has d.key then _ else _) = _
  split_ifs <;> rfl

theorem putPublishIfAbsent_forget (st : InMemoryTwinStore) (rec : PublishRecord) :
    st.forgetLedgers.putPublishIfAbsent rec =
      Prod.map id InMemoryTwinStore.forgetLedgers (st.putPublishIfAbsent rec) := by
  unfold InMemoryTwinStore.putPublishIfAbsent
  show (if st.publishByLedger.has rec.ledgerKey then _ else _) = _
  split_ifs <;> rfl

theorem answer_forget (op : DeliveryOp) (hop : op.LedgerBlind) : answer c op s.forgetLedgers =
    (answer c op s).map (Prod.map id DeliveryState.forgetLedgers) := by
  cases op with
  | utcNow => rfl
  | newUuid =>
    show (if c.uuid ∈ s.issued then _ else _) = Option.map _ (if c.uuid ∈ s.issued then _ else _)
    split_ifs <;> rfl
  | getLedger _ _ => cases hop
  | getDraft _ _ | getDraftByLedger _ _ | getPublishByLedger _ _ | getSlackMap _ _ => exact reading_forget _
  | putDraft d => exact writing_forget (fun st => st.putDraft d) fun st => putDraft_forget st d
  | updateDraft d => exact writing_forget (fun st => st.updateDraft d) fun st => updateDraft_forget st d
  | putPublishIfAbsent rec =>
    exact writing_forget (fun st => st.putPublishIfAbsent rec) fun st => putPublishIfAbsent_forget st rec
  | upsertTwin twin => exact writing_forget (fun st => st.upsertTwin twin) fun _ => rfl
  | postDm _ _ | postChannel _ _ | postDraftDm _ _ _ _ => exact posting_forget _ _

end Blind

theorem blind_of_start {twin : Twin} {op : DeliveryOp} (h : op.OfStart twin) : op.LedgerBlind := by
  cases op with
  | getLedger _ _ => cases h
  | _ => trivial

theorem startAfterCompileOpts_blind {svc : DeliveryService} {x : StartInput} :
    (startAfterCompileOpts svc x).run.CallsOnly DeliveryOp.LedgerBlind :=
  startAfterCompileOpts_calls.mono fun _ => blind_of_start

/-! ## Visits that see the same -/

/-- The states are equal but for their ledgers. -/
def TickState.forgetLedgers (s : TickState) : TickState :=
  { s with delivery := s.delivery.forgetLedgers }

section Visits
variable {cfg : TickConfig} {x : String × Twin} {s t : TickState} {st : InMemoryTwinStore}

theorem putLedger_forget (st : InMemoryTwinStore) (snap : LedgerSnapshot) :
    (st.putLedger snap).2.forgetLedgers = st.forgetLedgers := by
  unfold InMemoryTwinStore.putLedger
  split_ifs <;> rfl

theorem putLedger_of_forget {st' : InMemoryTwinStore} (h : st.forgetLedgers = st'.forgetLedgers)
    (snap : LedgerSnapshot) : (st.putLedger snap).1 = (st'.putLedger snap).1 := by
  have hpublished : st.forgetLedgers.publishByLedger = st'.forgetLedgers.publishByLedger := by rw [h]
  change st.publishByLedger = st'.publishByLedger at hpublished
  unfold InMemoryTwinStore.putLedger
  rw [hpublished]
  split_ifs <;> rfl

/-- A compile answers the same, and leaves the same but for the ledgers. -/
theorem compilePerson_of_forget (upper : Char → String) (source : GraphSource) (faults : CompileFaults)
    (r : CompileReadings) (twin : Twin) (opts : CompileOpts) {st' : InMemoryTwinStore}
    (h : st.forgetLedgers = st'.forgetLedgers) :
    (compilePerson upper source faults r twin opts st).1 = (compilePerson upper source faults r twin opts st').1 ∧
      (compilePerson upper source faults r twin opts st).2.forgetLedgers =
        (compilePerson upper source faults r twin opts st').2.forgetLedgers := by
  have hanswer := putLedger_of_forget h (compiledLedger source r twin opts)
  have hleft := (putLedger_forget st (compiledLedger source r twin opts)).trans
    (h.trans (putLedger_forget st' (compiledLedger source r twin opts)).symm)
  unfold compilePerson
  split_ifs
  · exact ⟨rfl, h⟩
  · exact ⟨rfl, h⟩
  · cases faults.putLedger with
    | some e => exact ⟨rfl, h⟩
    | none =>
      simp only [writeOr]
      generalize st.putLedger (compiledLedger source r twin opts) = put at hanswer hleft
      generalize st'.putLedger (compiledLedger source r twin opts) = put' at hanswer hleft
      obtain ⟨outcome, st₁⟩ := put
      obtain ⟨outcome', st₁'⟩ := put'
      obtain rfl : outcome = outcome' := hanswer
      cases outcome with
      | error e => exact ⟨rfl, hleft⟩
      | ok _ =>
        cases faults.putCompileRun with
        | some e => exact ⟨rfl, hleft⟩
        | none =>
          change st₁.forgetLedgers = st₁'.forgetLedgers at hleft
          refine ⟨rfl, ?_⟩
          show (st₁.forgetLedgers.putCompileRun (compileRunRow r twin)).2 =
            (st₁'.forgetLedgers.putCompileRun (compileRunRow r twin)).2
          rw [hleft]

/-- A compile that fails leaves what was there, but for the ledgers. -/
theorem compilePerson_error {upper : Char → String} {source : GraphSource} {faults : CompileFaults}
    {r : CompileReadings} {twin : Twin} {opts : CompileOpts} {e : TwinError}
    (h : (compilePerson upper source faults r twin opts st).1 = .error e) :
    (compilePerson upper source faults r twin opts st).2.forgetLedgers = st.forgetLedgers := by
  have hleft := putLedger_forget st (compiledLedger source r twin opts)
  unfold compilePerson at h ⊢
  split_ifs at h ⊢
  · rfl
  · rfl
  · cases hfault : faults.putLedger with
    | some e => rfl
    | none =>
      simp only [hfault, writeOr] at h ⊢
      generalize st.putLedger (compiledLedger source r twin opts) = put at h hleft
      obtain ⟨outcome, st₁⟩ := put
      cases outcome with
      | error e => exact hleft
      | ok _ =>
        cases hrun : faults.putCompileRun with
        | some e => exact hleft
        | none =>
          rw [hrun] at h
          cases h

theorem startAfterCompileOpts_of_forget (svc : DeliveryService) (i : StartInput) (cs : ℕ → Choice)
    {d d' : DeliveryState} (h : d.forgetLedgers = d'.forgetLedgers) :
    ((startAfterCompileOpts svc i).run.exec answer cs d).map (Prod.map id DeliveryState.forgetLedgers) =
      ((startAfterCompileOpts svc i).run.exec answer cs d').map (Prod.map id DeliveryState.forgetLedgers) := by
  rw [← startAfterCompileOpts_blind.exec_forget fun _ op _ hop => answer_forget op hop, h,
    startAfterCompileOpts_blind.exec_forget fun _ op _ hop => answer_forget op hop]

/-- States that are equal but for their ledgers, field by field. -/
theorem forget_iff {d d' : DeliveryState} : d.forgetLedgers = d'.forgetLedgers ↔
    d.store.forgetLedgers = d'.store.forgetLedgers ∧ d.issued = d'.issued ∧ d.posts = d'.posts := by
  unfold DeliveryState.forgetLedgers
  rw [DeliveryState.mk.injEq]

theorem tick_forget_iff : s.forgetLedgers = t.forgetLedgers ↔
    s.delivery.forgetLedgers = t.delivery.forgetLedgers ∧ s.lastNotify = t.lastNotify := by
  unfold TickState.forgetLedgers
  rw [TickState.mk.injEq]

variable (cfg x) in
theorem visit_of_forget (h : s.forgetLedgers = t.forgetLedgers) :
    (cfg.visit x s).map (Prod.map id TickState.forgetLedgers) =
      (cfg.visit x t).map (Prod.map id TickState.forgetLedgers) := by
  obtain ⟨hdelivery, hnotify⟩ := tick_forget_iff.mp h
  obtain ⟨hstore, hissued, hposts⟩ := forget_iff.mp hdelivery
  have htick : cfg.scheduleTick s x = cfg.scheduleTick t x := by
    unfold TickConfig.scheduleTick
    rw [hnotify]
  obtain ⟨hanswer, hleft⟩ := compilePerson_of_forget cfg.upper (cfg.env x).source (cfg.env x).faults
    (cfg.env x).readings x.2 cfg.opts hstore
  unfold TickConfig.visit
  dsimp only
  rw [htick]
  generalize compilePerson cfg.upper (cfg.env x).source (cfg.env x).faults (cfg.env x).readings x.2 cfg.opts
    s.delivery.store = compiled at hanswer hleft
  generalize compilePerson cfg.upper (cfg.env x).source (cfg.env x).faults (cfg.env x).readings x.2 cfg.opts
    t.delivery.store = compiled' at hanswer hleft
  obtain ⟨outcome, store⟩ := compiled
  obtain ⟨outcome', store'⟩ := compiled'
  obtain rfl : outcome = outcome' := hanswer
  cases outcome with
  | error e =>
    refine congrArg some (Prod.ext rfl ?_)
    exact tick_forget_iff.mpr ⟨forget_iff.mpr ⟨hleft, hissued, hposts⟩, hnotify⟩
  | ok o =>
    have hsame : { s.delivery with store := store : DeliveryState }.forgetLedgers =
        { t.delivery with store := store' : DeliveryState }.forgetLedgers :=
      forget_iff.mpr ⟨hleft, hissued, hposts⟩
    have hexec := startAfterCompileOpts_of_forget cfg.service ((cfg.scheduleTick t x).startInput x.2 o)
      (cfg.env x).choices hsame
    dsimp only
    generalize Prog.exec _ _ _ { s.delivery with store := store } = ended at hexec
    generalize Prog.exec _ _ _ { t.delivery with store := store' } = ended' at hexec
    cases ended with
    | none =>
      obtain rfl : ended' = none := by simpa using hexec.symm
      rfl
    | some re =>
      cases ended' with
      | none => cases hexec
      | some re' =>
        obtain ⟨r, d⟩ := re
        obtain ⟨r', d'⟩ := re'
        obtain ⟨hr, hd⟩ := Prod.mk.inj (Option.some.inj hexec)
        obtain rfl : r = r' := hr
        obtain ⟨-, -, hsent⟩ := forget_iff.mp hd
        cases r with
        | ok r =>
          refine congrArg some (Prod.ext ?_ (tick_forget_iff.mpr ⟨hd, ?_⟩))
          · show Visit.mk _ _ = Visit.mk _ _
            rw [hsent, hposts]
          · show (if r.dmSent then s.lastNotify.put _ _ else s.lastNotify) = _
            rw [hnotify]
            rfl
        | error e =>
          refine congrArg some (Prod.ext ?_ (tick_forget_iff.mpr ⟨hd, hnotify⟩))
          show Visit.mk _ _ = Visit.mk _ _
          rw [hsent, hposts]

/-- A twin whose compile fails leaves no trace but in the ledgers. -/
theorem visit_skipped {e : TwinError} {posts : List ChatPost} (h : cfg.visit x s = some (⟨.skipped e, posts⟩, t)) :
    t.forgetLedgers = s.forgetLedgers := by
  unfold TickConfig.visit at h
  dsimp only at h
  split at h
  · next e' store hcompile =>
    obtain ⟨-, rfl⟩ := Prod.mk.inj (Option.some.inj h)
    have hleft := compilePerson_error (congrArg Prod.fst hcompile)
    rw [hcompile] at hleft
    exact tick_forget_iff.mpr ⟨forget_iff.mpr ⟨hleft, rfl, rfl⟩, rfl⟩
  · split at h
    · cases h
    · split at h <;> cases h

end Visits

/-! ## Runs -/

section Runs
variable {cfg : TickConfig} {x : String × Twin} {twins rest : List (String × Twin)} {s t : TickState}
  {v : Visit}

variable (rest) in
theorem run_cons_abort (h : cfg.visit x s = some (v, t)) (haborts : v.ended.aborts = true) :
    cfg.runScheduledCompiles (x :: rest) s = some ([v], t) := by
  simp only [TickConfig.runScheduledCompiles, h, haborts, if_true]

theorem run_cons (h : cfg.visit x s = some (v, t)) (hgoes : v.ended.aborts = false) :
    cfg.runScheduledCompiles (x :: rest) s =
      (cfg.runScheduledCompiles rest t).map (Prod.map (v :: ·) id) := by
  simp only [TickConfig.runScheduledCompiles, h, hgoes, Bool.false_eq_true, if_false]

variable (cfg twins) in
/-- A tick does not depend on the ledgers that are stored. -/
theorem run_of_forget (h : s.forgetLedgers = t.forgetLedgers) :
    (cfg.runScheduledCompiles twins s).map Prod.fst = (cfg.runScheduledCompiles twins t).map Prod.fst := by
  induction twins generalizing s t with
  | nil => rfl
  | cons x rest ih =>
    have hvisit := visit_of_forget cfg x h
    cases hs : cfg.visit x s with
    | none =>
      have ht : cfg.visit x t = none := by
        rw [hs] at hvisit
        simpa using hvisit.symm
      simp only [TickConfig.runScheduledCompiles, hs, ht]
    | some vs =>
      cases ht : cfg.visit x t with
      | none =>
        rw [hs, ht] at hvisit
        cases hvisit
      | some vt =>
        rw [hs, ht] at hvisit
        obtain ⟨v, s'⟩ := vs
        obtain ⟨w, t'⟩ := vt
        obtain ⟨hv, hleft⟩ := Prod.mk.inj (Option.some.inj hvisit)
        obtain rfl : v = w := hv
        cases haborts : v.ended.aborts with
        | true => rw [run_cons_abort _ hs haborts, run_cons_abort _ ht haborts]; rfl
        | false =>
          rw [run_cons hs haborts, run_cons ht haborts, Option.map_map, Option.map_map]
          have hrest := congrArg (Option.map (v :: ·)) (ih hleft)
          rwa [Option.map_map, Option.map_map] at hrest

/-- An error that does not leave the loop is a skipped compile. -/
theorem skipped_of_error (herror : v.ended.isError = true) (hgoes : v.ended.aborts = false) :
    ∃ e, v = ⟨.skipped e, v.posts⟩ := by
  obtain ⟨ended, posts⟩ := v
  cases ended with
  | skipped e => exact ⟨e, rfl⟩
  | started o r => cases herror
  | failed o e => cases hgoes

/-- Where the first twin does not end the tick, isolation is a matter of the rest. -/
theorem isolated_cons_iff (h : cfg.visit x s = some (v, t)) (hgoes : v.ended.aborts = false) :
    cfg.Isolated (x :: rest) s ↔ cfg.Isolated rest t := by
  constructor
  · intro hisolated visits t' hrun i w hw herror
    have hwhole : cfg.runScheduledCompiles (x :: rest) s = some (v :: visits, t') := by
      rw [run_cons h hgoes, hrun]
      rfl
    obtain ⟨s'', hs''⟩ := hisolated _ _ hwhole (i + 1) w hw herror
    rw [List.eraseIdx_cons_succ, List.eraseIdx_cons_succ, run_cons h hgoes] at hs''
    obtain ⟨⟨visits', t''⟩, ht'', heq⟩ := Option.map_eq_some_iff.mp hs''
    obtain ⟨hvisits, -⟩ := Prod.mk.inj heq
    rw [List.cons.injEq] at hvisits
    exact ⟨t'', by rw [ht'', ← hvisits.2]⟩
  · intro hisolated visits t' hrun i w hw herror
    rw [run_cons h hgoes] at hrun
    obtain ⟨⟨visits', t''⟩, ht'', heq⟩ := Option.map_eq_some_iff.mp hrun
    obtain ⟨rfl, rfl⟩ := Prod.mk.inj heq
    cases i with
    | zero =>
      -- the compile was skipped: the rest starts from the same but for the ledgers
      obtain rfl : v = w := Option.some.inj hw
      obtain ⟨e, hskipped⟩ := skipped_of_error herror hgoes
      rw [hskipped] at h
      have hsame := run_of_forget cfg rest (visit_skipped h)
      rw [ht''] at hsame
      obtain ⟨⟨visits'', s''⟩, hs'', hvisits⟩ := Option.map_eq_some_iff.mp hsame.symm
      obtain rfl : visits'' = visits' := hvisits
      exact ⟨s'', hs''⟩
    | succ i =>
      obtain ⟨s'', hs''⟩ := hisolated _ _ ht'' i w hw herror
      refine ⟨s'', ?_⟩
      rw [List.eraseIdx_cons_succ, run_cons h hgoes, hs'']
      rfl

/-- A delivery that fails ends the tick: whoever comes after it is missed. -/
theorem isolated_abort_iff (h : cfg.visit x s = some (v, t)) (haborts : v.ended.aborts = true) :
    cfg.Isolated (x :: rest) s ↔ rest = [] := by
  have hwhole := run_cons_abort rest h haborts
  have herror : v.ended.isError = true := by
    cases hended : v.ended <;> rw [hended] at haborts
    · cases haborts
    · cases haborts
    · rfl
  constructor
  · intro hisolated
    obtain ⟨s'', hs''⟩ := hisolated _ _ hwhole 0 v rfl herror
    cases rest with
    | nil => rfl
    | cons y rest =>
      -- the tick without the twin visits the next one
      change cfg.runScheduledCompiles (y :: rest) s = some ([], s'') at hs''
      cases hy : cfg.visit y s with
      | none => simp only [TickConfig.runScheduledCompiles, hy] at hs''; cases hs''
      | some vs =>
        obtain ⟨w, s'⟩ := vs
        cases hw : w.ended.aborts with
        | true => rw [run_cons_abort _ hy hw] at hs''; cases hs''
        | false =>
          rw [run_cons hy hw] at hs''
          obtain ⟨_, -, heq⟩ := Option.map_eq_some_iff.mp hs''
          cases heq
  · rintro rfl visits t' hrun i w hw -
    rw [hwhole] at hrun
    obtain ⟨rfl, rfl⟩ := Prod.mk.inj (Option.some.inj hrun)
    cases i with
    | zero => exact ⟨s, rfl⟩
    | succ i => cases hw

end Runs

/-- **A failing twin is without effect on the others** exactly if no delivery fails but that of the last
twin of the tick. -/
theorem isolated_iff (cfg : TickConfig) (listed : String → TwinResult (List Twin)) (lastDemo : List String)
    (s : TickState) :
    let twins := scheduledTwins listed (scheduledTenants lastDemo)
    cfg.Isolated twins s ↔ cfg.OnlyLastFails twins s := by
  intro twins
  induction twins generalizing s with
  | nil =>
    refine iff_of_true ?_ trivial
    intro visits t hrun i v hv
    obtain ⟨rfl, -⟩ := Prod.mk.inj (Option.some.inj hrun)
    cases hv
  | cons x rest ih =>
    unfold TickConfig.OnlyLastFails
    cases h : cfg.visit x s with
    | none =>
      refine iff_of_true ?_ trivial
      intro visits t hrun
      simp only [TickConfig.runScheduledCompiles, h] at hrun
      cases hrun
    | some vt =>
      obtain ⟨v, t⟩ := vt
      dsimp only
      cases haborts : v.ended.aborts with
      | true => rw [isolated_abort_iff h haborts, if_pos rfl]
      | false => rw [isolated_cons_iff h haborts, if_neg Bool.false_ne_true, ih]

/-! ### The store fails during one delivery -/

def demoTwin (subjectId : String) : Twin :=
  { aliceTwin with tenantId := "ten_demo", twinId := "twin:person:" ++ subjectId, subjectId := subjectId }

/-- The store fails at every call of Alice's delivery; Bob's calls all succeed. -/
def storeDownForAlice : TickConfig where
  service := mockService
  upper := upperAscii
  opts := aliceOpts
  now := 1
  notifyIntervalSecs := 3600
  env x :=
    { source := fun _ _ _ _ => .ok {}
      readings := ⟨x.2.subjectId, 1, 1, 1, 1⟩
      faults := {}
      choices := fun n =>
        if x.2.subjectId = "gu_alice" then { smooth "a" with fault := some (.storage "connection reset") }
        else smooth ("b" ++ String.ofList (List.replicate n 'b')) }

def emptyTick : TickState := ⟨⟨.new, [], []⟩, ∅⟩

/-- Bob comes after Alice, and is missed. -/
theorem failed_delivery_ends_tick :
    let twins := scheduledTwins
      (fun t => .ok (if t = "ten_demo" then [demoTwin "gu_alice", demoTwin "gu_bob"] else []))
      (scheduledTenants [])
    twins.map (fun x => (x.1, x.2.subjectId)) = [("ten_demo", "gu_alice"), ("ten_demo", "gu_bob")] ∧
      (storeDownForAlice.runScheduledCompiles twins emptyTick).map (fun r => r.1.map fun v =>
        (v.ended.isError, v.ended.aborts)) = some [(true, true)] ∧
      (storeDownForAlice.runScheduledCompiles (twins.eraseIdx 0) emptyTick).map (fun r => r.1.map fun v =>
        v.ended.isError) = some [false] ∧
      ¬ storeDownForAlice.Isolated twins emptyTick := by
  intro twins
  have hwhole : (storeDownForAlice.runScheduledCompiles twins emptyTick).map (fun r => r.1.map fun v =>
      (v.ended.isError, v.ended.aborts)) = some [(true, true)] := by decide +kernel
  have hwithout : (storeDownForAlice.runScheduledCompiles (twins.eraseIdx 0) emptyTick).map (fun r =>
      r.1.map fun v => v.ended.isError) = some [false] := by decide +kernel
  refine ⟨by decide +kernel, hwhole, hwithout, fun hisolated => ?_⟩
  obtain ⟨⟨visits, t⟩, hrun, hvisits⟩ := Option.map_eq_some_iff.mp hwhole
  obtain ⟨v, rfl, hv⟩ := List.map_eq_singleton_iff.mp hvisits
  obtain ⟨s', hs'⟩ := hisolated _ _ hrun 0 v rfl (Prod.mk.inj hv).1
  rw [hs'] at hwithout
  cases hwithout

end AiManager.Twins
