import AiManager.Platform.TwinWriters

/-! # The champion gate

Roles and the focus of tomorrow are written by champions only, once champions are listed. The gate takes an actor
for a champion if the one name contains the other, so a stranger stays out exactly if his name neither contains a
listed name nor lies in one (`gate_sound_iff`). -/

namespace AiManager.Platform

open Lib Twins

-- a text that is not given has no length to compute
attribute [local irreducible] Text.trim

/-! ## Requests -/

inductive ApiError where
  | forbidden (text : String)
  | bad (text : String)

structure ActorQ where
  actor : Option String
  actorSubject : Option String

structure RolesBody where
  champions : Option (List String)
  defaultRole : Option String
  /-- who is performing the write -/
  actorSubject : Option String
  actor : Option String

structure TomorrowFocusBody where
  items : List Json
  note : Option String
  actorSubject : Option String
  actor : Option String

inductive GatedRequest where
  | putRoles (q : ActorQ) (body : RolesBody)
  | putTomorrowFocus (q : ActorQ) (body : TomorrowFocusBody)

/-- Who makes the request: the body comes before the query. -/
def GatedRequest.actor : GatedRequest → Option String
  | putRoles q body => ((body.actorSubject.or body.actor).or q.actor).or q.actorSubject
  | putTomorrowFocus q body => ((body.actorSubject.or body.actor).or q.actor).or q.actorSubject

/-! ## Roles -/

def rolesKv : String := "roles"
def tomorrowFocusKv : String := "tomorrow_focus"

def defaultRolesJson : Json :=
  .obj [("champions", .arr []), ("default_role", .str "champion"),
    ("note", .str ("Pilot: all seats act as champion until champions[] is set. When champions is non-empty, only "
      ++ "those subjects may perform cockpit writes (pass ?actor= or body.actor_subject). Members still "
      ++ "Approve/Don't send their own digests."))]

section Gate
variable (embedded : Bool) (tenantId : String)

def loadRolesConfig (st : InMemoryTwinStore) : Json :=
  (if embedded then st.getTenantKv tenantId rolesKv else none).getD defaultRolesJson

/-- The listed champions, without blank entries. -/
def championsOf (roles : Json) : List String :=
  ((((roles.get "champions").bind Json.asArray).getD []).filterMap Json.asStr |>.map Text.trim).filter
    fun s => s ≠ ""

/-- Pilot role gate: as long as nobody is listed, everyone is a champion. -/
def actorIsChampion (st : InMemoryTwinStore) (actor : Option String) : Bool :=
  let champions := championsOf (loadRolesConfig embedded tenantId st)
  if champions.isEmpty then true
  else
    match nonBlank actor with
    | none => false
    | some actor =>
      let al := Text.toAsciiLowercase actor
      champions.any fun c =>
        let cl := Text.toAsciiLowercase c
        decide (cl = al) || Text.contains al cl || Text.contains cl al

def championRequired : ApiError :=
  .forbidden ("Champion role required for this write. Set roles.champions (empty = all open) and pass "
    ++ "?actor=<subject> or body.actor_subject. Members can still Approve/Don't send their own digests.")

def requireChampion (st : InMemoryTwinStore) (actor : Option String) : Except ApiError Unit :=
  if actorIsChampion embedded tenantId st actor then .ok () else .error championRequired

/-- What is stored, the time apart. -/
def GatedRequest.value (now : DateTime) : GatedRequest → Json
  | putRoles _ body =>
    let role := body.defaultRole.getD "champion"
    .obj [("champions", .ofStrings (body.champions.getD [])),
      ("default_role", .str (if Text.eqIgnoreAsciiCase role "member" then "member" else "champion")),
      ("updated_at", .str now.formatIstRfc3339)]
  | putTomorrowFocus _ body =>
    .obj [("items", .arr body.items), ("note", .str (body.note.getD "Pinned by champion")),
      ("updated_at", .str now.formatIstRfc3339)]

def GatedRequest.key : GatedRequest → String
  | putRoles _ _ => rolesKv
  | putTomorrowFocus _ _ => tomorrowFocusKv

def GatedRequest.field : GatedRequest → String
  | putRoles _ _ => "roles"
  | putTomorrowFocus _ _ => "focus"

/-- A write behind the gate. -/
def putGated (st : InMemoryTwinStore) (now : DateTime) (req : GatedRequest) :
    Except ApiError Json × InMemoryTwinStore :=
  match requireChampion embedded tenantId st req.actor with
  | .error e => (.error e, st)
  | .ok () =>
    let value := req.value now
    if embedded then
      (.ok (.obj [("ok", .bool true), ("tenant_id", .str tenantId), (req.field, value)]),
        st.putTenantKv tenantId req.key value)
    else (.error (.bad (req.key ++ " persist requires embedded twin store (staging)")), st)

def putRoles (st : InMemoryTwinStore) (now : DateTime) (q : ActorQ) (body : RolesBody) :
    Except ApiError Json × InMemoryTwinStore :=
  putGated embedded tenantId st now (.putRoles q body)

def putTomorrowFocus (st : InMemoryTwinStore) (now : DateTime) (q : ActorQ) (body : TomorrowFocusBody) :
    Except ApiError Json × InMemoryTwinStore :=
  putGated embedded tenantId st now (.putTomorrowFocus q body)

/-- One request at a time, with the clock that it reads. -/
def gatedStep (st : InMemoryTwinStore) (x : DateTime × GatedRequest) : InMemoryTwinStore :=
  match x with
  | (now, .putRoles q body) => (putRoles embedded tenantId st now q body).2
  | (now, .putTomorrowFocus q body) => (putTomorrowFocus embedded tenantId st now q body).2

/-! ## Strangers -/

/-- The actor is listed, but for blanks around the name and case. -/
def listed (champions : List String) (actor : Option String) : Bool :=
  (nonBlank actor).any fun a => champions.any fun c => Text.toAsciiLowercase c = Text.toAsciiLowercase a

/-- The name of the actor contains a listed one, or lies in it. -/
def overlaps (champions : List String) (actor : Option String) : Bool :=
  (nonBlank actor).any fun a => champions.any fun c =>
    Text.contains (Text.toAsciiLowercase a) (Text.toAsciiLowercase c) ||
      Text.contains (Text.toAsciiLowercase c) (Text.toAsciiLowercase a)

/-- What the gate guards is as it was. -/
def SameGuarded (st₀ st : InMemoryTwinStore) : Prop :=
  ∀ key, key = rolesKv ∨ key = tomorrowFocusKv → st.getTenantKv tenantId key = st₀.getTenantKv tenantId key

/-- Every request is refused, and what is guarded stays. -/
def GateHolds (st : InMemoryTwinStore) (reqs : List (DateTime × GatedRequest)) : Prop :=
  EachStep (gatedStep embedded tenantId)
    (fun s x => (putGated embedded tenantId s x.1 x.2).1 = .error championRequired ∧
      SameGuarded tenantId st (gatedStep embedded tenantId s x)) st reqs

end Gate

section Proofs
variable {embedded : Bool} {tenantId : String} {st st₀ : InMemoryTwinStore} {actor : Option String}
  {x : DateTime × GatedRequest} {champions : List String}

theorem gatedStep_eq (st : InMemoryTwinStore) (x : DateTime × GatedRequest) :
    gatedStep embedded tenantId st x = (putGated embedded tenantId st x.1 x.2).2 := by
  obtain ⟨now, req⟩ := x
  cases req <;> rfl

theorem loadRolesConfig_of_same (h : SameGuarded tenantId st₀ st) :
    loadRolesConfig embedded tenantId st = loadRolesConfig embedded tenantId st₀ := by
  unfold loadRolesConfig
  rw [h rolesKv (.inl rfl)]

/-- Once somebody is listed, a champion is whoever is listed or has an overlapping name. -/
theorem actorIsChampion_eq (hchampions : championsOf (loadRolesConfig embedded tenantId st) = champions)
    (hstored : champions ≠ []) :
    actorIsChampion embedded tenantId st actor = (listed champions actor || overlaps champions actor) := by
  unfold actorIsChampion listed overlaps
  rw [hchampions]
  dsimp only
  rw [if_neg (by rwa [List.isEmpty_iff])]
  cases nonBlank actor with
  | none => rfl
  | some a =>
    rw [Option.any_some, Option.any_some, Bool.eq_iff_iff]
    simp only [List.any_eq_true, Bool.or_eq_true]
    constructor
    · rintro ⟨c, hc, (hlisted | hin) | hin⟩
      · exact .inl ⟨c, hc, hlisted⟩
      · exact .inr ⟨c, hc, .inl hin⟩
      · exact .inr ⟨c, hc, .inr hin⟩
    · rintro (⟨c, hc, hlisted⟩ | ⟨c, hc, hin | hin⟩)
      · exact ⟨c, hc, .inl (.inl hlisted)⟩
      · exact ⟨c, hc, .inl (.inr hin)⟩
      · exact ⟨c, hc, .inr hin⟩

/-- A request is refused, or goes past the gate. -/
theorem putGated_refused_iff : (putGated embedded tenantId st x.1 x.2).1 = .error championRequired ↔
    actorIsChampion embedded tenantId st x.2.actor = false := by
  unfold putGated requireChampion
  cases actorIsChampion embedded tenantId st x.2.actor with
  | false => exact iff_of_true rfl rfl
  | true =>
    refine iff_of_false ?_ Bool.noConfusion
    cases embedded <;> exact nofun

theorem putGated_of_refused (h : actorIsChampion embedded tenantId st x.2.actor = false) :
    (putGated embedded tenantId st x.1 x.2).2 = st := by
  unfold putGated requireChampion
  rw [h]
  rfl

/-- **One request.** From a state with the champions still listed, a stranger is refused exactly if his name
overlaps none. -/
theorem step_refused_iff (hchampions : championsOf (loadRolesConfig embedded tenantId st₀) = champions)
    (hstored : champions ≠ []) (hsame : SameGuarded tenantId st₀ st)
    (hstranger : listed champions x.2.actor = false) :
    (putGated embedded tenantId st x.1 x.2).1 = .error championRequired ↔
      overlaps champions x.2.actor = false := by
  rw [← loadRolesConfig_of_same hsame] at hchampions
  rw [putGated_refused_iff, actorIsChampion_eq hchampions hstored, hstranger, Bool.false_or]

/-- **The gate.** A sequence of requests by people who are not listed is refused as a whole, and leaves what is
guarded, exactly if none of their names contains a listed one or lies in it. -/
theorem gate_sound_iff (reqs : List (DateTime × GatedRequest))
    (hstored : championsOf (loadRolesConfig embedded tenantId st) ≠ [])
    (hstrangers : ∀ x ∈ reqs, listed (championsOf (loadRolesConfig embedded tenantId st)) x.2.actor = false) :
    GateHolds embedded tenantId st reqs ↔
      ∀ x ∈ reqs, overlaps (championsOf (loadRolesConfig embedded tenantId st)) x.2.actor = false := by
  unfold GateHolds
  -- the run is followed through states in which what is guarded is still that of `st`
  suffices hrun : ∀ s, SameGuarded tenantId st s → (EachStep (gatedStep embedded tenantId)
      (fun s x => (putGated embedded tenantId s x.1 x.2).1 = .error championRequired ∧
        SameGuarded tenantId st (gatedStep embedded tenantId s x)) s reqs ↔
      ∀ x ∈ reqs, overlaps (championsOf (loadRolesConfig embedded tenantId st)) x.2.actor = false) from
    hrun st fun _ _ => rfl
  induction reqs with
  | nil => exact fun s _ => iff_of_true trivial nofun
  | cons x xs ih =>
    intro s hs
    have hx := step_refused_iff rfl hstored hs (hstrangers x List.mem_cons_self)
    have hrest := ih fun y hy => hstrangers y (List.mem_cons_of_mem _ hy)
    rw [List.forall_mem_cons]
    constructor
    · rintro ⟨⟨hrefused, hkept⟩, hxs⟩
      exact ⟨hx.mp hrefused, (hrest _ hkept).mp hxs⟩
    · rintro ⟨hover, hxs⟩
      have hrefused := hx.mpr hover
      have hstay : gatedStep embedded tenantId s x = s := by
        rw [gatedStep_eq]
        exact putGated_of_refused (putGated_refused_iff.mp hrefused)
      have hkept : SameGuarded tenantId st (gatedStep embedded tenantId s x) := by
        rw [hstay]
        exact hs
      exact ⟨⟨hrefused, hkept⟩, (hrest _ hkept).mpr hxs⟩

end Proofs

def aliceListed : InMemoryTwinStore :=
  InMemoryTwinStore.new.putTenantKv "ten_demo" rolesKv (.obj [("champions", .ofStrings ["alice"])])

/-- A request that lists only its actor. -/
def takeOver (actor : String) : DateTime × GatedRequest :=
  (0, .putRoles ⟨none, none⟩ ⟨some [actor], none, some actor, none⟩)

/-- Bob stays out. -/
theorem bob_refused : GateHolds true "ten_demo" aliceListed [takeOver "bob"] :=
  (gate_sound_iff [takeOver "bob"] (by decide +kernel) (by decide +kernel)).mpr (by decide +kernel)

/-- Al does not: his name lies in that of Alice. -/
theorem al_takes_over : ¬ ∀ embedded tenantId st reqs, championsOf (loadRolesConfig embedded tenantId st) ≠ [] →
    (∀ x ∈ reqs, listed (championsOf (loadRolesConfig embedded tenantId st)) x.2.actor = false) →
    GateHolds embedded tenantId st reqs := by
  intro h
  have hgate := h true "ten_demo" aliceListed [takeOver "al"] (by decide +kernel) (by decide +kernel)
  have hrefused := putGated_refused_iff.mp hgate.1.1
  exact absurd hrefused (by decide +kernel)

end AiManager.Platform
