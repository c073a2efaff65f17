import AiManager.Platform.SlackDeliveries

/-! # Whose draft a typed decision is about

A member of the team has one row for the subject and one for each alias, all with the same chat user, and a
listing returns them in any order. The handler takes the first row of the sender and derives the twin from it,
so a decision reaches the draft of the sender exactly if the row of the subject comes first
(`decision_reaches_iff`). -/

namespace AiManager.Platform

open Lib Twins

/-! ## The states of a team -/

/-- The states that members and drafts lead to. -/
inductive Built (api : TwinApi) (tenantId : String) : DeliveryState → Prop
  | new : Built api tenantId ⟨.new, [], []⟩
  | member {s s' : DeliveryState} {body : TeamMemberBody} {cs : ℕ → Choice} {r : TwinResult Unit}
    (h : Built api tenantId s)
    (hexec : (upsertTeamMember api tenantId body).run.exec twinAnswer cs s = some (r, s')) :
    Built api tenantId s'
  | draft {s : DeliveryState} {st : InMemoryTwinStore} {d : DraftDelivery} (h : Built api tenantId s)
    (hput : s.store.putDraft d = (.ok (), st)) : Built api tenantId { s with store := st }

/-! ## Listings in any order -/

/-- The order in which a listing returns its rows. -/
structure RowOrder where
  order : List SlackUserMap → List SlackUserMap
  perm : ∀ rows, (order rows).Perm rows

/-- The store of the handler, when the Slack maps are listed in an order. -/
def orderedAnswer (o : RowOrder) : Answer SlackOp SlackOp.Res DeliveryState ListChoice := fun c op s =>
  match op with
  | .list (.listSlackMaps tenantId) => s.reading c.toChoice (o.order (mapsOf s.store tenantId))
  | op => slackAnswer c op s

/-- The calls with which the handler looks for a draft. -/
def SlackOp.looks : SlackOp → Bool
  | .list (.listSlackMaps _) | .getTwin _ _ | .listDraftsForTwin _ _ => true
  | _ => false

/-- What is done about a draft. -/
def SlackDecision.program (act : SlackDecision) (api : SlackApi) (twin : Twin) (d : DraftDelivery) : SlackM Unit :=
  match act with
  | .dontSend => overDelivery (vetoDraft api.tenantId d.draftId)
  | .approve => overDelivery (explicitPublish api.service twin api.tenantId d.draftId)

section Decisions
variable (api : SlackApi) (o : RowOrder) (s : DeliveryState) (body : Json)

/-- After it has looked, the handler does with the draft what is to be done. -/
def DecidesOn (act : SlackDecision) (twin : Twin) (d : DraftDelivery) : Prop :=
  ∀ cs, (∀ n, Sound (cs n)) → ∃ lookups n, (∀ op ∈ lookups, op.looks = true) ∧
    (slackEvents api body).calls (orderedAnswer o) cs s =
      lookups ++ (act.program api twin d).calls (orderedAnswer o) (fun i => cs (i + n)) s

/-- The row maps the sender to an enabled person twin. -/
structure MappedTo (m : SlackMessage) (x : SlackUserMap) (twin : Twin) : Prop where
  row : x ∈ mapsOf s.store api.tenantId
  user : x.slackUserId = m.user
  stored : s.store.getTwin api.tenantId (personTwinId x.globalUserId) = some twin
  person : twin.twinKind = .person
  enabled : twin.enabled = true

/-- No draft of the twin is newer. -/
structure Newest (twin : Twin) (d : DraftDelivery) : Prop where
  mem : d ∈ draftsForTwin s.store api.tenantId twin.twinId
  newest : ∀ d' ∈ draftsForTwin s.store api.tenantId twin.twinId, d'.updatedAt ≤ d.updatedAt

/-- A typed decision reaches the newest draft of every twin that the sender is mapped to. -/
def Reaches : Prop :=
  ∀ m act x twin, callbackMessage body = some m → m.decision = some act → MappedTo api s m x twin →
    draftsForTwin s.store api.tenantId twin.twinId ≠ [] → ∃ d, Newest api s twin d ∧ DecidesOn api o s body act twin d

/-- The first row of the sender is that of the twin's subject. -/
def OwnRowFirst : Prop :=
  ∀ m act x twin, callbackMessage body = some m → m.decision = some act → MappedTo api s m x twin →
    draftsForTwin s.store api.tenantId twin.twinId ≠ [] →
      ∀ y, (o.order (mapsOf s.store api.tenantId)).find? (fun y => y.slackUserId = m.user) = some y →
        y.globalUserId = x.globalUserId

end Decisions

/-! ## What the handler calls -/

/-- The draft that the handler finds. -/
def found (api : SlackApi) (o : RowOrder) (st : InMemoryTwinStore) (m : SlackMessage) :
    Option (Twin × DraftDelivery) :=
  ((o.order (mapsOf st api.tenantId)).find? fun x => x.slackUserId = m.user).bind fun x =>
    (st.twins.get (api.tenantId, personTwinId x.globalUserId)).bind fun twin =>
      (draftsForTwin st api.tenantId twin.twinId).head?.map fun d => (twin, d)

section Calls
variable {api : SlackApi} {o : RowOrder} {s : DeliveryState} {body : Json} {m : SlackMessage}
  {act : SlackDecision} {twin : Twin} {d : DraftDelivery} {cs : ℕ → ListChoice}

theorem reading_sound {α : Type} {c : ListChoice} (h : Sound c) (v : α) :
    s.reading c.toChoice v = some (.ok v, s) := by
  unfold DeliveryState.reading
  rw [show c.fault = none from h]

variable (api o s twin d) in
/-- To decide about a draft begins with loading it. -/
theorem program_calls (act : SlackDecision) (cs : ℕ → ListChoice) : ∃ rest,
    (act.program api twin d).calls (orderedAnswer o) cs s =
      .delivery (.getDraft api.tenantId d.draftId) :: rest := by
  have hcall : ∃ k, act.program api twin d = Prog.call (.delivery (.getDraft api.tenantId d.draftId)) k := by
    cases act <;> exact ⟨_, rfl⟩
  obtain ⟨k, hk⟩ := hcall
  rw [hk, Prog.calls]
  exact ⟨_, rfl⟩

theorem lookup_calls {β : Type} {op : SlackOp} {r : op.Res} (h : orderedAnswer o (cs 0) op s = some (r, s))
    (f : op.Res → SlackM β) : (callSlack op >>= f).calls (orderedAnswer o) cs s =
      op :: (f r).calls (orderedAnswer o) (fun n => cs (n + 1)) s := by
  show (Prog.call op f).calls (orderedAnswer o) cs s = _
  rw [Prog.calls, h]

theorem orderedAnswer_maps {c : ListChoice} (h : Sound c) (t : String) :
    orderedAnswer o c (.list (.listSlackMaps t)) s = some (.ok (o.order (mapsOf s.store t)), s) :=
  reading_sound h _

theorem orderedAnswer_twin {c : ListChoice} (h : Sound c) (t twinId : String) :
    orderedAnswer o c (.getTwin t twinId) s = some (.ok (s.store.twins.get (t, twinId)), s) :=
  reading_sound h _

theorem orderedAnswer_drafts {c : ListChoice} (h : Sound c) (t twinId : String) :
    orderedAnswer o c (.listDraftsForTwin t twinId) s = some (.ok (draftsForTwin s.store t twinId), s) :=
  reading_sound h _

variable (api o m act) in
/-- The handler looks for a draft, and decides about the one that it finds. -/
theorem honorDecision_calls (hcs : ∀ n, Sound (cs n)) : ∃ lookups, (∀ op ∈ lookups, op.looks = true) ∧
    (honorDecision api m act).calls (orderedAnswer o) cs s = lookups ++ match found api o s.store m with
      | some (twin, d) => (act.program api twin d).calls (orderedAnswer o) (fun i => cs (i + 3)) s
      | none => [] := by
  unfold found honorDecision
  rw [lookup_calls (orderedAnswer_maps (hcs 0) _)]
  dsimp only
  cases (o.order (mapsOf s.store api.tenantId)).find? fun x => x.slackUserId = m.user with
  | none => exact ⟨[_], by simp [SlackOp.looks], rfl⟩
  | some x =>
    dsimp only
    rw [lookup_calls (orderedAnswer_twin (hcs 1) _ _)]
    rw [Option.bind_some]
    cases s.store.twins.get (api.tenantId, personTwinId x.globalUserId) with
    | none => exact ⟨[_, _], by simp [SlackOp.looks], rfl⟩
    | some twin =>
      dsimp only
      rw [lookup_calls (orderedAnswer_drafts (hcs 2) _ _)]
      rw [Option.bind_some]
      cases draftsForTwin s.store api.tenantId twin.twinId with
      | nil => exact ⟨[_, _, _], by simp [SlackOp.looks], rfl⟩
      | cons d rest => cases act <;> exact ⟨[_, _, _], by simp [SlackOp.looks], rfl⟩

theorem slackEvents_calls (hm : callbackMessage body = some m) (hact : m.decision = some act)
    (cs : ℕ → ListChoice) : (slackEvents api body).calls (orderedAnswer o) cs s =
      (honorDecision api m act).calls (orderedAnswer o) cs s := by
  unfold slackEvents
  split_ifs with hverify
  · unfold callbackMessage at hm
    rw [hverify] at hm
    cases hm
  · rw [hm]
    show ((handleMessage api m).bind fun _ => .pure _).calls (orderedAnswer o) cs s = _
    rw [Prog.calls_bind_pure]
    unfold handleMessage
    rw [hact]

/-- What is found is what the handler decides about. -/
theorem decidesOn_of_found (hm : callbackMessage body = some m) (hact : m.decision = some act)
    (h : found api o s.store m = some (twin, d)) : DecidesOn api o s body act twin d := by
  intro cs hcs
  obtain ⟨lookups, hlooks, hcalls⟩ := honorDecision_calls api o m act hcs
  rw [h] at hcalls
  exact ⟨lookups, 3, hlooks, (slackEvents_calls hm hact cs).trans hcalls⟩

theorem found_of_decidesOn (hm : callbackMessage body = some m) (hact : m.decision = some act)
    (h : DecidesOn api o s body act twin d) :
    ∃ twin' d', found api o s.store m = some (twin', d') ∧ d'.draftId = d.draftId := by
  obtain ⟨cs, hcs⟩ : ∃ cs : ℕ → ListChoice, ∀ n, Sound (cs n) :=
    ⟨fun _ => ⟨smooth "", .ok (), .ok .null⟩, fun _ => rfl⟩
  obtain ⟨lookups, n, hlooks, hcalls⟩ := h cs hcs
  obtain ⟨lookups', hlooks', hcalls'⟩ := honorDecision_calls api o m act hcs
  rw [slackEvents_calls hm hact, hcalls'] at hcalls
  obtain ⟨rest, hrest⟩ := program_calls api o s twin d act fun i => cs (i + n)
  rw [hrest] at hcalls
  -- what is left without the lookups is the decision
  have hleft := congrArg (List.dropWhile SlackOp.looks) hcalls
  rw [List.dropWhile_append_of_pos hlooks', List.dropWhile_append_of_pos hlooks,
    List.dropWhile_cons_of_neg Bool.false_ne_true] at hleft
  cases hfound : found api o s.store m with
  | none =>
    rw [hfound] at hleft
    cases hleft
  | some p =>
    obtain ⟨twin', d'⟩ := p
    obtain ⟨rest', hrest'⟩ := program_calls api o s twin' d' act fun i => cs (i + 3)
    rw [hfound] at hleft
    dsimp only at hleft
    rw [hrest', List.dropWhile_cons_of_neg Bool.false_ne_true] at hleft
    have hhead := (List.cons.inj hleft).1
    injection hhead with hhead
    injection hhead with _ hid
    exact ⟨twin', d', rfl, hid⟩

end Calls

/-! ## The rows of the sender -/

theorem personTwinId_injective : Function.Injective personTwinId := fun _ _ h => (String.append_right_inj _).mp h

section Rows
variable {api : SlackApi} {o : RowOrder} {s : DeliveryState} {body : Json}

theorem ownRowFirst_of_reaches (h : Reaches api o s body) : OwnRowFirst api o s body := by
  intro m act x twin hm hact hmapped hdrafts y hy
  obtain ⟨d, hnewest, hdecides⟩ := h m act x twin hm hact hmapped hdrafts
  obtain ⟨twin', d', hfound, hid⟩ := found_of_decidesOn hm hact hdecides
  unfold found at hfound
  rw [hy, Option.bind_some] at hfound
  obtain ⟨twin₁, hstored, hfound⟩ := Option.bind_eq_some_iff.mp hfound
  obtain ⟨d₁, hd₁, heq⟩ := Option.map_eq_some_iff.mp hfound
  cases heq
  obtain ⟨hget', htenant', hown'⟩ := mem_draftsForTwin.mp (List.mem_of_mem_head? hd₁)
  obtain ⟨hget, htenant, hown⟩ := mem_draftsForTwin.mp hnewest.mem
  -- a draft is known by its tenant and its id, and belongs to one twin
  have hkey : d'.key = d.key := Prod.ext (htenant'.trans htenant.symm) hid
  rw [hkey, hget] at hget'
  cases hget'
  have htwin : twin.twinId = personTwinId x.globalUserId := congrArg Prod.snd (Table.key_of_get hmapped.stored)
  have htwin' : twin'.twinId = personTwinId y.globalUserId := congrArg Prod.snd (Table.key_of_get hstored)
  refine personTwinId_injective ?_
  rw [← htwin', ← htwin, ← hown, hown']

theorem reaches_of_ownRowFirst (h : OwnRowFirst api o s body) : Reaches api o s body := by
  intro m act x twin hm hact hmapped hdrafts
  cases hy : (o.order (mapsOf s.store api.tenantId)).find? fun y => y.slackUserId = m.user with
  | none =>
    refine absurd hmapped.user ?_
    simpa using List.find?_eq_none.mp hy x ((o.perm _).mem_iff.mpr hmapped.row)
  | some y =>
    cases hlist : draftsForTwin s.store api.tenantId twin.twinId with
    | nil => exact absurd hlist hdrafts
    | cons d rest =>
      refine ⟨d, ⟨by rw [hlist]; exact List.mem_cons_self, fun d' hd' => ?_⟩, decidesOn_of_found hm hact ?_⟩
      · have hsorted : (draftsForTwin s.store api.tenantId twin.twinId).Pairwise fun a b =>
            b.updatedAt ≤ a.updatedAt :=
          List.pairwise_insertionSort (fun a b : DraftDelivery => b.updatedAt ≤ a.updatedAt) _
        rw [hlist] at hsorted hd'
        rcases List.mem_cons.mp hd' with rfl | hrest
        · exact le_rfl
        · exact (List.pairwise_cons.mp hsorted).1 d' hrest
      · have hstored : s.store.twins.get (api.tenantId, personTwinId x.globalUserId) = some twin := hmapped.stored
        unfold found
        rw [hy, Option.bind_some, h m act x twin hm hact hmapped hdrafts y hy, hstored, Option.bind_some, hlist]
        rfl

end Rows

/-- **Own drafts.** A typed decision reaches the newest draft of whoever the sender is mapped to, exactly if the
sender's first row is the one of that twin. -/
theorem decision_reaches_iff (api : SlackApi) (o : RowOrder) (s : DeliveryState) (body : Json) :
    Reaches api o s body ↔ OwnRowFirst api o s body :=
  ⟨ownRowFirst_of_reaches, reaches_of_ownRowFirst⟩

/-! ### An alias comes first -/

def teamApi : TwinApi := ⟨⟨.slack, {}⟩, 0, false, id, id⟩

def decisionApi : SlackApi :=
  ⟨⟨true, fun c => c.toUpper.toString, Char.isAlphanum, fun _ => "", "", ""⟩, ⟨.slack, {}⟩, some "ten_demo", ""⟩

/-- A member with a login as alias. -/
def aliasedMember : TeamMemberBody :=
  ⟨"gu_alice", none, some "U1", none, none, some ["alice"], none, none, none⟩

def memberDraft : DraftDelivery :=
  { (default : DraftDelivery) with tenantId := "ten_demo", draftId := "drf_1", twinId := personTwinId "gu_alice" }

def approval : Json :=
  .obj [("type", .str "event_callback"), ("event", .obj [("type", .str "message"), ("channel", .str "D1"),
    ("user", .str "U1"), ("ts", .str "1.0"), ("text", .str "approve")])]

def asListed : RowOrder := ⟨id, fun _ => .refl _⟩

/-- The member is given a draft. -/
def aliasedState (s : DeliveryState) : DeliveryState := { s with store := (s.store.putDraft memberDraft).2 }

/-- The row of the alias is listed before the member's own. -/
def AliasFirst (s : DeliveryState) : Prop :=
  (s.store.putDraft memberDraft).1 = .ok () ∧
  memberDraft ∈ draftsForTwin (aliasedState s).store "ten_demo" (personTwinId "gu_alice") ∧
  (⟨"ten_demo", "gu_alice", "U1", ""⟩ : SlackUserMap) ∈ mapsOf (aliasedState s).store "ten_demo" ∧
  ((aliasedState s).store.getTwin "ten_demo" (personTwinId "gu_alice")).any
    (fun twin => twin.twinKind = .person && twin.enabled) = true ∧
  (mapsOf (aliasedState s).store "ten_demo").find? (fun y => y.slackUserId = "U1") =
    some ⟨"ten_demo", "alice", "U1", ""⟩

instance (s : DeliveryState) : Decidable (AliasFirst s) := by unfold AliasFirst; infer_instance

/-- The approval of a member is dropped: the row of the alias comes first, and no twin goes by it. -/
theorem aliased_approval_dropped : ¬ ∀ tapi api o s body, Built tapi api.tenantId s → Reaches api o s body := by
  intro h
  have hrun : ((upsertTeamMember teamApi "ten_demo" aliasedMember).run.exec twinAnswer (fun _ => smooth "")
      ⟨.new, [], []⟩).any (fun p => AliasFirst p.2) = true := by decide +kernel
  obtain ⟨⟨r, s⟩, hexec, hfirst⟩ := (Option.any_eq_true _ _).mp hrun
  obtain ⟨hput, hdraft, hrow, htwin, hhead⟩ := of_decide_eq_true hfirst
  have hbuilt : Built teamApi "ten_demo" (aliasedState s) := .draft (.member .new hexec) (Prod.ext hput rfl)
  obtain ⟨twin, hstored, hperson⟩ := (Option.any_eq_true _ _).mp htwin
  obtain ⟨hkind, henabled⟩ := Bool.and_eq_true_iff.mp hperson
  have hm : callbackMessage approval = some ⟨"approve", "U1", "D1", "1.0", true, false⟩ := by decide +kernel
  have hown : memberDraft ∈ draftsForTwin (aliasedState s).store "ten_demo" twin.twinId := by
    have hid : twin.twinId = personTwinId "gu_alice" := congrArg Prod.snd (Table.key_of_get hstored)
    rw [hid]
    exact hdraft
  have hsame := ownRowFirst_of_reaches (h teamApi decisionApi asListed (aliasedState s) approval hbuilt) _ .approve
    ⟨"ten_demo", "gu_alice", "U1", ""⟩ twin hm (by decide +kernel)
    ⟨hrow, rfl, hstored, of_decide_eq_true hkind, henabled⟩ (List.ne_nil_of_mem hown) _ hhead
  exact absurd hsame (by decide)


end AiManager.Platform
