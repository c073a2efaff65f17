import AiManager.Platform.TwinWriters

/-! # Twin edits under concurrent writers

Every writer of a twin puts back the whole row that it read, with its own change. Between its read and its
write others may have written, and then their edits are gone: the bookkeeping of a delivery, for one, writes
the twin that the delivery was started with. What was set on a twin stands in every later state exactly if
every write finds stored what it keeps (`edits_stand_iff`). -/

namespace AiManager.Platform

open Lib Twins

-- a text that is not given has no length to compute
attribute [local irreducible] Text.trim

/-! ## What a write keeps -/

namespace TwinField
variable {f : TwinField} {a b c : Twin}

theorem Same.symm (h : f.Same a b) : f.Same b a := by cases f <;> exact Eq.symm h

theorem Same.trans (h : f.Same a b) (h' : f.Same b c) : f.Same a c := by cases f <;> exact Eq.trans h h'

theorem same_refl (f : TwinField) (a : Twin) : f.Same a a := by cases f <;> rfl

end TwinField

/-- Two rows are the same but for the bookkeeping of the notify policy and the time of their update. -/
structure SameButNotify (a b : Twin) : Prop where
  row : { a with configJson := b.configJson, updatedAt := b.updatedAt } = b
  config : ∀ key, key ≠ configKey → a.configJson.get key = b.configJson.get key

theorem SameButNotify.symm {a b : Twin} (h : SameButNotify a b) : SameButNotify b a := by
  refine ⟨?_, fun key hkey => (h.config key hkey).symm⟩
  rw [← h.row]

theorem SameButNotify.trans {a b c : Twin} (h : SameButNotify a b) (h' : SameButNotify b c) :
    SameButNotify a c := by
  refine ⟨?_, fun key hkey => (h.config key hkey).trans (h'.config key hkey)⟩
  rw [← h'.row, ← h.row]

theorem SameButNotify.same {a b : Twin} (h : SameButNotify a b) (f : TwinField) : f.Same a b := by
  cases f with
  | role => exact h.config "role" (by decide)
  | providerAliases => exact h.config "provider_aliases" (by decide)
  | enabled => exact (congrArg Twin.enabled h.row :)
  | channel => exact (congrArg Twin.channelId h.row :)
  | shadow => exact (congrArg Twin.shadowUntil h.row :)

/-- The bookkeeping is written next to everything else in the configuration. -/
theorem writeNotifyState_same (twin : Twin) (state : NotifyState) (now : DateTime) :
    SameButNotify twin (writeNotifyState twin state now) := by
  refine ⟨rfl, fun key hkey => ?_⟩
  unfold writeNotifyState
  dsimp only
  rw [Json.get_insert_ne _ hkey]
  cases twin.configJson <;> rfl

/-- What a writer of the repository may do: it keeps what it does not set. -/
def TwinOp.Keeps : TwinOp → Prop
  | .upsertTwin twin edit => ∀ f, f ∉ edit.sets → f.Same edit.base twin
  | .delivery twin op => op.OfStart twin
  | _ => True

/-! ### The programs -/

section Programs
variable {api : TwinApi} {now : DateTime}

theorem callsOnly_tryTwin {K : TwinOp → Prop} {op : TwinOp} (h : K op) : (tryTwin op).run.CallsOnly K :=
  Prog.CallsOnly.exceptT_bind (callsOnly_attempt (callsOnly_ask h)) fun _ => trivial

theorem startDelivery_keeps (x : StartInput) : (startDelivery api x).run.CallsOnly TwinOp.Keeps := by
  have hstart : (startAfterCompileOpts api.service x).run.CallsOnly (DeliveryOp.OfStart x.twin) :=
    startAfterCompileOpts_calls
  exact Prog.CallsOnly.exceptT_bind (hstart.mapCalls fun _ h => h) fun _ => trivial

theorem tryPutSlackMaps_calls {K : TwinOp → Prop} (h : ∀ m, K (.putSlackMap m)) (tenantId slack : String)
    (keys : List String) : (tryPutSlackMaps tenantId slack keys).run.CallsOnly K := by
  induction keys with
  | nil => trivial
  | cons k ks ih => exact Prog.CallsOnly.exceptT_bind (callsOnly_tryTwin (h _)) fun _ => ih

theorem tryPutSlackMaps_keeps (tenantId slack : String) (keys : List String) :
    (tryPutSlackMaps tenantId slack keys).run.CallsOnly TwinOp.Keeps :=
  tryPutSlackMaps_calls (fun _ => trivial) tenantId slack keys

theorem disabledDuplicate_same (keep dead : Twin) {f : TwinField} (hf : f ∉ [TwinField.enabled]) :
    f.Same dead (disabledDuplicate keep dead now) := by
  cases f with
  | enabled => simp at hf
  | channel | shadow => rfl
  | role | providerAliases =>
    exact ((Json.get_insert_ne _ (by decide) _).trans (Json.get_insert_ne _ (by decide) _)).symm

/-- A configuration that is no object has no fields. -/
theorem get_objectOrEmpty (config : Json) (key : String) :
    (if config.isObject then config else .obj []).get key = config.get key := by
  cases config <;> rfl

theorem mergeAliases_same (keep : Twin) (fold : List String) {f : TwinField}
    (hf : f ∉ [TwinField.providerAliases]) :
    f.Same keep { mergeAliasesIntoTwin keep fold with updatedAt := now } := by
  cases f with
  | providerAliases => simp at hf
  | enabled | channel | shadow => rfl
  | role => exact ((Json.get_insert_ne _ (by decide) _).trans (get_objectOrEmpty _ _)).symm

/-- The calls of the removal of duplicates are of the kind `K`. -/
structure PruneCalls (K : TwinOp → Prop) : Prop where
  clock : K .utcNow
  lists : ∀ tenantId, K (.listSlackMaps tenantId) ∧ K (.listTwins tenantId)
  map : ∀ m, K (.putSlackMap m)
  dead : ∀ keep dead now, K (.upsertTwin (disabledDuplicate keep dead now) ⟨dead, [.enabled]⟩)
  kept : ∀ keep fold now,
    K (.upsertTwin { mergeAliasesIntoTwin keep fold with updatedAt := now } ⟨keep, [.providerAliases]⟩)

section Prune
variable {K : TwinOp → Prop}

theorem disableDuplicates_calls (h : PruneCalls K) (keep : Twin) (dead : List Twin) :
    (disableDuplicates keep now dead).run.CallsOnly K := by
  induction dead with
  | nil => trivial
  | cons t rest ih => exact Prog.CallsOnly.exceptT_bind (callsOnly_tryTwin (h.dead keep t now)) fun _ => ih

theorem pruneGroup_calls (h : PruneCalls K) (tenantId slack : String) (group : List Twin) :
    (pruneGroup tenantId slack now group).run.CallsOnly K := by
  unfold pruneGroup
  split
  · trivial
  · next keep dead _ =>
    split_ifs
    · trivial
    · refine Prog.CallsOnly.exceptT_bind (disableDuplicates_calls h keep dead) fun _ => ?_
      refine Prog.CallsOnly.exceptT_bind (callsOnly_tryTwin (h.kept keep _ now)) fun _ => ?_
      exact tryPutSlackMaps_calls h.map _ _ _

theorem pruneGroups_calls (h : PruneCalls K) (tenantId : String) (groups : List (String × List Twin)) :
    (pruneGroups tenantId now groups).run.CallsOnly K := by
  induction groups with
  | nil => trivial
  | cons g rest ih => exact Prog.CallsOnly.exceptT_bind (pruneGroup_calls h _ _ _) fun _ => ih

theorem pruneDuplicateSlackTwins_calls (h : PruneCalls K) (tenantId : String) :
    (pruneDuplicateSlackTwins api tenantId).run.CallsOnly K := by
  refine Prog.CallsOnly.exceptT_bind (callsOnly_attempt (callsOnly_ask (h.lists tenantId).1)) fun maps => ?_
  refine Prog.CallsOnly.exceptT_bind (callsOnly_attempt (callsOnly_ask (h.lists tenantId).2)) fun twins => ?_
  exact Prog.CallsOnly.exceptT_bind (callsOnly_ask h.clock) fun now => pruneGroups_calls h _ _

end Prune

theorem pruneDuplicateSlackTwins_keeps (tenantId : String) :
    (pruneDuplicateSlackTwins api tenantId).run.CallsOnly TwinOp.Keeps := by
  apply pruneDuplicateSlackTwins_calls
  refine ⟨trivial, fun _ => ⟨trivial, trivial⟩, fun _ => trivial, ?_, ?_⟩
  · intro keep dead now f
    exact disabledDuplicate_same keep dead
  · intro keep fold now f
    exact mergeAliases_same keep fold

theorem get_withTeamsUser (config : Json) (tid : Option String) {key : String} (hkey : key ≠ "teams_user_id") :
    (withTeamsUser config tid).get key = config.get key := by
  cases tid with
  | none => rfl
  | some tid =>
    unfold withTeamsUser
    cases config with
    | obj fields => exact Json.get_insert_ne (.obj fields) hkey _
    | _ =>
      have hne : (key == "teams_user_id") = false := beq_eq_false_iff_ne.mpr hkey
      simp [Json.isObject, Json.get, List.lookup_cons, hne]

theorem get_withAliases (config : Json) (aliases : Option (List String)) {key : String}
    (hkey : key ≠ "provider_aliases") : (withAliases config aliases).get key = config.get key := by
  cases aliases with
  | none => rfl
  | some aliases =>
    unfold withAliases
    cases config with
    | obj fields => exact Json.get_insert_ne (.obj fields) hkey _
    | _ =>
      have hne : (key == "provider_aliases") = false := beq_eq_false_iff_ne.mpr hkey
      simp [Json.isObject, Json.get, List.lookup_cons, hne]

theorem memberTwin_same (tenantId : String) (body : TeamMemberBody) (existing : Option Twin)
    {f : TwinField} (hf : f ∉ body.sets) :
    f.Same (api.heldTwin existing now
      (newTwin tenantId (personTwinId body.subjectId) body.subjectId .person now))
      (memberTwin api tenantId body existing now) := by
  cases f with
  | enabled =>
    have hunset : body.enabled = none := by simpa [TeamMemberBody.sets] using hf
    unfold TwinField.Same memberTwin
    rw [hunset]
    cases existing <;> rfl
  | channel =>
    have hunset : body.channelId = none := by simpa [TeamMemberBody.sets] using hf
    unfold TwinField.Same memberTwin
    rw [hunset]
    cases existing <;> rfl
  | shadow =>
    have hunset : body.skipShadow.getD false = false := by
      have : body.skipShadow ≠ some true := by simpa [TeamMemberBody.sets] using hf
      cases hskip : body.skipShadow with
      | none => rfl
      | some b => cases b with
        | false => rfl
        | true => exact absurd hskip this
    unfold TwinField.Same memberTwin
    simp only [hunset, Bool.false_or, decide_eq_true_eq]
    cases existing <;> rfl
  | role =>
    have hunset : nonBlank body.role = none := by simpa [TeamMemberBody.sets] using hf
    unfold TwinField.Same memberTwin
    dsimp only
    rw [get_withAliases _ _ (by decide), hunset]
    refine Eq.trans ?_ (get_withTeamsUser _ _ (by decide)).symm
    cases existing <;> rfl
  | providerAliases =>
    have hunset : body.providerAliases = none := by simpa [TeamMemberBody.sets] using hf
    unfold TwinField.Same memberTwin
    dsimp only
    rw [hunset]
    have hrole : ∀ config role, (withRole config role).get "provider_aliases" =
        config.get "provider_aliases" := by
      intro config role
      cases role with
      | none => rfl
      | some role => exact Json.get_insert_ne _ (by decide) _
    refine Eq.trans ?_ ((hrole _ _).trans (get_withTeamsUser _ _ (by decide))).symm
    cases existing <;> rfl

theorem upsertTeamMember_keeps (tenantId : String) (body : TeamMemberBody) :
    (upsertTeamMember api tenantId body).run.CallsOnly TwinOp.Keeps := by
  unfold upsertTeamMember
  split_ifs
  · trivial
  · trivial
  · refine Prog.CallsOnly.exceptT_bind (callsOnly_ask trivial) fun now => ?_
    refine Prog.CallsOnly.exceptT_bind (callsOnly_ask trivial) fun existing => ?_
    refine Prog.CallsOnly.exceptT_bind
      (callsOnly_ask fun _ => memberTwin_same tenantId body existing) fun _ => ?_
    cases nonBlank body.slackUserId with
    | none => trivial
    | some slack =>
      refine Prog.CallsOnly.exceptT_bind (callsOnly_ask trivial) fun _ => ?_
      refine Prog.CallsOnly.exceptT_bind (tryPutSlackMaps_keeps _ _ _) fun _ => ?_
      exact pruneDuplicateSlackTwins_keeps tenantId

theorem requestedTwin_same (tenantId : String) (body : UpsertTwinRequest) (existing : Option Twin)
    {f : TwinField} (hf : f ∉ body.sets) :
    f.Same (api.heldTwin existing now
      (newTwin tenantId body.target body.subjectId body.twinKind now))
      (requestedTwin api tenantId body existing now) := by
  cases f with
  | enabled =>
    have hunset : body.enabled = none := by simpa [UpsertTwinRequest.sets] using hf
    unfold TwinField.Same requestedTwin
    rw [hunset]
    cases existing <;> rfl
  | channel =>
    have hunset : body.channelId = none := by simpa [UpsertTwinRequest.sets] using hf
    unfold TwinField.Same requestedTwin
    rw [hunset]
    cases existing <;> rfl
  | shadow =>
    have hunset : body.shadowUntil = none := by simpa [UpsertTwinRequest.sets] using hf
    unfold TwinField.Same requestedTwin
    simp only [hunset, Option.isNone_none, Bool.and_true, decide_eq_true_eq, Option.none_or]
    cases existing <;> rfl
  | role | providerAliases =>
    have hunset : body.configJson = none := by simpa [UpsertTwinRequest.sets] using hf
    unfold TwinField.Same requestedTwin
    rw [hunset]
    cases existing <;> rfl

theorem upsertTwin_keeps (tenantId : String) (body : UpsertTwinRequest) :
    (upsertTwin api tenantId body).run.CallsOnly TwinOp.Keeps := by
  unfold upsertTwin
  split_ifs
  · trivial
  · refine Prog.CallsOnly.exceptT_bind (callsOnly_ask trivial) fun now => ?_
    refine Prog.CallsOnly.exceptT_bind (callsOnly_ask trivial) fun existing => ?_
    refine Prog.CallsOnly.exceptT_bind
      (callsOnly_ask fun _ => requestedTwin_same tenantId body existing) fun _ => ?_
    cases body.slackUserId with
    | none => trivial
    | some slack => exact callsOnly_ask trivial

theorem compileTwin_keeps (tenantId twinId : String) (skipShadow : Option Bool) (x : StartInput) :
    (compileTwin api tenantId twinId skipShadow x).run.CallsOnly TwinOp.Keeps := by
  refine Prog.CallsOnly.exceptT_bind (callsOnly_ask trivial) fun existing => ?_
  cases existing with
  | none => trivial
  | some twin =>
    dsimp only
    split_ifs
    · refine Prog.CallsOnly.exceptT_bind (callsOnly_ask ?_) fun _ => startDelivery_keeps _
      intro f hf
      cases f with
      | shadow => simp at hf
      | _ => rfl
    · exact startDelivery_keeps _

theorem demoSimulate_keeps (body : DemoSimulateBody) (x : StartInput) :
    (demoSimulate api body x).run.CallsOnly TwinOp.Keeps := by
  refine Prog.CallsOnly.exceptT_bind (callsOnly_ask trivial) fun now => ?_
  refine Prog.CallsOnly.exceptT_bind (callsOnly_ask ?_) fun _ =>
    Prog.CallsOnly.exceptT_bind (callsOnly_ask trivial) fun _ => startDelivery_keeps _
  intro f hf
  cases f with
  | enabled | role | providerAliases => rfl
  | channel =>
    have hunset : body.channelId = none := by simpa [DemoSimulateBody.sets] using hf
    unfold TwinField.Same demoTwin
    rw [hunset]
  | shadow =>
    have hunset : body.skipShadow = none := by simpa [DemoSimulateBody.sets] using hf
    unfold TwinField.Same demoTwin
    rw [hunset]

theorem seededTwin_same (tw : Twin) (keys : List String) (display : String) {f : TwinField}
    (hf : f ∉ [TwinField.providerAliases]) : f.Same tw (seededTwin tw keys display now) := by
  cases f with
  | providerAliases => simp at hf
  | enabled | channel | shadow => rfl
  | role => exact (Json.get_insert_ne _ (by decide) _).symm

theorem seedSlackUser_keeps (tenantId channel slack : String) (keys : List String) :
    (seedSlackUser tenantId channel now slack keys).run.CallsOnly TwinOp.Keeps := by
  unfold seedSlackUser
  dsimp only
  refine Prog.CallsOnly.exceptT_bind (callsOnly_attempt (callsOnly_ask trivial)) fun maps => ?_
  refine Prog.CallsOnly.exceptT_bind (callsOnly_attempt (callsOnly_ask trivial)) fun twins => ?_
  split
  · refine Prog.CallsOnly.exceptT_bind (callsOnly_attempt (callsOnly_ask trivial)) fun existing => ?_
    split
    · refine Prog.CallsOnly.exceptT_bind (tryPutSlackMaps_keeps _ _ _) fun _ => ?_
      exact callsOnly_tryTwin fun _ => seededTwin_same _ _ _
    · trivial
  · refine Prog.CallsOnly.exceptT_bind (callsOnly_tryTwin fun f _ => f.same_refl _) fun _ => ?_
    refine Prog.CallsOnly.exceptT_bind (callsOnly_tryTwin trivial) fun _ => ?_
    exact tryPutSlackMaps_keeps _ _ _

theorem seedSlackUsers_keeps (tenantId channel : String) (groups : List (String × List String)) :
    (seedSlackUsers tenantId channel now groups).run.CallsOnly TwinOp.Keeps := by
  induction groups with
  | nil => trivial
  | cons g rest ih => exact Prog.CallsOnly.exceptT_bind (seedSlackUser_keeps _ _ _ _) fun _ => ih

theorem seedTeamFromEnv_keeps (raw tenantId channel : String) :
    (seedTeamFromEnv api raw tenantId channel).run.CallsOnly TwinOp.Keeps := by
  unfold seedTeamFromEnv
  split_ifs
  · trivial
  · refine Prog.CallsOnly.exceptT_bind (callsOnly_ask trivial) fun now => ?_
    refine Prog.CallsOnly.exceptT_bind (seedSlackUsers_keeps _ _ _) fun _ => ?_
    exact pruneDuplicateSlackTwins_keeps _

/-- Every writer keeps what it does not set. -/
theorem program_keeps (call : TwinCall) : (call.program api).run.CallsOnly TwinOp.Keeps := by
  cases call with
  | start x => exact startDelivery_keeps x
  | upsertTeamMember tenantId body => exact upsertTeamMember_keeps tenantId body
  | upsertTwin tenantId body => exact upsertTwin_keeps tenantId body
  | compileTwin tenantId twinId skipShadow x => exact compileTwin_keeps tenantId twinId skipShadow x
  | pruneTeamDuplicates tenantId => exact pruneDuplicateSlackTwins_keeps tenantId
  | demoSimulate body x => exact demoSimulate_keeps body x
  | seedTeamFromEnv raw tenantId channel => exact seedTeamFromEnv_keeps raw tenantId channel

end Programs

/-! ## Edits in a run -/

section Runs
variable {ι : Type}

/-- The twin that a call wrote, and what the write means; the bookkeeping of a delivery sets nothing. -/
def written : Event ι TwinOp TwinOp.Res → Option (Twin × TwinEdit)
  | ⟨_, .upsertTwin twin edit, .ok _⟩ => some (twin, edit)
  | ⟨_, .delivery base (.upsertTwin twin), .ok _⟩ => some (twin, ⟨base, []⟩)
  | _ => none

/-- The twin that the last write wrote which set the field. -/
def lastSet (f : TwinField) (k : String × String) (tr : List (Event ι TwinOp TwinOp.Res)) : Option Twin :=
  tr.findSome? fun e => (written e).bind fun w => if w.1.key = k ∧ f ∈ w.2.sets then some w.1 else none

/-- Whatever was set on a twin, and not set again, is stored. -/
def EditsStand (pool : TwinPool ι) : Prop :=
  ∀ f k set, lastSet f k pool.trace = some set →
    ∃ stored, pool.shared.store.twins.get k = some stored ∧ f.Same set stored

/-- Where the step writes the bookkeeping of a delivery, it changes nothing else. -/
def OnlyNotify (pool : TwinPool ι) (x : ι × Choice) : Prop :=
  ∀ base twin r old, pool.event twinAnswer x = some ⟨x.1, .delivery base (.upsertTwin twin), .ok r⟩ →
    pool.shared.store.twins.get twin.key = some old → SameButNotify old twin

/-- Where the step writes a twin, it finds stored what its writer keeps, in all fields that were set. -/
def KeepsStored (pool : TwinPool ι) (x : ι × Choice) : Prop :=
  ∀ e twin edit old, pool.event twinAnswer x = some e → written e = some (twin, edit) →
    pool.shared.store.twins.get twin.key = some old →
      ∀ f, f ∉ edit.sets → (lastSet f twin.key pool.trace).isSome → f.Same edit.base old

/-- Where the step writes the bookkeeping of a delivery, it finds stored the twin that was delivered. -/
def DeliveredIsStored (pool : TwinPool ι) (x : ι × Choice) : Prop :=
  ∀ base twin r old, pool.event twinAnswer x = some ⟨x.1, .delivery base (.upsertTwin twin), .ok r⟩ →
    pool.shared.store.twins.get twin.key = some old → SameButNotify base old

/-! ### One call -/

section Call
variable {c : Choice} {op : TwinOp} {s s' : DeliveryState} {r : op.Res} {i : ι}

theorem delivery_twins {op : DeliveryOp} {r : op.Res} (h : answer c op s = some (r, s'))
    (hop : ∀ twin, op ≠ .upsertTwin twin) : s'.store.twins = s.store.twins := by
  rcases answer_store h with heq | ⟨d, -, heq⟩ | ⟨d, -, heq⟩ | ⟨rec, -, heq⟩ | ⟨twin, htwin, -⟩
  · rw [heq]
  · rw [heq]
    unfold InMemoryTwinStore.putDraft
    split
    · split_ifs <;> rfl
    · rfl
  · rw [heq]
    unfold InMemoryTwinStore.updateDraft
    split_ifs <;> rfl
  · rw [heq]
    unfold InMemoryTwinStore.putPublishIfAbsent
    split_ifs <;> rfl
  · exact absurd htwin (hop twin)

/-- A call that writes no twin leaves them all. -/
theorem twins_of_not_written (h : twinAnswer c op s = some (r, s'))
    (hwritten : written (⟨i, op, r⟩ : Event ι TwinOp TwinOp.Res) = none) :
    s'.store.twins = s.store.twins := by
  cases op with
  | utcNow => cases h; rfl
  | getTwin _ _ | listTwins _ | listSlackMaps _ => obtain ⟨rfl, -⟩ := reading_eq h; rfl
  | putSlackMap m =>
    obtain ⟨-, -, rfl⟩ | ⟨-, rfl⟩ := writing_eq (f := fun st => st.putSlackMap m) h <;> rfl
  | upsertTwin twin edit =>
    obtain ⟨-, -, rfl⟩ | ⟨rfl, rfl⟩ := writing_eq (f := fun st => st.upsertTwin twin) h
    · rfl
    · cases hwritten
  | delivery base op =>
    by_cases hop : ∃ twin, op = .upsertTwin twin
    · obtain ⟨twin, rfl⟩ := hop
      obtain ⟨-, -, rfl⟩ | ⟨rfl, rfl⟩ := writing_eq (f := fun st => st.upsertTwin twin) h
      · rfl
      · cases hwritten
    · exact delivery_twins h fun twin htwin => hop ⟨twin, htwin⟩

/-- What a write did, and that its writer keeps what it does not set. -/
theorem written_spec (h : twinAnswer c op s = some (r, s')) (hkeeps : op.Keeps) {twin : Twin}
    {edit : TwinEdit} (hwritten : written (⟨i, op, r⟩ : Event ι TwinOp TwinOp.Res) = some (twin, edit)) :
    s'.store.twins = s.store.twins.put twin ∧ ∀ f, f ∉ edit.sets → f.Same edit.base twin := by
  unfold written at hwritten
  split at hwritten
  · next hevent =>
    cases hevent
    cases hwritten
    obtain ⟨⟨e, herror⟩, -⟩ | ⟨-, rfl⟩ := writing_eq (f := fun st => st.upsertTwin twin) h
    · cases herror
    · exact ⟨rfl, hkeeps⟩
  · next hevent =>
    cases hevent
    cases hwritten
    obtain ⟨⟨e, herror⟩, -⟩ | ⟨-, rfl⟩ := writing_eq (f := fun st => st.upsertTwin twin) h
    · cases herror
    · obtain ⟨state, now, rfl⟩ := hkeeps
      exact ⟨rfl, fun f _ => (writeNotifyState_same _ state now).same f⟩
  · cases hwritten

end Call

/-! ### The history -/

section History
variable {e : Event ι TwinOp TwinOp.Res} {tr : List (Event ι TwinOp TwinOp.Res)} {f : TwinField}
  {k : String × String} {twin : Twin} {edit : TwinEdit}

theorem lastSet_of_not_written (h : written e = none) : lastSet f k (e :: tr) = lastSet f k tr := by
  simp [lastSet, h]

theorem lastSet_self (h : written e = some (twin, edit)) (hset : f ∈ edit.sets) :
    lastSet f twin.key (e :: tr) = some twin := by
  simp [lastSet, h, hset]

theorem lastSet_other (h : written e = some (twin, edit)) (hset : ¬ (twin.key = k ∧ f ∈ edit.sets)) :
    lastSet f k (e :: tr) = lastSet f k tr := by
  simp [lastSet, h, hset]

end History

/-! ### One step -/

variable [DecidableEq ι] {pool : TwinPool ι} {x : ι × Choice}

/-- Where everything stands, it still does after a step exactly if the step finds stored what it keeps. -/
theorem editsStand_step_iff (hkeeps : ∀ i, (pool.threads i).CallsOnly TwinOp.Keeps)
    (hstand : EditsStand pool) : EditsStand (pool.step twinAnswer x) ↔ KeepsStored pool x := by
  rcases pool.event_cases twinAnswer x with ⟨hnone, heq⟩ | ⟨op, k, r, s, hk, hs, hevent, heq⟩
  · rw [heq]
    refine iff_of_true hstand fun e twin edit old he => ?_
    rw [hnone] at he
    cases he
  rw [heq]
  have hcall := hkeeps x.1
  rw [hk] at hcall
  cases hwritten : written (⟨x.1, op, r⟩ : Event ι TwinOp TwinOp.Res) with
  | none =>
    refine iff_of_true ?_ ?_
    · intro f key set hset
      rw [Pool.after_trace, lastSet_of_not_written hwritten] at hset
      rw [Pool.after_shared, twins_of_not_written hs hwritten]
      exact hstand f key set hset
    · intro e twin edit old he hw
      rw [hevent] at he
      cases he
      rw [hwritten] at hw
      cases hw
  | some w =>
    obtain ⟨twin, edit⟩ := w
    obtain ⟨hput, hsame⟩ := written_spec hs hcall.1 hwritten
    constructor
    · intro hafter e twin' edit' old he hw hold f hf hisSome
      rw [hevent] at he
      cases he
      rw [hwritten] at hw
      cases hw
      obtain ⟨set, hset⟩ := Option.isSome_iff_exists.mp hisSome
      obtain ⟨old', hold', hbefore⟩ := hstand f _ set hset
      rw [hold] at hold'
      cases hold'
      rw [← lastSet_other (e := ⟨x.1, op, r⟩) hwritten fun h => hf h.2] at hset
      obtain ⟨new, hnew, hthere⟩ := hafter f _ set hset
      rw [Pool.after_shared, hput, Table.get_put_self] at hnew
      cases hnew
      exact (hsame f hf).trans (hthere.symm.trans hbefore)
    · intro hfinds f key set hset
      rw [Pool.after_trace] at hset
      rw [Pool.after_shared, hput]
      by_cases hnow : twin.key = key ∧ f ∈ edit.sets
      · obtain ⟨rfl, hf⟩ := hnow
        rw [lastSet_self hwritten hf] at hset
        cases hset
        exact ⟨_, Table.get_put_self _ _, f.same_refl _⟩
      · rw [lastSet_other hwritten hnow] at hset
        obtain ⟨old, hold, hbefore⟩ := hstand f key set hset
        by_cases hkey : key = twin.key
        · subst hkey
          have hf : f ∉ edit.sets := fun hf => hnow ⟨rfl, hf⟩
          have hbase := hfinds _ twin edit old hevent hwritten hold f hf (by rw [hset]; rfl)
          exact ⟨twin, Table.get_put_self _ _, hbefore.trans (hbase.symm.trans (hsame f hf))⟩
        · exact ⟨old, by rw [Table.get_put_ne _ hkey, hold], hbefore⟩

/-- The bookkeeping of a delivery changes nothing else exactly if the stored twin is the one delivered. -/
theorem onlyNotify_iff (hkeeps : ∀ i, (pool.threads i).CallsOnly TwinOp.Keeps) :
    OnlyNotify pool x ↔ DeliveredIsStored pool x := by
  have hwrites : ∀ base twin r, pool.event twinAnswer x = some ⟨x.1, .delivery base (.upsertTwin twin), .ok r⟩ →
      SameButNotify base twin := by
    intro base twin r hevent
    rcases pool.event_cases twinAnswer x with ⟨hnone, -⟩ | ⟨op, k, r', s, hk, -, hevent', -⟩
    · rw [hnone] at hevent
      cases hevent
    · rw [hevent'] at hevent
      cases hevent
      have hcall := hkeeps x.1
      rw [hk] at hcall
      obtain ⟨state, now, rfl⟩ := hcall.1
      exact writeNotifyState_same base state now
  constructor
  · intro h base twin r old hevent hold
    exact (hwrites base twin r hevent).trans (h base twin r old hevent hold).symm
  · intro h base twin r old hevent hold
    exact (h base twin r old hevent hold).symm.trans (hwrites base twin r hevent)

end Runs

/-- **Edits stand.** In every interleaving of the writers, what was set on a twin is stored until it is set
again, and the bookkeeping of a delivery changes nothing else, exactly if every write finds stored what its
writer keeps, and every delivery the twin it was started with. -/
theorem edits_stand_iff {ι : Type} [DecidableEq ι] (api : TwinApi) (calls : ι → TwinCall) (s : DeliveryState)
    (sched : List (ι × Choice)) :
    let pool := TwinPool.start api calls s
    Throughout (Pool.step twinAnswer) EditsStand pool sched ∧
        EachStep (Pool.step twinAnswer) OnlyNotify pool sched ↔
      EachStep (Pool.step twinAnswer) KeepsStored pool sched ∧
        EachStep (Pool.step twinAnswer) DeliveredIsStored pool sched := by
  intro pool
  have hkeeps : ∀ i, (pool.threads i).CallsOnly TwinOp.Keeps := fun i => program_keeps (calls i)
  refine and_congr ?_ ?_
  · refine throughout_iff_of_invariant (I := fun pool : TwinPool ι => ∀ i, (pool.threads i).CallsOnly TwinOp.Keeps)
      (fun _ x h _ => Pool.step_callsOnly h x) (fun _ _ h hstand => editsStand_step_iff h hstand) hkeeps ?_
    intro f k set hset
    cases hset
  · exact eachStep_iff (I := fun pool : TwinPool ι => ∀ i, (pool.threads i).CallsOnly TwinOp.Keeps)
      (fun _ _ h => onlyNotify_iff h) (fun _ x h _ => Pool.step_callsOnly h x) hkeeps

/-! ### A member is disabled while a draft goes out -/

def mockApi : TwinApi := ⟨mockService, 0, false, id, id⟩

def memberAlice : Twin := newTwin "ten_demo" (personTwinId "gu_alice") "gu_alice" .person 0

def aliceStored : DeliveryState := ⟨(InMemoryTwinStore.new.upsertTwin memberAlice).2, [], []⟩

/-- A delivery of Alice's twin, read while it was enabled. -/
def aliceStart : StartInput where
  twin := memberAlice
  snap := { mediumLedger with
    tenantId := "ten_demo"
    ledger := { (default : StatusLedger) with items := [default] } }
  draftText := "fixed the login"
  now := 1
  allowNotify := true
  forceNotify := true

/-- The delivery, and the request that disables the twin. -/
def aliceCalls : Bool → TwinCall
  | false => .start aliceStart
  | true => .upsertTeamMember "ten_demo"
      { subjectId := "gu_alice", displayName := none, slackUserId := none, teamsUserId := some "29:alice",
        channelId := none, providerAliases := none, enabled := some false, skipShadow := none, role := none }

/-- The draft is created and sent, then the request is served, then the bookkeeping is written. -/
def aliceSchedule : List (Bool × Choice) :=
  [false, false, false, false, false, true, true, true, false].map fun who => (who, smooth "a")

/-- The request is served, and the twin enabled again by the write that follows. -/
theorem disabled_twin_enabled_again :
    let pool := TwinPool.start mockApi aliceCalls aliceStored
    let enabled (n : Nat) := ((pool.run twinAnswer (aliceSchedule.take n)).shared.store.twins.get
      memberAlice.key).map (·.enabled)
    enabled 7 = some true ∧ enabled 8 = some false ∧ enabled 9 = some true ∧
      ((pool.run twinAnswer aliceSchedule).trace.map (·.who)).length = 9 ∧
      ¬ Throughout (Pool.step twinAnswer) EditsStand pool aliceSchedule := by
  intro pool enabled
  refine ⟨by decide +kernel, by decide +kernel, by decide +kernel, by decide +kernel, fun hstand => ?_⟩
  have hset : (lastSet .enabled memberAlice.key (pool.run twinAnswer aliceSchedule).trace).map (·.enabled) =
      some false := by decide +kernel
  have hstored : ((pool.run twinAnswer aliceSchedule).shared.store.twins.get memberAlice.key).map (·.enabled) =
      some true := by decide +kernel
  obtain ⟨set, hlast, hfalse⟩ := Option.map_eq_some_iff.mp hset
  have hend : EditsStand (pool.run twinAnswer aliceSchedule) := hstand.last
  obtain ⟨stored, hget, hsame⟩ := hend .enabled _ set hlast
  rw [hget, Option.map_some] at hstored
  have htrue : stored.enabled = true := Option.some.inj hstored
  rw [← hsame, hfalse] at htrue
  cases htrue

end AiManager.Platform
