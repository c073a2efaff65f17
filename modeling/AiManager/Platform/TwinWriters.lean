import AiManager.Platform.Scheduler
import AiManager.Twins.StartCalls

/-! # Writers of twins

A stored twin is written as a whole, and each of its writers works on a twin that it read earlier: the
bookkeeping of a delivery, the handlers of the twin service, the seed of a team and the removal of
duplicates. One store call, one chat call or one reading of the clock is one step of a writer. A write
carries what its writer means by it, which the store does not look at. -/

namespace AiManager.Platform

open Lib Twins

/-! ## Fields and edits -/

/-- What people set on a twin. -/
inductive TwinField where
  | enabled
  | channel
  | role
  | shadow
  | providerAliases
  deriving DecidableEq

/-- The field has one value in both twins. -/
def TwinField.Same (a b : Twin) : TwinField → Prop
  | enabled => a.enabled = b.enabled
  | channel => a.channelId = b.channelId
  | role => a.configJson.get "role" = b.configJson.get "role"
  | shadow => a.shadowUntil = b.shadowUntil
  | providerAliases => a.configJson.get "provider_aliases" = b.configJson.get "provider_aliases"

/-- What a write means: the fields that it sets, and the twin whose values it keeps in the others. -/
structure TwinEdit where
  base : Twin
  sets : List TwinField

/-! ## Calls -/

inductive TwinOp where
  | utcNow
  | getTwin (tenantId twinId : String)
  | listTwins (tenantId : String)
  | listSlackMaps (tenantId : String)
  | putSlackMap (m : SlackUserMap)
  | upsertTwin (twin : Twin) (edit : TwinEdit)
  /-- a call of the delivery of `twin` -/
  | delivery (twin : Twin) (op : DeliveryOp)

namespace TwinOp

@[reducible] def Val : TwinOp → Type
  | utcNow => DateTime
  | getTwin _ _ => Option Twin
  | listTwins _ => List Twin
  | listSlackMaps _ => List SlackUserMap
  | putSlackMap _ => Unit
  | upsertTwin _ _ => Unit
  | delivery _ op => op.Val

abbrev Res : TwinOp → Type := Fallible TwinError Val

end TwinOp

def listSlackMaps (st : InMemoryTwinStore) (tenantId : String) : List SlackUserMap :=
  st.slackMap.values.filter fun m => m.tenantId = tenantId

def twinAnswer : Answer TwinOp TwinOp.Res DeliveryState Choice := fun c op s =>
  match op with
  | .utcNow => some (.ok c.now, s)
  | .getTwin tenantId twinId => s.reading c (s.store.getTwin tenantId twinId)
  | .listTwins tenantId => s.reading c (s.store.listTwins tenantId)
  | .listSlackMaps tenantId => s.reading c (listSlackMaps s.store tenantId)
  | .putSlackMap m => s.writing c fun st => st.putSlackMap m
  | .upsertTwin twin _ => s.writing c fun st => st.upsertTwin twin
  | .delivery _ op => answer c op s

abbrev TwinM (α : Type) := ExceptT TwinError (Prog TwinOp TwinOp.Res) α

abbrev askTwin (op : TwinOp) : TwinM op.Val := Lib.ask op

/-- `let _ = call.await` -/
def tryTwin (op : TwinOp) : TwinM Unit := do
  let _ ← attempt (askTwin op)
  return ()

/-! ## Programs -/

/-- What the handlers take from the configuration, and the order in which a hash map is gone through. -/
structure TwinApi where
  service : DeliveryService
  shadowModeDays : Int
  highAutoPublishDefault : Bool
  teamOrder : List (String × List Twin) → List (String × List Twin)
  seedOrder : List (String × List String) → List (String × List String)

def personTwinId (globalUserId : String) : String := "twin:person:" ++ globalUserId
def teamTwinId (teamNodeId : String) : String := "twin:team:" ++ teamNodeId

def displayTimezone : String := "Asia/Kolkata"

/-- A delivery of a twin that was read earlier. -/
def startDelivery (api : TwinApi) (x : StartInput) : TwinM Unit := do
  let _ ← ExceptT.mk ((startAfterCompileOpts api.service x).run.mapCalls (.delivery x.twin) fun _ r => r)
  return ()

/-! ### Duplicates -/

/-- Put a value into the group of its key. -/
def pushGroup {α : Type} (key : String) (value : α) : List (String × List α) → List (String × List α)
  | [] => [(key, [value])]
  | (k, group) :: rest =>
    if k = key then (k, group ++ [value]) :: rest else (k, group) :: pushGroup key value rest

/-- The enabled person twins by chat user. -/
def bySlack (maps : List SlackUserMap) (twins : List Twin) : List (String × List Twin) :=
  (twins.filter fun t => t.twinKind = .person && t.enabled).foldl
    (fun groups t =>
      let slack := ((maps.find? fun m => m.globalUserId = t.subjectId).map (·.slackUserId)).getD ""
      if slack = "" then groups else pushGroup slack t groups) []

def keeperScore (t : Twin) : Nat :=
  if Text.startsWith t.subjectId "gu_seed_" then 0
  else if Text.startsWith t.subjectId "gu_" then 2
  else 1

/-- Real `gu_` subjects first, then the most recently updated. -/
def keptBefore (a b : Twin) : Prop :=
  keeperScore b < keeperScore a ∨ (keeperScore a = keeperScore b ∧ b.updatedAt ≤ a.updatedAt)

instance : DecidableRel keptBefore := fun a b => by unfold keptBefore; infer_instance

def addAlias (aliases : List String) (a : String) : List String :=
  if a = "" ∨ a ∈ aliases then aliases else aliases ++ [a]

/-- Merge alias keys into the configuration of a twin. -/
def mergeAliasesIntoTwin (t : Twin) (extra : List String) : Twin :=
  let aliases := (extra.map Text.trim).foldl addAlias (twinAliasList t)
  let config := if t.configJson.isObject then t.configJson else .obj []
  { t with configJson := config.insert "provider_aliases" (.ofStrings aliases) }

def disabledDuplicate (keep dead : Twin) (now : DateTime) : Twin :=
  { dead with
    enabled := false
    updatedAt := now
    configJson := (dead.configJson.insert "disabled_reason" (.str "duplicate_slack_prune")).insert
      "merged_into" (.str keep.twinId) }

def disableDuplicates (keep : Twin) (now : DateTime) : List Twin → TwinM Unit
  | [] => return ()
  | dead :: rest => do
    tryTwin (.upsertTwin (disabledDuplicate keep dead now) ⟨dead, [.enabled]⟩)
    disableDuplicates keep now rest

def isNumeric (k : String) : Bool := k.toList.all Char.isDigit

def tryPutSlackMaps (tenantId slack : String) : List String → TwinM Unit
  | [] => return ()
  | k :: ks => do
    tryTwin (.putSlackMap ⟨tenantId, k, slack, ""⟩)
    tryPutSlackMaps tenantId slack ks

/-- Keep the first twin of a group, disable the others and fold their identities into the first. -/
def pruneGroup (tenantId slack : String) (now : DateTime) (group : List Twin) : TwinM Unit :=
  match group.insertionSort keptBefore with
  | [] => return ()
  | keep :: dead =>
    if dead.isEmpty then return ()
    else do
      disableDuplicates keep now dead
      let fold := dead.flatMap fun t => t.subjectId :: twinAliasList t
      tryTwin (.upsertTwin { mergeAliasesIntoTwin keep fold with updatedAt := now }
        ⟨keep, [.providerAliases]⟩)
      tryPutSlackMaps tenantId slack (fold.filter fun k => Text.startsWith k "gu_" || isNumeric k)

def pruneGroups (tenantId : String) (now : DateTime) : List (String × List Twin) → TwinM Unit
  | [] => return ()
  | (slack, group) :: rest => do
    pruneGroup tenantId slack now group
    pruneGroups tenantId now rest

/-- The answer of a listing, `unwrap_or_default`. -/
def listedOrNone {α : Type} (r : Except TwinError (List α)) : List α := r.toOption.getD []

/-- Keep one enabled person twin per chat user. -/
def pruneDuplicateSlackTwins (api : TwinApi) (tenantId : String) : TwinM Unit := do
  let maps ← attempt (askTwin (.listSlackMaps tenantId))
  let twins ← attempt (askTwin (.listTwins tenantId))
  let now ← askTwin .utcNow
  pruneGroups tenantId now (api.teamOrder (bySlack (listedOrNone maps) (listedOrNone twins)))

/-! ### Team members -/

structure TeamMemberBody where
  subjectId : String
  displayName : Option String
  slackUserId : Option String
  teamsUserId : Option String
  channelId : Option String
  providerAliases : Option (List String)
  enabled : Option Bool
  skipShadow : Option Bool
  role : Option String

/-- The text without blanks around it, if anything is left. -/
def nonBlank (s : Option String) : Option String := (s.map Text.trim).filter fun s => s ≠ ""

def withTeamsUser (config : Json) : Option String → Json
  | some tid =>
    if config.isObject then config.insert "teams_user_id" (.str tid)
    else .obj [("teams_user_id", .str tid)]
  | none => config

def withRole (config : Json) : Option String → Json
  | some role =>
    config.insert "role" (.str (if Text.eqIgnoreAsciiCase role "champion" then "champion" else "member"))
  | none => config

/-- Merge aliases, the old ones first. -/
def withAliases (config : Json) : Option (List String) → Json
  | some aliases =>
    let old := (((config.get "provider_aliases").bind Json.asArray).getD []).filterMap Json.asStr
    let merged := Json.ofStrings ((aliases.map Text.trim).foldl addAlias old)
    if config.isObject then config.insert "provider_aliases" merged
    else .obj [("provider_aliases", merged)]
  | none => config

/-- A twin in shadow mode: where no end is set, it is the default one. -/
def TwinApi.shadowed (api : TwinApi) (now : DateTime) (shadowUntil : Option DateTime) : Option DateTime :=
  if api.shadowModeDays ≤ 0 then none
  else shadowUntil.or (some (now + api.shadowModeDays * DateTime.nanosPerDay))

/-- The twin that a handler starts from: the stored one, or a new one. -/
def TwinApi.heldTwin (api : TwinApi) (existing : Option Twin) (now : DateTime) (fresh : Twin) : Twin :=
  let held := existing.getD fresh
  { held with shadowUntil := api.shadowed now held.shadowUntil }

def newTwin (tenantId twinId subjectId : String) (kind : TwinKind) (now : DateTime) : Twin where
  tenantId := tenantId
  twinId := twinId
  twinKind := kind
  subjectId := subjectId
  displayName := ""
  timezone := displayTimezone
  channelId := ""
  shadowUntil := none
  highAutoPublish := false
  enabled := true
  configJson := .obj []
  createdAt := now
  updatedAt := now

/-- The fields that a request sets. -/
def TeamMemberBody.sets (body : TeamMemberBody) : List TwinField :=
  (if body.enabled.isSome then [.enabled] else []) ++
  (if body.channelId.isSome then [.channel] else []) ++
  (if (nonBlank body.role).isSome then [.role] else []) ++
  (if body.skipShadow = some true then [.shadow] else []) ++
  (if body.providerAliases.isSome then [.providerAliases] else [])

def memberTwin (api : TwinApi) (tenantId : String) (body : TeamMemberBody) (existing : Option Twin)
    (now : DateTime) : Twin where
  tenantId := tenantId
  twinId := personTwinId body.subjectId
  twinKind := .person
  subjectId := body.subjectId
  displayName := (body.displayName.or (existing.map (·.displayName))).getD body.subjectId
  timezone := (existing.map (·.timezone)).getD displayTimezone
  channelId := (body.channelId.or (existing.map (·.channelId))).getD ""
  shadowUntil :=
    if body.skipShadow.getD false || decide (api.shadowModeDays ≤ 0) then none
    else (existing.bind (·.shadowUntil)).or (some (now + api.shadowModeDays * DateTime.nanosPerDay))
  highAutoPublish := (existing.map (·.highAutoPublish)).getD false
  enabled := body.enabled.getD ((existing.map (·.enabled)).getD true)
  configJson :=
    withAliases (withRole (withTeamsUser ((existing.map (·.configJson)).getD (.obj []))
      (nonBlank body.teamsUserId)) (nonBlank body.role)) body.providerAliases
  createdAt := (existing.map (·.createdAt)).getD now
  updatedAt := now

/-- Upsert one team member: the person twin, its Slack map and its aliases. -/
def upsertTeamMember (api : TwinApi) (tenantId : String) (body : TeamMemberBody) : TwinM Unit :=
  if Text.trim body.subjectId = "" then throw (.validation "subject_id required")
  else if (nonBlank body.slackUserId).isNone && (nonBlank body.teamsUserId).isNone then
    throw (.validation "slack_user_id or teams_user_id required (chat delivery destination)")
  else do
    let now ← askTwin .utcNow
    let twinId := personTwinId body.subjectId
    let existing ← askTwin (.getTwin tenantId twinId)
    askTwin (.upsertTwin (memberTwin api tenantId body existing now)
      ⟨api.heldTwin existing now (newTwin tenantId twinId body.subjectId .person now), body.sets⟩)
    match nonBlank body.slackUserId with
    | none => return ()
    | some slack => do
      askTwin (.putSlackMap ⟨tenantId, body.subjectId, slack, ""⟩)
      -- Alias keys also map for the bridge
      tryPutSlackMaps tenantId slack
        (((body.providerAliases.getD []).map Text.trim).filter fun a => a ≠ "")
      pruneDuplicateSlackTwins api tenantId

/-! ### Twins -/

structure UpsertTwinRequest where
  twinKind : TwinKind
  subjectId : String
  displayName : Option String
  timezone : Option String
  channelId : Option String
  shadowUntil : Option DateTime
  highAutoPublish : Option Bool
  enabled : Option Bool
  configJson : Option Json
  twinId : Option String
  slackUserId : Option String

def UpsertTwinRequest.sets (body : UpsertTwinRequest) : List TwinField :=
  (if body.enabled.isSome then [.enabled] else []) ++
  (if body.channelId.isSome then [.channel] else []) ++
  (if body.shadowUntil.isSome then [.shadow] else []) ++
  (if body.configJson.isSome then [.role, .providerAliases] else [])

/-- The twin that the request is about. -/
def UpsertTwinRequest.target (body : UpsertTwinRequest) : String :=
  body.twinId.getD (match body.twinKind with
    | .person => personTwinId body.subjectId
    | .team => teamTwinId body.subjectId)

def requestedTwin (api : TwinApi) (tenantId : String) (body : UpsertTwinRequest) (existing : Option Twin)
    (now : DateTime) : Twin where
  tenantId := tenantId
  twinId := body.target
  twinKind := body.twinKind
  subjectId := body.subjectId
  displayName := (body.displayName.or (existing.map (·.displayName))).getD ""
  timezone := (body.timezone.or (existing.map (·.timezone))).getD displayTimezone
  channelId := (body.channelId.or (existing.map (·.channelId))).getD ""
  shadowUntil :=
    if decide (api.shadowModeDays ≤ 0) && body.shadowUntil.isNone then none
    else body.shadowUntil.or
      ((existing.bind (·.shadowUntil)).or (some (now + api.shadowModeDays * DateTime.nanosPerDay)))
  highAutoPublish :=
    body.highAutoPublish.getD ((existing.map (·.highAutoPublish)).getD api.highAutoPublishDefault)
  enabled := body.enabled.getD ((existing.map (·.enabled)).getD true)
  configJson := body.configJson.getD ((existing.map (·.configJson)).getD (.obj []))
  createdAt := (existing.map (·.createdAt)).getD now
  updatedAt := now

def upsertTwin (api : TwinApi) (tenantId : String) (body : UpsertTwinRequest) : TwinM Unit :=
  if tenantId = "" then throw (.validation "tenant_id required")
  else do
    let now ← askTwin .utcNow
    let existing ← askTwin (.getTwin tenantId body.target)
    askTwin (.upsertTwin (requestedTwin api tenantId body existing now)
      ⟨api.heldTwin existing now (newTwin tenantId body.target body.subjectId body.twinKind now), body.sets⟩)
    match body.slackUserId with
    | none => return ()
    | some slack => askTwin (.putSlackMap ⟨tenantId, body.subjectId, slack, ""⟩)

/-! ### Compiles on demand -/

/-- Compile one twin and deliver what was compiled, `x` but for its twin. A compile that fails goes no
further. -/
def compileTwin (api : TwinApi) (tenantId twinId : String) (skipShadow : Option Bool) (x : StartInput) :
    TwinM Unit := do
  let some twin ← askTwin (.getTwin tenantId twinId) | throw (.notFound "twin")
  if skipShadow = some true then
    let twin' := { twin with shadowUntil := none }
    askTwin (.upsertTwin twin' ⟨twin, [.shadow]⟩)
    startDelivery api { x with twin := twin' }
  else startDelivery api { x with twin := twin }

structure DemoSimulateBody where
  tenantId : Option String
  globalUserId : Option String
  displayName : Option String
  slackUserId : Option String
  channelId : Option String
  skipShadow : Option Bool

def DemoSimulateBody.sets (body : DemoSimulateBody) : List TwinField :=
  (if body.channelId.isSome then [.channel] else []) ++
  (if body.skipShadow.isSome then [.shadow] else [])

/-- The twin of a demo, whatever is stored. -/
def demoTwin (api : TwinApi) (body : DemoSimulateBody) (now : DateTime) : Twin where
  tenantId := body.tenantId.getD "ten_demo"
  twinId := personTwinId (body.globalUserId.getD "gu_alice")
  twinKind := .person
  subjectId := body.globalUserId.getD "gu_alice"
  displayName := body.displayName.getD "Alice"
  timezone := displayTimezone
  channelId := body.channelId.getD "C_DEMO"
  shadowUntil :=
    if body.skipShadow.getD true then none
    else some (now + api.shadowModeDays * DateTime.nanosPerDay)
  highAutoPublish := false
  enabled := true
  configJson := .obj [("demo", .bool true)]
  createdAt := now
  updatedAt := now

/-- The demo: its twin, its Slack map, and a delivery. -/
def demoSimulate (api : TwinApi) (body : DemoSimulateBody) (x : StartInput) : TwinM Unit := do
  let now ← askTwin .utcNow
  let twin := demoTwin api body now
  let unset := { body with channelId := none, skipShadow := none }
  askTwin (.upsertTwin twin ⟨demoTwin api unset now, body.sets⟩)
  askTwin (.putSlackMap ⟨twin.tenantId, twin.subjectId, body.slackUserId.getD "U_DEMO", ""⟩)
  startDelivery api { x with twin := twin }

/-! ### The seed of a team -/

/-- One entry `key:slack` of the map in the environment. -/
def seedEntry (part : String) : Option (String × String) :=
  match Text.before (Text.trim part) ":" with
  | none => none
  | some key =>
    let slack := Text.trim (String.ofList ((Text.trim part).toList.drop (key.length + 1)))
    let key := Text.trim key
    if key = "" ∨ slack = "" then none else some (slack, key)

/-- The keys by chat user. -/
def seedGroups (raw : String) : List (String × List String) :=
  ((Text.split raw ',').filterMap seedEntry).foldl (fun groups e => pushGroup e.1 e.2 groups) []

def loginScore (k : String) : Nat :=
  if Text.startsWith k "gu_" then 2 else if isNumeric k then 1 else 0

def loginBefore (a b : String) : Prop :=
  loginScore a < loginScore b ∨ (loginScore a = loginScore b ∧ ¬ b < a)

instance : DecidableRel loginBefore := fun a b => by unfold loginBefore; infer_instance

/-- The subject that has the chat user: that of an enabled twin, or any. -/
def existingSubject (maps : List SlackUserMap) (twins : List Twin) (slack : String) : Option String :=
  ((maps.filter fun m => m.slackUserId = slack).findSome? fun m =>
    (twins.find? fun t => t.twinKind = .person && t.enabled && t.subjectId = m.globalUserId
      && !Text.startsWith t.subjectId "gu_seed_").map (·.subjectId)).or
  ((maps.find? fun m => m.slackUserId = slack).map (·.globalUserId))

/-- The twin with the keys among its aliases; a configuration that is no object stays as it is. -/
def seededTwin (tw : Twin) (keys : List String) (display : String) (now : DateTime) : Twin :=
  let old := (((tw.configJson.get "provider_aliases").bind Json.asArray).getD []).filterMap Json.asStr
  let aliases := keys.foldl (fun as k => if k ∈ as then as else as ++ [k]) old
  { tw with
    configJson := tw.configJson.insert "provider_aliases" (.ofStrings aliases)
    displayName := if Text.startsWith tw.displayName "user_" || tw.displayName = "" then display
      else tw.displayName
    updatedAt := now }

def provisionalTwin (tenantId channel login : String) (keys : List String) (now : DateTime) : Twin :=
  { newTwin tenantId (personTwinId ("gu_seed_" ++ login)) ("gu_seed_" ++ login) .person now with
    displayName := login
    channelId := channel
    configJson := .obj [("provider_aliases", .ofStrings keys), ("seeded", .bool true)] }

/-- Seed the twin of one chat user. -/
def seedSlackUser (tenantId channel : String) (now : DateTime) (slack : String) (keys : List String) :
    TwinM Unit := do
  let keys := keys.insertionSort loginBefore
  let login := (keys.find? fun k => !Text.startsWith k "gu_" && !isNumeric k).getD (keys.headD "")
  let maps ← attempt (askTwin (.listSlackMaps tenantId))
  let twins ← attempt (askTwin (.listTwins tenantId))
  match existingSubject (listedOrNone maps) (listedOrNone twins) slack with
  | some subject => do
    match ← attempt (askTwin (.getTwin tenantId (personTwinId subject))) with
    | .ok (some tw) => do
      tryPutSlackMaps tenantId slack keys
      tryTwin (.upsertTwin (seededTwin tw keys login now) ⟨tw, [.providerAliases]⟩)
    | _ => return ()
  | none => do
    let twin := provisionalTwin tenantId channel login keys now
    tryTwin (.upsertTwin twin ⟨twin, [.channel, .providerAliases]⟩)
    tryTwin (.putSlackMap ⟨tenantId, twin.subjectId, slack, ""⟩)
    tryPutSlackMaps tenantId slack keys

def seedSlackUsers (tenantId channel : String) (now : DateTime) : List (String × List String) → TwinM Unit
  | [] => return ()
  | (slack, keys) :: rest => do
    seedSlackUser tenantId channel now slack keys
    seedSlackUsers tenantId channel now rest

/-- Seed person twins from the map of chat users, one twin per chat user. -/
def seedTeamFromEnv (api : TwinApi) (raw tenantId channel : String) : TwinM Unit :=
  if Text.trim raw = "" then return ()
  else do
    let now ← askTwin .utcNow
    seedSlackUsers tenantId channel now (api.seedOrder (seedGroups raw))
    pruneDuplicateSlackTwins api tenantId

/-! ## Writers at work -/

inductive TwinCall where
  | start (x : StartInput)
  | upsertTeamMember (tenantId : String) (body : TeamMemberBody)
  | upsertTwin (tenantId : String) (body : UpsertTwinRequest)
  | compileTwin (tenantId twinId : String) (skipShadow : Option Bool) (x : StartInput)
  | pruneTeamDuplicates (tenantId : String)
  | demoSimulate (body : DemoSimulateBody) (x : StartInput)
  | seedTeamFromEnv (raw tenantId channel : String)

def TwinCall.program (api : TwinApi) : TwinCall → TwinM Unit
  | .start x => startDelivery api x
  | .upsertTeamMember tenantId body => Platform.upsertTeamMember api tenantId body
  | .upsertTwin tenantId body => Platform.upsertTwin api tenantId body
  | .compileTwin tenantId twinId skipShadow x => Platform.compileTwin api tenantId twinId skipShadow x
  | .pruneTeamDuplicates tenantId => pruneDuplicateSlackTwins api tenantId
  | .demoSimulate body x => Platform.demoSimulate api body x
  | .seedTeamFromEnv raw tenantId channel => Platform.seedTeamFromEnv api raw tenantId channel

/-- Any number of writers over one store. -/
abbrev TwinPool (ι : Type) := Pool ι TwinOp TwinOp.Res DeliveryState (TwinResult Unit)

def TwinPool.start {ι : Type} (api : TwinApi) (calls : ι → TwinCall) (s : DeliveryState) : TwinPool ι :=
  ⟨s, fun i => ((calls i).program api).run, []⟩

end AiManager.Platform
