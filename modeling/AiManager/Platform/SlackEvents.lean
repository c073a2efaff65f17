import AiManager.Platform.TenantLists
import AiManager.Platform.TwinWriters

/-! # Events from Slack

Slack calls one handler for every message that it lets the bot see. A short text decides about the sender's
latest draft; any other message in a channel or a direct message may close or make a commitment and may be kept
as an intent claim. Confidences are given in hundredths. -/

namespace AiManager.Platform

open Lib Twins

/-! ## Calls -/

inductive SlackOp where
  | list (op : ListOp)
  | delivery (op : DeliveryOp)
  | getTwin (tenantId twinId : String)
  | listDraftsForTwin (tenantId twinId : String)
  /-- a request to the graph service -/
  | projectV2 (url : String) (body : Json)

@[reducible] def SlackOp.Res : SlackOp → Type
  | list op => op.Res
  | delivery op => op.Res
  | getTwin _ _ => TwinResult (Option Twin)
  | listDraftsForTwin _ _ => TwinResult (List DraftDelivery)
  | projectV2 _ _ => Unit

/-- The drafts of a twin, the latest first. -/
def draftsForTwin (st : InMemoryTwinStore) (tenantId twinId : String) : List DraftDelivery :=
  (st.drafts.values.filter fun d => d.tenantId = tenantId ∧ d.twinId = twinId).insertionSort
    fun a b => b.updatedAt ≤ a.updatedAt

section Drafts
variable {d : DraftDelivery}

theorem mem_draftsForTwin {st : InMemoryTwinStore} {t twinId : String} :
    d ∈ draftsForTwin st t twinId ↔ st.drafts.get d.key = some d ∧ d.tenantId = t ∧ d.twinId = twinId := by
  unfold draftsForTwin
  rw [List.mem_insertionSort, List.mem_filter, Table.mem_values, decide_eq_true_iff]

/-- The draft that is later than all others comes first. -/
theorem head_draftsForTwin {st : InMemoryTwinStore} {t twinId : String} (hmem : d ∈ draftsForTwin st t twinId)
    (hlatest : ∀ x ∈ draftsForTwin st t twinId, x ≠ d → x.updatedAt < d.updatedAt) :
    (draftsForTwin st t twinId).head? = some d := by
  have hsorted : (draftsForTwin st t twinId).Pairwise fun a b => b.updatedAt ≤ a.updatedAt :=
    List.pairwise_insertionSort (fun a b : DraftDelivery => b.updatedAt ≤ a.updatedAt) _
  cases hdrafts : draftsForTwin st t twinId with
  | nil =>
    rw [hdrafts] at hmem
    cases hmem
  | cons x rest =>
    rw [hdrafts] at hmem hlatest hsorted
    rcases List.mem_cons.mp hmem with rfl | hrest
    · rfl
    · by_contra hne
      have hx : x ≠ d := fun heq => hne (by rw [heq]; rfl)
      exact absurd (hlatest x List.mem_cons_self hx) (not_lt.mpr ((List.pairwise_cons.mp hsorted).1 d hrest))

end Drafts

/-- The graph service is only told; what it answers is dropped. -/
def slackAnswer : Answer SlackOp SlackOp.Res DeliveryState ListChoice := fun c op s =>
  match op with
  | .list op => listAnswer c op s
  | .delivery op => answer c.toChoice op s
  | .getTwin tenantId twinId => s.reading c.toChoice (s.store.twins.get (tenantId, twinId))
  | .listDraftsForTwin tenantId twinId => s.reading c.toChoice (draftsForTwin s.store tenantId twinId)
  | .projectV2 _ _ => some ((), s)

/-- Programs that answer Slack, whatever happens. -/
abbrev SlackM (α : Type) := Prog SlackOp SlackOp.Res α

def callSlack (op : SlackOp) : SlackM op.Res := Prog.perform op

/-- A program over the lists of a tenant, whose error is dropped. -/
def overLists (p : ListM Unit) : SlackM Unit := do
  let _ ← p.run.mapCalls .list fun _ r => r
  return ()

/-- A program of the delivery, whose result is dropped. -/
def overDelivery {α : Type} (p : DeliveryM α) : SlackM Unit := do
  let _ ← p.run.mapCalls .delivery fun _ r => r
  return ()

structure SlackApi where
  lists : ListApi
  service : DeliveryService
  defaultTenantId : Option String
  v2BaseUrl : String

def SlackApi.tenantId (api : SlackApi) : String := api.defaultTenantId.getD "ten_github"

/-! ## Messages -/

/-- What the handler takes from a message event. -/
structure SlackMessage where
  /-- trimmed -/
  text : String
  user : String
  channel : String
  ts : String
  isDm : Bool
  isChannel : Bool
  deriving DecidableEq

def isSlackChannelMessage (ev : Json) : Bool :=
  let channelType := (ev.getStr "channel_type").getD ""
  if channelType = "channel" || channelType = "group" then true
  else
    let channel := (ev.getStr "channel").getD ""
    Text.startsWith channel "C" || Text.startsWith channel "G"

def isSlackDmMessage (ev : Json) : Bool :=
  let channelType := (ev.getStr "channel_type").getD ""
  if channelType = "im" || channelType = "mpim" then true
  else Text.startsWith ((ev.getStr "channel").getD "") "D"

/-- The message of an event; those of bots, edits and joins are ignored. -/
def slackMessage (ev : Json) : Option SlackMessage :=
  let subtype := (ev.getStr "subtype").getD ""
  let ignoreSub := subtype ≠ "" && subtype ≠ "file_share" && subtype ≠ "thread_broadcast"
  if (ev.getStr "type").getD "" = "message" && !ignoreSub && (ev.get "bot_id").isNone then
    some {
      text := Text.trim ((ev.getStr "text").getD "")
      user := (ev.getStr "user").getD ""
      channel := (ev.getStr "channel").getD ""
      ts := (ev.getStr "ts").getD ""
      isDm := isSlackDmMessage ev
      isChannel := isSlackChannelMessage ev }
  else none

inductive SlackDecision where
  | approve
  | dontSend
  deriving DecidableEq

/-- Approve, or don't send. -/
def SlackMessage.decision (m : SlackMessage) : Option SlackDecision :=
  let text := Text.toAsciiLowercase m.text
  if text = "approve" || text = "a" || Text.startsWith text "approve " || text = "✅" then some .approve
  else if text = "don't send" || text = "dont send" || text = "veto" || text = "reject" || text = "no" then
    some .dontSend
  else none

/-! ## Intent of a text -/

/-- Phrases, the intent they speak of, and what they are worth. -/
def intentPatterns : List (String × String × Nat) :=
  [("blocked by", "BLOCKED", 90), ("blocked on", "BLOCKED", 90), ("waiting on", "BLOCKED", 80),
    ("blocked:", "BLOCKED", 85), ("[blocked]", "BLOCKED", 90), ("i'm blocked", "BLOCKED", 90),
    ("im blocked", "BLOCKED", 90), ("code freeze", "FREEZE", 90), ("do not merge", "FREEZE", 90),
    ("don't merge", "FREEZE", 90), ("donotmerge", "FREEZE", 90), ("hold merge", "FREEZE", 80),
    ("freeze ", "FREEZE", 75), ("freeze:", "FREEZE", 80), ("hotfix", "FIX", 85), ("bugfix", "FIX", 85),
    ("fix:", "FIX", 80), ("fix ", "FIX", 70), ("working on", "SHIP", 72), ("ready to ship", "SHIP", 90),
    ("ship ", "SHIP", 75), ("shipping ", "SHIP", 75), ("release ", "SHIP", 75), ("deploy ", "SHIP", 70),
    ("launch ", "SHIP", 70), ("merge to main", "SHIP", 75), ("feat:", "SHIP", 65), ("feature:", "SHIP", 65),
    ("spike:", "EXPLORE", 85), ("spike ", "EXPLORE", 80), ("poc:", "EXPLORE", 80), ("explore ", "EXPLORE", 70),
    ("research ", "EXPLORE", 70), ("rfc:", "REVIEW", 85), ("wip:", "EXPLORE", 60), ("[wip]", "EXPLORE", 65)]

/-- Rules-first classifier: the intent and its confidence. -/
def classifySlackIntentText (text : String) : String × Nat :=
  let hay := Text.toAsciiLowercase text
  match intentPatterns.find? fun p => Text.contains hay p.1 with
  | some p => p.2
  | none => ("OTHER", 25)

def truncatePreview (text : String) (max : Nat) : String :=
  let t := Text.trim text
  if t.toList.length ≤ max then t else Text.take max t ++ "…"

namespace SlackMessage

/-- Whether the message is kept as a claim. -/
def keywordHit (m : SlackMessage) : Bool :=
  let text := Text.toAsciiLowercase m.text
  decide (70 ≤ (classifySlackIntentText m.text).2) || Text.contains text "blocked on"
    || Text.contains text "working on" || Text.contains text "freeze" || Text.contains text "ready to ship"
    || Text.contains text "do not merge" || Text.contains text "don't merge"

/-- The sender, if a map knows the user. -/
def subject (m : SlackMessage) (maps : List SlackUserMap) : String :=
  match maps.find? fun x => x.slackUserId = m.user with
  | some x => x.globalUserId
  | none => if m.user = "" then "unknown" else "slack:" ++ m.user

def channelLabel (m : SlackMessage) : String := if m.isDm then "dm" else m.channel

def chat (m : SlackMessage) (maps : List SlackUserMap) : ChatMessage :=
  ⟨m.subject maps, m.text, m.channelLabel, m.ts, m.isDm⟩

def claim (m : SlackMessage) (maps : List SlackUserMap) (at? : String) : Json :=
  let (itype, conf) := classifySlackIntentText m.text
  .obj [("at", .str at?), ("slack_user", .str m.user), ("subject", .str (m.subject maps)),
    ("text_preview", .str (truncatePreview m.text previewMax)), ("intent_type", .str itype),
    ("channel", .str m.channelLabel), ("ts", .str m.ts), ("confidence", .num conf 2),
    ("source", .str (if m.isDm then "slack_dm" else "slack_channel"))]

/-- The event that the graph service is told. -/
def projection (m : SlackMessage) (maps : List SlackUserMap) (tenantId occurredAt : String) : Json :=
  let (itype, conf) := classifySlackIntentText m.text
  let preview := truncatePreview m.text previewMax
  let ts := String.ofList (m.ts.toList.map fun c => if c = '.' then '_' else c)
  let eventId := "slack-intent-" ++ m.channelLabel ++ "-" ++ ts
  .obj [("tenant_id", .str tenantId), ("event_id", .str eventId), ("event_type", .str "intent.stated"),
    ("provider", .str "slack"), ("occurred_at", .str occurredAt),
    ("actor", .obj [("provider_user_id", .str (m.subject maps))]),
    ("resource", .obj [("kind", .str "intent"), ("provider_id", .str ("intent:slack:" ++ eventId)),
      ("title", .str (itype ++ ": " ++ preview))]),
    ("payload", .obj [("intent_type", .str itype), ("confidence", .num conf 2),
      ("source", .str "slack_channel_claim"), ("text_preview", .str preview), ("channel", .str m.channelLabel)])]

end SlackMessage

/-! ## The handler -/

/-- A decision is about the latest draft of the sender's twin; without one it is dropped. -/
def honorDecision (api : SlackApi) (m : SlackMessage) (act : SlackDecision) : SlackM Unit := do
  match ← callSlack (.list (.listSlackMaps api.tenantId)) with
  | .error _ => return ()
  | .ok maps =>
    match maps.find? fun x => x.slackUserId = m.user with
    | none => return ()
    | some x => do
      match ← callSlack (.getTwin api.tenantId (personTwinId x.globalUserId)) with
      | .ok (some twin) => do
        match ← callSlack (.listDraftsForTwin api.tenantId twin.twinId) with
        | .ok (d :: _) =>
          match act with
          | .dontSend => overDelivery (vetoDraft api.tenantId d.draftId)
          | .approve => overDelivery (explicitPublish api.service twin api.tenantId d.draftId)
        | _ => return ()
      | _ => return ()

/-- Keep the message as a claim, and tell the graph service of it if that is sure enough. -/
def captureClaim (api : SlackApi) (m : SlackMessage) (maps : List SlackUserMap) : SlackM Unit := do
  let now ← callSlack (.list .utcNow)
  overLists (pushSlackIntentClaim api.lists api.tenantId (m.claim maps now.formatIstRfc3339))
  let v2 := Text.trimEndMatches api.v2BaseUrl "/"
  if v2 ≠ "" && decide (75 ≤ (classifySlackIntentText m.text).2) then do
    let now ← callSlack (.list .utcNow)
    callSlack (.projectV2 (v2 ++ "/v2/project") (m.projection maps api.tenantId now.toRfc3339))
  else return ()

/-- Free text: commitments first, then the claim. -/
def handleFreeText (api : SlackApi) (m : SlackMessage) : SlackM Unit := do
  let maps ← callSlack (.list (.listSlackMaps api.tenantId))
  let maps := maps.toOption.getD []
  overLists (maybeHandleCommitmentFromSlack api.lists api.tenantId (m.chat maps))
  if m.keywordHit then captureClaim api m maps else return ()

def handleMessage (api : SlackApi) (m : SlackMessage) : SlackM Unit :=
  match m.decision with
  | some act => honorDecision api m act
  | none => if m.isChannel || m.isDm then handleFreeText api m else return ()

/-- The message that a callback brings. -/
def callbackMessage (body : Json) : Option SlackMessage :=
  if body.getStr "type" = some "event_callback" then slackMessage ((body.get "event").getD (.obj [])) else none

def slackEvents (api : SlackApi) (body : Json) : SlackM Json :=
  if body.getStr "type" = some "url_verification" then
    return .obj [("challenge", (body.get "challenge").getD .null)]
  else do
    match callbackMessage body with
    | some m => handleMessage api m
    | none => pure ()
    return .obj [("ok", .bool true)]

end AiManager.Platform
