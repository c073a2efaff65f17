import AiManager.Lib.CappedList
import AiManager.Lib.Prog
import AiManager.Platform.Commitments
import AiManager.Twins.Delivery

/-! # Lists of a tenant

Intent claims and commitments are kept as whole lists under keys of the embedded store. Every handler gets a
list, changes it and puts it back. One get, one put or one external call is one step; a put carries what its
handler read and what it means to change, which the store does not look at. -/

namespace AiManager.Platform

open Lib Twins

/-! ## Updates -/

/-- The two lists of intent claims. -/
inductive ClaimList where
  | slack
  | explicit
  deriving DecidableEq

namespace ClaimList

def key : ClaimList → String
  | slack => "slack_intent_claims"
  | explicit => "intent_explicit_claims"

def cap : ClaimList → Nat
  | slack => 100
  | explicit => 200

/-- Whether a claim of the list goes by the id. -/
def hasId (claimId : String) (c : Json) : ClaimList → Bool
  | explicit => c.getStr "claim_id" = some claimId
  | slack =>
    let id := (((c.get "claim_id").or (c.get "ts")).bind Json.asStr).getD ""
    decide (claimId = id) || decide (claimId = "slack:" ++ id)

def supersede (now : String) (c : Json) : ClaimList → Json
  | explicit => (c.insert "lifecycle" (.str "superseded")).insert "superseded_at" (.str now)
  | slack => c.insert "lifecycle" (.str "superseded")

end ClaimList

inductive ClaimUpdate where
  | push (claim : Json)
  | supersede (claimId now : String)

/-- The list with the update. -/
def ClaimUpdate.apply (list : ClaimList) (read : List Json) : ClaimUpdate → List Json
  | push claim => keepLast list.cap (read ++ [claim])
  | supersede claimId now => read.map fun c => if list.hasId claimId c then list.supersede now c else c

inductive CommitmentUpdate where
  | add (c : Commitment)
  | resolve (m : ChatMessage) (label : Option String) (now : String)
  | setStatus (id status now : String)
  | link (id issueId url evidence : String)

namespace CommitmentUpdate

/-- What the update does to a commitment that is there. -/
def change (c : Commitment) : CommitmentUpdate → Commitment
  | add _ => c
  | resolve m label now => m.resolved label now c
  | setStatus id status now =>
    if c.id = id then
      let c := { c with status := status }
      if status = "done" ∨ status = "dismissed" then
        { c with resolvedAt := some now, resolveEvidence := some ("human:" ++ status) }
      else c
    else c
  | link id issueId url evidence =>
    if c.id = id then
      { c with linearIssueId := some issueId, linearUrl := some url, evidence := c.evidence ++ [evidence] }
    else c

def added : CommitmentUpdate → List Commitment
  | add c => [c]
  | _ => []

/-- The list with the update, as it is saved. -/
def apply (read : List Commitment) (u : CommitmentUpdate) : List Commitment :=
  keepLast commitmentsMax (read.map (fun c => u.change c) ++ u.added)

end CommitmentUpdate

/-- What a put means: the list it puts, what its handler read there, and the change. -/
inductive Meant where
  | claims (list : ClaimList) (read : List Json) (u : ClaimUpdate)
  | commitments (read : List Commitment) (u : CommitmentUpdate)

namespace Meant

def key : Meant → String
  | claims list _ _ => list.key
  | commitments _ _ => commitmentsKv

def value : Meant → Json
  | claims list read u => .arr (u.apply list read)
  | commitments read u => .arr ((u.apply read).map Commitment.toStorageJson)

end Meant

/-! ## Calls -/

inductive ListOp where
  | utcNow
  | newUuid
  | listTwins (tenantId : String)
  | listSlackMaps (tenantId : String)
  | getTenantKv (tenantId key : String)
  | putTenantKv (tenantId key : String) (value : Json) (meant : Meant)
  /-- a request to Linear, and the body of its answer -/
  | linearSend (query : String)
  | linearJson

/-- What a call answers. -/
@[reducible] def ListOp.Res : ListOp → Type
  | utcNow => DateTime
  | newUuid => String
  | listTwins _ => TwinResult (List Twin)
  | listSlackMaps _ => TwinResult (List SlackUserMap)
  | getTenantKv _ _ => Option Json
  | putTenantKv _ _ _ _ => Unit
  | linearSend _ => Except String Unit
  | linearJson => Except String Json

/-- What the environment decides at a call, what Linear does included. -/
structure ListChoice extends Choice where
  linearSend : Except String Unit
  linearJson : Except String Json

def listAnswer : Answer ListOp ListOp.Res DeliveryState ListChoice := fun c op s =>
  match op with
  | .utcNow => some (c.now, s)
  | .newUuid => if c.uuid ∈ s.issued then none else some (c.uuid, { s with issued := c.uuid :: s.issued })
  | .listTwins tenantId => s.reading c.toChoice (s.store.listTwins tenantId)
  | .listSlackMaps tenantId =>
    s.reading c.toChoice (s.store.slackMap.values.filter fun m => m.tenantId = tenantId)
  | .getTenantKv tenantId key => some (s.store.getTenantKv tenantId key, s)
  | .putTenantKv tenantId key value _ => some ((), { s with store := s.store.putTenantKv tenantId key value })
  | .linearSend _ => some (c.linearSend, s)
  | .linearJson => some (c.linearJson, s)

/-- Programs whose error is the text of the answer. -/
abbrev ListM (α : Type) := ExceptT String (Prog ListOp ListOp.Res) α

def callList (op : ListOp) : ListM op.Res := ExceptT.lift (Prog.perform op)

/-! ## Handlers -/

/-- The configuration, the Unicode tables that the texts need, and how a value is printed. Without an embedded
store there are no lists. -/
structure ListApi where
  embedded : Bool
  upper : Char → String
  alphanumeric : Char → Bool
  jsonText : Json → String
  linearApiKey : String
  linearTeamId : String

/-- The items under a key. -/
def itemsOf (v : Option Json) : List Json := (v.bind Json.asArray).getD []

/-- Append a claim to one of the lists. -/
def pushClaim (api : ListApi) (list : ClaimList) (tenantId : String) (claim : Json) : ListM Unit :=
  if !api.embedded then return ()
  else do
    let arr := itemsOf (← callList (.getTenantKv tenantId list.key))
    callList (.putTenantKv tenantId list.key (.arr (keepLast list.cap (arr ++ [claim])))
      (.claims list arr (.push claim)))

def pushSlackIntentClaim (api : ListApi) : String → Json → ListM Unit := pushClaim api .slack

def pushExplicitClaim (api : ListApi) : String → Json → ListM Unit := pushClaim api .explicit

def intentClaimSupersede (api : ListApi) (tenantId claimId : String) : ListM Unit :=
  if !api.embedded then throw "embedded store required for claim supersede"
  else do
    let arr := itemsOf (← callList (.getTenantKv tenantId ClaimList.explicit.key))
    let now ← callList .utcNow
    let slack := itemsOf (← callList (.getTenantKv tenantId ClaimList.slack.key))
    let found := arr.any (fun c => ClaimList.explicit.hasId claimId c)
      || slack.any fun c => ClaimList.slack.hasId claimId c
    if !found then
      throw ("claim_id not found in explicit or slack ledgers (graph intents supersede via V2 lifecycle later)")
    else do
      let at? := now.formatIstRfc3339
      let mark (list : ClaimList) (c : Json) := if list.hasId claimId c then list.supersede at? c else c
      callList (.putTenantKv tenantId ClaimList.explicit.key (.arr (arr.map (mark .explicit)))
        (.claims .explicit arr (.supersede claimId at?)))
      callList (.putTenantKv tenantId ClaimList.slack.key (.arr (slack.map (mark .slack)))
        (.claims .slack slack (.supersede claimId at?)))

def loadCommitments (api : ListApi) (tenantId : String) : ListM (List Commitment) :=
  if !api.embedded then return []
  else do
    let v ← callList (.getTenantKv tenantId commitmentsKv)
    return (itemsOf v).filterMap Commitment.fromValue

/-- Save a list, of which the last are kept. -/
def saveCommitments (api : ListApi) (tenantId : String) (list read : List Commitment) (u : CommitmentUpdate) :
    ListM Unit :=
  if !api.embedded then return ()
  else
    callList (.putTenantKv tenantId commitmentsKv
      (.arr (keepLast commitmentsMax (list.map Commitment.toStorageJson))) (.commitments read u))

def buildPersonDirectory (tenantId : String) : ListM (List PersonDirEntry) := do
  let twins ← callList (.listTwins tenantId)
  let maps ← callList (.listSlackMaps tenantId)
  return personDirectory (twins.toOption.getD []) (maps.toOption.getD [])

/-- A message closes open commitments, or makes one. The clock is read once for all that it closes, where the source
reads it for each. -/
def maybeHandleCommitmentFromSlack (api : ListApi) (tenantId : String) (m : ChatMessage) : ListM Unit := do
  let dir ← buildPersonDirectory tenantId
  let label := senderLabel dir m.subject
  let list ← loadCommitments api tenantId
  -- Resolve open commitments first
  if isResolutionPhrase (Text.toAsciiLowercase m.text) && list.any (m.resolves label) then
    let now ← callList .utcNow
    let at? := now.toRfc3339
    saveCommitments api tenantId (list.map (m.resolved label at?)) list (.resolve m label at?)
  else
    match m.commitment api.upper api.alphanumeric dir tenantId with
    | none => return ()
    | some make => do
      let uuid ← callList .newUuid
      let now ← callList .utcNow
      let cmt := make uuid now.toRfc3339
      saveCommitments api tenantId (list ++ [cmt]) list (.add cmt)

structure CommitmentCreateBody where
  text : String
  promiser : Option String
  promisee : Option String
  channel : Option String

/-- The commitment of an explicit capture. -/
def CommitmentCreateBody.commitment (api : ListApi) (dir : List PersonDirEntry) (tenantId uuid createdAt : String)
    (body : CommitmentCreateBody) : Commitment :=
  let text := Text.trim body.text
  let promiserRaw := (body.promiser.filter fun s => Text.trim s ≠ "").getD "unknown"
  let promiser := (resolvePersonRef promiserRaw dir).getD (promiserRaw, promiserRaw)
  let (summary, conf, tag) := (extractCommitment api.upper text).getD (text, 90, "source:explicit")
  let named := (body.promisee.or (guessPromisee api.alphanumeric text)).map fun raw =>
    (resolvePersonRef raw dir).getD (raw, raw)
  let mentioned := (extractSlackMentionIds text).findSome? fun uid =>
    (resolvePersonRef uid dir).filter fun p => p.1 ≠ promiser.1
  let promisee := mentioned.or named
  buildCommitment api.upper uuid createdAt tenantId promiser.1 (some promiser.2) (promisee.map (·.1))
    (promisee.map (·.2)) summary "explicit" body.channel [tag, "capture:api"] (max conf 90)

def createCommitment (api : ListApi) (tenantId : String) (body : CommitmentCreateBody) : ListM Unit :=
  if Text.byteLength (Text.trim body.text) < 4 then throw "text required (what was promised)"
  else do
    let dir ← buildPersonDirectory tenantId
    let uuid ← callList .newUuid
    let now ← callList .utcNow
    let cmt := body.commitment api dir tenantId uuid now.toRfc3339
    let list ← loadCommitments api tenantId
    saveCommitments api tenantId (list ++ [cmt]) list (.add cmt)

def setCommitmentStatus (api : ListApi) (tenantId commitmentId status : String) : ListM Unit := do
  let list ← loadCommitments api tenantId
  if !list.any fun c => c.id = commitmentId then throw "commitment not found"
  else do
    let now ← callList .utcNow
    let u := CommitmentUpdate.setStatus commitmentId status now.toRfc3339
    saveCommitments api tenantId (list.map fun c => u.change c) list u

def completeCommitment (api : ListApi) (tenantId commitmentId : String) : ListM Unit :=
  setCommitmentStatus api tenantId commitmentId "done"

def dismissCommitment (api : ListApi) (tenantId commitmentId : String) : ListM Unit :=
  setCommitmentStatus api tenantId commitmentId "dismissed"

/-- Escape for a GraphQL string. -/
def escapeGraphql (s : String) : String :=
  String.join (s.toList.map fun c =>
    if c = '\\' then "\\\\" else if c = '"' then "\\\"" else if c = '\n' then "\\n" else c.toString)

/-- The mutation that creates an issue for a commitment. -/
def linearQuery (teamId : String) (c : Commitment) : String :=
  let title := "Commitment: " ++ Text.take 120 c.text
  let desc := "**From AI Manager commitments** (not a full ticket system)\n\n**Who promised:** " ++ c.promiserDisplay
    ++ " (" ++ c.promiser ++ ")\n**Owed to:** " ++ c.promiseeDisplay.getD "team" ++ "\n**Source:** " ++ c.source
    ++ "\n**Commitment id:** `" ++ c.id ++ "`\n\n" ++ c.text
  "mutation \x7b issueCreate(input: \x7b teamId: \"" ++ escapeGraphql teamId ++ "\", title: \"" ++ escapeGraphql title
    ++ "\", description: \"" ++ escapeGraphql desc ++ "\" \x7d) \x7b success issue \x7b id identifier url \x7d \x7d \x7d"

/-- The issue in an answer of Linear: its id, its identifier and its address. -/
def linearIssue (jsonText : Json → String) (body : Json) : Except String (String × String × String) :=
  match body.get "errors" with
  | some errors => .error ("Linear GraphQL error: " ++ jsonText errors)
  | none =>
    let issue := (body.nested ["data", "issueCreate", "issue"]).getD (.obj [])
    let id := (issue.getStr "id").getD ""
    if id = "" then .error ("Linear create failed: " ++ jsonText body)
    else .ok (id, (issue.getStr "identifier").getD "", (issue.getStr "url").getD "")

/-- One-way export to Linear; a commitment that has a link is answered with it. -/
def exportCommitmentLinear (api : ListApi) (tenantId commitmentId : String) : ListM Unit :=
  if api.linearApiKey = "" ∨ api.linearTeamId = "" then
    throw ("Linear export needs LINEAR_API_KEY and LINEAR_TEAM_ID in staging env (optional). "
      ++ "Commitment stays the source of truth.")
  else do
    let list ← loadCommitments api tenantId
    match list.find? fun c => c.id = commitmentId with
    | none => throw "commitment not found"
    | some cmt =>
      if cmt.linearUrl.isSome then return ()
      else do
        match ← callList (.linearSend (linearQuery api.linearTeamId cmt)) with
        | .error e => throw ("Linear request failed: " ++ e)
        | .ok () => do
          match ← callList .linearJson with
          | .error e => throw ("Linear JSON: " ++ e)
          | .ok body =>
            match linearIssue api.jsonText body with
            | .error e => throw e
            | .ok (id, ident, url) => do
              let u := CommitmentUpdate.link commitmentId (if ident = "" then id else ident) url ("linear:" ++ id)
              saveCommitments api tenantId (list.map fun c => u.change c) list u

/-! ## Handlers at work -/

inductive ListCall where
  | pushSlackIntentClaim (tenantId : String) (claim : Json)
  | pushExplicitClaim (tenantId : String) (claim : Json)
  | intentClaimSupersede (tenantId claimId : String)
  | commitmentFromSlack (tenantId : String) (m : ChatMessage)
  | createCommitment (tenantId : String) (body : CommitmentCreateBody)
  | setCommitmentStatus (tenantId commitmentId status : String)
  | exportCommitmentLinear (tenantId commitmentId : String)

def ListCall.program (api : ListApi) : ListCall → ListM Unit
  | .pushSlackIntentClaim tenantId claim => Platform.pushSlackIntentClaim api tenantId claim
  | .pushExplicitClaim tenantId claim => Platform.pushExplicitClaim api tenantId claim
  | .intentClaimSupersede tenantId claimId => Platform.intentClaimSupersede api tenantId claimId
  | .commitmentFromSlack tenantId m => maybeHandleCommitmentFromSlack api tenantId m
  | .createCommitment tenantId body => Platform.createCommitment api tenantId body
  | .setCommitmentStatus tenantId commitmentId status =>
    Platform.setCommitmentStatus api tenantId commitmentId status
  | .exportCommitmentLinear tenantId commitmentId => Platform.exportCommitmentLinear api tenantId commitmentId

/-- Any number of handlers over one store. -/
abbrev ListPool (ι : Type) := Pool ι ListOp ListOp.Res DeliveryState (Except String Unit)

def ListPool.start {ι : Type} (api : ListApi) (calls : ι → ListCall) (s : DeliveryState) : ListPool ι :=
  ⟨s, fun i => ((calls i).program api).run, []⟩

end AiManager.Platform
