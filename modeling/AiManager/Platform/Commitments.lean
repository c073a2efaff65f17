import AiManager.Lib.Text
import AiManager.Twins.Model

/-! # Commitments

Promises made in chat, by rules on the text: who promised what, and whether a later message says that it is
done. A confidence is given in hundredths. `upper` is `to_uppercase` of a character and `alphanumeric` the
character class of that name. -/

namespace AiManager.Platform

open Lib Twins

def commitmentsKv : String := "commitment_ledger"
def commitmentsMax : Nat := 300

/-- Longest preview of a text, in characters. -/
def previewMax : Nat := 280

structure Commitment where
  id : String
  tenantId : String
  /-- who made the promise -/
  promiser : String
  promiserLabel : Option String
  promisee : Option String
  promiseeLabel : Option String
  text : String
  /-- open, done or dismissed -/
  status : String
  source : String
  channel : Option String
  evidence : List String
  /-- mantissa and scale -/
  confidence : Int × Nat
  createdAt : String
  resolvedAt : Option String
  resolveEvidence : Option String
  linearIssueId : Option String
  linearUrl : Option String
  deriving DecidableEq, Inhabited

/-! ## Storage -/

def optStr : Option String → Json
  | some s => .str s
  | none => .null

namespace Commitment

/-- Lean storage shape. -/
def toStorageJson (c : Commitment) : Json :=
  .obj [("id", .str c.id), ("tenant_id", .str c.tenantId), ("promiser", .str c.promiser),
    ("promiser_label", optStr c.promiserLabel), ("promisee", optStr c.promisee),
    ("promisee_label", optStr c.promiseeLabel), ("text", .str c.text), ("status", .str c.status),
    ("source", .str c.source), ("channel", optStr c.channel), ("evidence", .ofStrings c.evidence),
    ("confidence", .num c.confidence.1 c.confidence.2), ("created_at", .str c.createdAt),
    ("resolved_at", optStr c.resolvedAt), ("resolve_evidence", optStr c.resolveEvidence),
    ("linear_issue_id", optStr c.linearIssueId), ("linear_url", optStr c.linearUrl)]

/-- The fields, in order. -/
def fieldNames : List String :=
  ["id", "tenant_id", "promiser", "promiser_label", "promisee", "promisee_label", "text", "status", "source",
    "channel", "evidence", "confidence", "created_at", "resolved_at", "resolve_evidence", "linear_issue_id",
    "linear_url"]

/-- The fields of a record, or of a list of values in order, which may leave out the last two. -/
def fieldsOf (j : Json) : Option (String → Option Json) :=
  match j with
  | .obj _ => some j.get
  | .arr items =>
    if 15 ≤ items.length ∧ items.length ≤ 17 then
      some fun field => (fieldNames.zip items).lookup field
    else none
  | _ => none

/-- An optional text; an absent one is `none`. -/
def readOptStr : Option Json → Option (Option String)
  | none => some none
  | some .null => some none
  | some v => v.asStr.map some

def readNumber : Json → Option (Int × Nat)
  | .num m s => some (m, s)
  | _ => none

def readStrings (j : Json) : Option (List String) := j.asArray.bind fun items => items.mapM Json.asStr

def fromValue (j : Json) : Option Commitment := do
  let field ← fieldsOf j
  let id ← (field "id").bind Json.asStr
  let tenantId ← (field "tenant_id").bind Json.asStr
  let promiser ← (field "promiser").bind Json.asStr
  let promiserLabel ← readOptStr (field "promiser_label")
  let promisee ← readOptStr (field "promisee")
  let promiseeLabel ← readOptStr (field "promisee_label")
  let text ← (field "text").bind Json.asStr
  let status ← (field "status").bind Json.asStr
  let source ← (field "source").bind Json.asStr
  let channel ← readOptStr (field "channel")
  let evidence ← (field "evidence").bind readStrings
  let confidence ← (field "confidence").bind readNumber
  let createdAt ← (field "created_at").bind Json.asStr
  let resolvedAt ← readOptStr (field "resolved_at")
  let resolveEvidence ← readOptStr (field "resolve_evidence")
  let linearIssueId ← readOptStr (field "linear_issue_id")
  let linearUrl ← readOptStr (field "linear_url")
  return {
    id, tenantId, promiser, promiserLabel, promisee, promiseeLabel, text, status, source, channel, evidence,
    confidence, createdAt, resolvedAt, resolveEvidence, linearIssueId, linearUrl }

theorem readOptStr_optStr (s : Option String) : readOptStr (some (optStr s)) = some s := by
  cases s <;> rfl

theorem readStrings_ofStrings (xs : List String) : readStrings (.ofStrings xs) = some xs := by
  show (xs.map Json.str).mapM Json.asStr = some xs
  induction xs with
  | nil => rfl
  | cons x xs ih => simp [Json.asStr, ih]

/-- **Round trip.** What is stored is read again. -/
theorem fromValue_toStorageJson (c : Commitment) : fromValue c.toStorageJson = some c := by
  have hopt : ∀ {field s}, c.toStorageJson.get field = some (optStr s) →
      readOptStr (c.toStorageJson.get field) = some s := by
    intro field s h
    rw [h, readOptStr_optStr]
  have hevidence : (c.toStorageJson.get "evidence").bind readStrings = some c.evidence :=
    readStrings_ofStrings c.evidence
  unfold fromValue
  refine Option.bind_eq_some_iff.mpr ⟨c.toStorageJson.get, rfl, ?_⟩
  refine Option.bind_eq_some_iff.mpr ⟨c.id, rfl, ?_⟩
  refine Option.bind_eq_some_iff.mpr ⟨c.tenantId, rfl, ?_⟩
  refine Option.bind_eq_some_iff.mpr ⟨c.promiser, rfl, ?_⟩
  refine Option.bind_eq_some_iff.mpr ⟨_, hopt rfl, ?_⟩
  refine Option.bind_eq_some_iff.mpr ⟨_, hopt rfl, ?_⟩
  refine Option.bind_eq_some_iff.mpr ⟨_, hopt rfl, ?_⟩
  refine Option.bind_eq_some_iff.mpr ⟨c.text, rfl, ?_⟩
  refine Option.bind_eq_some_iff.mpr ⟨c.status, rfl, ?_⟩
  refine Option.bind_eq_some_iff.mpr ⟨c.source, rfl, ?_⟩
  refine Option.bind_eq_some_iff.mpr ⟨_, hopt rfl, ?_⟩
  refine Option.bind_eq_some_iff.mpr ⟨_, hevidence, ?_⟩
  refine Option.bind_eq_some_iff.mpr ⟨c.confidence, rfl, ?_⟩
  refine Option.bind_eq_some_iff.mpr ⟨c.createdAt, rfl, ?_⟩
  refine Option.bind_eq_some_iff.mpr ⟨_, hopt rfl, ?_⟩
  refine Option.bind_eq_some_iff.mpr ⟨_, hopt rfl, ?_⟩
  refine Option.bind_eq_some_iff.mpr ⟨_, hopt rfl, ?_⟩
  refine Option.bind_eq_some_iff.mpr ⟨_, hopt rfl, ?_⟩
  rfl

/-- A stored list is read again. -/
theorem filterMap_fromValue (xs : List Commitment) : (xs.map toStorageJson).filterMap fromValue = xs := by
  have hround : fromValue ∘ toStorageJson = some := by
    funext c
    rw [Function.comp_apply, fromValue_toStorageJson]
  rw [List.filterMap_map, hround, List.filterMap_some]

def promiserDisplay (c : Commitment) : String := (c.promiserLabel.filter fun s => s ≠ "").getD c.promiser

def promiseeDisplay (c : Commitment) : Option String :=
  (c.promiseeLabel.filter fun s => s ≠ "").or c.promisee

end Commitment

/-! ## Rules on texts -/

/-- The phrases of a commitment and what they are worth. -/
def commitmentPatterns : List (String × Nat) :=
  [("i'll ", 88), ("i will ", 90), ("i’ll ", 88), ("i can send", 85), ("i can get", 80), ("i'll send", 90),
    ("i will send", 92), ("i'll share", 88), ("i'll update", 85), ("i'll fix", 88), ("i'll push", 85),
    ("i'll merge", 85), ("i'll review", 85), ("i'll follow up", 88), ("i'll get back", 88), ("let me send", 80),
    ("let me get", 78), ("going to ship", 82), ("will ship", 82), ("will have it", 85), ("by eod", 75),
    ("by end of day", 78), ("by tomorrow", 78), ("by friday", 78), ("by monday", 78), ("tomorrow i'll", 88),
    ("i owe you", 90), ("i promise", 90), ("you have my word", 85), ("consider it done", 70),
    ("on it — will", 80), ("on it, will", 80)]

def donePatterns : List String :=
  ["done —", "done-", "done.", "it's done", "its done", "all done", "just shipped", "shipped it", "i shipped",
    "i sent", "sent it", "sent the", "merged", "pr is merged", "closed the", "resolved", "finished the",
    "completed the", "already done", "took care of", "handled it", "✓", "✅", "marked done"]

/-- Someone saying work is finished, and not that it will be. -/
def isResolutionPhrase (hay : String) : Bool :=
  if Text.contains hay "i'll" || Text.contains hay "i will" || Text.contains hay "i’ll" then false
  else donePatterns.any fun p => Text.contains hay p

/-- Soft match: an open commitment appears in a later message. -/
def messageResolvesCommitment (message commitmentText : String) : Bool :=
  let hay := Text.toAsciiLowercase message
  if isResolutionPhrase hay then
    let words := ((Text.splitWhitespace commitmentText).filter fun w => Text.byteLength w > 4).take 6
    if words.isEmpty then true
    else
      let hits := words.countP fun w => Text.contains hay (Text.toAsciiLowercase w)
      decide (1 ≤ hits) || Text.contains hay "done" || Text.contains hay "shipped" || Text.contains hay "sent"
  else false

section Texts
variable (upper : Char → String) (alphanumeric : Char → Bool)

/-- The text without a leading mention, cut, with a capital first letter. -/
def plainCommitmentSummary (raw : String) : String :=
  let t := Text.trim raw
  let s := if Text.startsWith t "<" then
      match Text.after t ">" with
      | some rest => Text.trim rest
      | none => t
    else t
  let s := if s.toList.length > previewMax then Text.take previewMax s ++ "…" else s
  match s.toList with
  | [] => s
  | f :: rest => upper f ++ String.ofList rest

/-- Detect a commitment in free text: its summary, its confidence and the evidence. -/
def extractCommitment (text : String) : Option (String × Nat × String) :=
  let t := Text.trim text
  if Text.byteLength t < 8 then none
  else
    let hay := Text.toAsciiLowercase t
    -- Resolution phrases are not new commitments
    if isResolutionPhrase hay then none
    else (commitmentPatterns.find? fun p => Text.contains hay p.1).map fun p =>
      (plainCommitmentSummary upper t, p.2, "phrase:" ++ p.1)

/-- The word after a preposition, if it may be a name. -/
def nameAfter (text pfx : String) : Option String :=
  match Text.before (Text.toAsciiLowercase text) pfx with
  | none => none
  | some b =>
    let rest := Text.trim (String.ofList (text.toList.drop (b.toList.length + pfx.toList.length)))
    let word := String.ofList (rest.toList.takeWhile fun c => !(Text.isWhitespace c || c == ',' || c == '.'))
    let word := Text.trimMatches (fun c => !alphanumeric c && c != '_' && c != '-') word
    if 2 ≤ Text.byteLength word ∧ Text.byteLength word < 40 then some word else none

/-- A mention, or a name after "for", "to" or "with". -/
def guessPromisee (text : String) : Option String :=
  (((Text.after text "<@").bind fun s => Text.before s ">").filter fun id => id ≠ "").or
    ([" for ", " to ", " with "].findSome? (nameAfter alphanumeric text))

end Texts

/-- The mentions of a message, each once; `n` bounds how many there are. -/
def mentionIds : Nat → String → List String → List String
  | 0, _, out => out
  | n + 1, rest, out =>
    match Text.after rest "<@" with
    | none => out
    | some tail =>
      match Text.before tail ">", Text.after tail ">" with
      | some inner, some rest =>
        let uid := Text.trim ((Text.split inner '|').headD inner)
        mentionIds n rest (if uid = "" ∨ uid ∈ out then out else out ++ [uid])
      | _, _ => out

/-- Slack mention ids, `<@U123>` or `<@U123|name>`. -/
def extractSlackMentionIds (text : String) : List String := mentionIds text.toList.length text []

/-! ## People -/

/-- Directory entry for mentions. -/
structure PersonDirEntry where
  subjectId : String
  displayName : String
  slackUserId : Option String
  aliases : List String

/-- Resolve free text, a Slack id or a login against the directory. -/
def resolvePersonRef (raw : String) (dir : List PersonDirEntry) : Option (String × String) :=
  let r := Text.trimStartMatches (Text.trim raw) "@"
  if r = "" then none
  else
    let rl := Text.toAsciiLowercase r
    let bySlack := dir.find? fun p => p.slackUserId.any fun s => Text.eqIgnoreAsciiCase s r
    let byName := dir.find? fun p => Text.eqIgnoreAsciiCase p.subjectId r || Text.eqIgnoreAsciiCase p.displayName r
      || p.aliases.any fun a => Text.eqIgnoreAsciiCase a r
    let byPart := if Text.byteLength rl < 3 then none else
      dir.find? fun p => Text.contains (Text.toAsciiLowercase p.displayName) rl
        || p.aliases.any fun a => Text.contains (Text.toAsciiLowercase a) rl
    ((bySlack.or byName).or byPart).map fun p => (p.subjectId, p.displayName)

/-- Enabled person twins, then people with a Slack map but no twin. -/
def personDirectory (twins : List Twin) (maps : List SlackUserMap) : List PersonDirEntry :=
  let ofTwin (t : Twin) : PersonDirEntry :=
    let aliases := (((t.configJson.get "provider_aliases").bind Json.asArray).getD []).filterMap Json.asStr
    { subjectId := t.subjectId
      displayName := if t.displayName = "" then t.subjectId else t.displayName
      slackUserId := (maps.find? fun m => m.globalUserId = t.subjectId).map (·.slackUserId)
      aliases := if t.displayName ∈ aliases then aliases else aliases ++ [t.displayName] }
  let ofMap (out : List PersonDirEntry) (m : SlackUserMap) : List PersonDirEntry :=
    if out.any fun p => p.subjectId = m.globalUserId then out
    else out ++ [⟨m.globalUserId, m.globalUserId, some m.slackUserId, [m.globalUserId]⟩]
  maps.foldl ofMap ((twins.filter fun t => t.twinKind = .person && t.enabled).map ofTwin)

/-! ## New commitments -/

/-- A new commitment; the identifier and the time are read by the caller. -/
def buildCommitment (upper : Char → String) (uuid createdAt tenantId promiser : String)
    (promiserLabel promisee promiseeLabel : Option String) (text source : String) (channel : Option String)
    (evidence : List String) (confidence : Nat) : Commitment where
  id := "cmt:" ++ uuid
  tenantId := tenantId
  promiser := promiser
  promiserLabel := promiserLabel
  promisee := promisee
  promiseeLabel := promiseeLabel
  text := plainCommitmentSummary upper text
  status := "open"
  source := source
  channel := channel
  evidence := evidence
  confidence := (confidence, 2)
  createdAt := createdAt
  resolvedAt := none
  resolveEvidence := none
  linearIssueId := none
  linearUrl := none

/-- A message in a channel, or in a direct message to the bot. -/
structure ChatMessage where
  subject : String
  text : String
  channel : String
  ts : String
  isDm : Bool

/-- The name of the sender. -/
def senderLabel (dir : List PersonDirEntry) (subject : String) : Option String :=
  ((dir.find? fun p => p.subjectId = subject).or
    (dir.find? fun p => p.slackUserId.any fun s => Text.endsWith subject s || Text.contains subject s)).map
    (·.displayName)

/-- Whether the message says that the open commitment is done. -/
def ChatMessage.resolves (m : ChatMessage) (label : Option String) (c : Commitment) : Bool :=
  let samePerson := decide (c.promiser = m.subject) || Text.contains c.promiser m.subject
    || Text.contains m.subject c.promiser
    || c.promiserLabel.any fun l => label.any fun pl => Text.eqIgnoreAsciiCase pl l
  let sameChannel := c.channel.any fun ch => ch = m.channel
  decide (c.status = "open") && (samePerson || sameChannel) && messageResolvesCommitment m.text c.text

def ChatMessage.resolved (m : ChatMessage) (label : Option String) (now : String) (c : Commitment) : Commitment :=
  if m.resolves label c then
    { c with
      status := "done"
      resolvedAt := some now
      resolveEvidence := some ("slack:" ++ m.ts ++ " " ++ Text.take 120 m.text) }
  else c

/-- Whom a message promises something: a mention of someone else, or a name. -/
def promiseeOf (alphanumeric : Char → Bool) (dir : List PersonDirEntry) (self text : String) :
    Option (String × String) :=
  ((extractSlackMentionIds text).findSome? fun uid =>
    (resolvePersonRef uid dir).filter fun p => p.1 ≠ self).or
  ((guessPromisee alphanumeric text).map fun raw => (resolvePersonRef raw dir).getD (raw, raw))

/-- The commitment that a message makes, if it is clear enough. -/
def ChatMessage.commitment (upper : Char → String) (alphanumeric : Char → Bool) (dir : List PersonDirEntry)
    (tenantId : String) (m : ChatMessage) : Option (String → String → Commitment) :=
  (extractCommitment upper m.text).bind fun (summary, conf, tag) =>
    if conf < 72 then none
    else some fun uuid createdAt =>
      let promisee := promiseeOf alphanumeric dir m.subject m.text
      buildCommitment upper uuid createdAt tenantId m.subject (senderLabel dir m.subject)
        (promisee.map (·.1)) (promisee.map (·.2)) summary (if m.isDm then "slack_dm" else "slack_channel")
        (some m.channel) [tag, "slack_ts:" ++ m.ts] conf

end AiManager.Platform
