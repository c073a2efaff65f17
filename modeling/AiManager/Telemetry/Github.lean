import AiManager.Telemetry.Normalize

/-! # GitHub webhooks

Which event a webhook of GitHub becomes. Its type is the kind of the webhook with the action that the
payload names, whatever that action is. -/

namespace AiManager.Telemetry

open Lib

/-- Instants as a calendar library reads them: a text, seconds and milliseconds after the epoch, each
unless it is out of range. `truncate` takes a decimal to the integer of 64 bits that its double
truncates to. -/
structure Chrono where
  parseFromRfc3339 : String → Option DateTime
  timestampOpt : Int → Option DateTime
  timestampMillisOpt : Int → Option DateTime
  truncate : Int → Nat → Int

/-- An ISO text, Unix seconds or Unix milliseconds; else the time at hand. -/
def parseTimestamp (chrono : Chrono) (now : DateTime) (v : Json) : DateTime :=
  match v.asStr.bind chrono.parseFromRfc3339, v with
  | some dt, _ => dt
  | none, .num mantissa scale =>
    match v.asI64 with
    | some n =>
      if n > 1000000000000 then (chrono.timestampMillisOpt n).getD now
      else (chrono.timestampOpt n).getD now
    | none => (chrono.timestampOpt (chrono.truncate mantissa scale)).getD now
  | none, _ => now

/-- The name of a label. -/
def labelName (lab : Json) : Option String := ((lab.getStr "name").or lab.asStr).filter (· ≠ "")

/-- Label names only, for intent rules. -/
def prLabelNames (pr : Json) : List String :=
  (((pr.get "labels").bind Json.asArray).getD []).filterMap labelName

/-- At most 280 characters of the body. -/
def prBodyPreview (pr : Json) : String := Text.take 280 ((pr.getStr "body").getD "")

section Github
variable (chrono : Chrono) (v : Json) (ctx : NormalizeContext) (fresh : Fresh)

def repositoryName : String := (v.nestedStr ["repository", "full_name"]).getD "unknown"

/-- When the object says that it was changed, or else made. -/
def changedAt (object : Json) : DateTime :=
  (((object.get "updated_at").or (object.get "created_at")).map
    (parseTimestamp chrono fresh.now)).getD fresh.now

/-- The type of an event: its kind with the action, or with `other` if there is none. -/
def typeOf (kind action other : String) : String := kind ++ if action = "" then other else action

def prAttributes (pr : Json) : Json :=
  .obj [("title", .str ((pr.getStr "title").getD "")), ("state", .str ((pr.getStr "state").getD "")),
    ("draft", .bool (((pr.get "draft").bind Json.asBool).getD false)),
    ("merged", .bool (((pr.get "merged").bind Json.asBool).getD false)),
    ("base_ref", .str ((pr.nestedStr ["base", "ref"]).getD "")),
    ("head_ref", .str ((pr.nestedStr ["head", "ref"]).getD "")),
    ("additions", .num (((pr.get "additions").bind Json.asI64).getD 0) 0),
    ("deletions", .num (((pr.get "deletions").bind Json.asI64).getD 0) 0),
    ("changed_files", .num (((pr.get "changed_files").bind Json.asI64).getD 0) 0),
    ("html_url", .str ((pr.getStr "html_url").getD "")), ("labels", Json.ofStrings (prLabelNames pr)),
    ("body_preview", .str (prBodyPreview pr)), ("body", .str (prBodyPreview pr)),
    ("mergeable_state", .str ((pr.getStr "mergeable_state").getD "")),
    ("updated_at", .str ((pr.getStr "updated_at").getD ""))]

def normalizePr (action : String) : CoreResult CanonicalEventRecord :=
  match v.get "pull_request" with
  | none => .error (.normalization "missing pull_request")
  | some pr =>
    let repo := repositoryName v
    let number := ((pr.get "number").bind Json.asI64).getD 0
    let actor := (((v.get "sender").or (pr.get "user")).map
      (actorFromUser ctx.actorGlobalUserId)).getD {}
    let event := baseEvent ctx fresh .code (typeOf "pull_request." action "updated")
      (changedAt chrono fresh pr) actor (resourceId [repo, "pr", toString number]) repo
      (prAttributes pr)
    let isPrivate := ((v.nested ["repository", "private"]).bind Json.asBool).getD ctx.isPrivate
    .ok { event with acl := { event.acl with isPrivate := isPrivate } }

def normalizeIssue (action : String) : CoreResult CanonicalEventRecord :=
  match v.get "issue" with
  | none => .error (.normalization "missing issue")
  | some issue =>
    let repo := repositoryName v
    let number := ((issue.get "number").bind Json.asI64).getD 0
    .ok (baseEvent ctx fresh .workItem (typeOf "issue." action "updated")
      (changedAt chrono fresh issue) (actorAt v ctx "sender")
      (resourceId [repo, "issue", toString number]) repo
      (.obj [("title", .str ((issue.getStr "title").getD "")),
        ("state", .str ((issue.getStr "state").getD "")),
        ("html_url", .str ((issue.getStr "html_url").getD "")),
        ("labels", Json.ofStrings (prLabelNames issue)),
        ("body_preview", .str (prBodyPreview issue)), ("body", .str (prBodyPreview issue))]))

/-- A commit without its patches. -/
def commitMeta (c : Json) : Json :=
  .obj [("id", .str ((c.getStr "id").getD "")), ("message", .str ((c.getStr "message").getD "")),
    ("timestamp", .str ((c.getStr "timestamp").getD ""))]

def normalizePush : CanonicalEventRecord :=
  let repo := repositoryName v
  let actor := (((v.get "sender").or (v.get "pusher")).map
    (actorFromUser ctx.actorGlobalUserId)).getD {}
  let commits := ((v.get "commits").bind Json.asArray).getD []
  let commitMetas := (commits.take 50).map commitMeta
  let ts := ((commitMetas.getLast?.bind fun c => c.get "timestamp").map
    (parseTimestamp chrono fresh.now)).getD fresh.now
  baseEvent ctx fresh .code "push" ts actor
    (resourceId [repo, "ref", (v.getStr "ref").getD "heads/unknown"]) repo
    (.obj [("ref", .str ((v.getStr "ref").getD "")), ("before", .str ((v.getStr "before").getD "")),
      ("after", .str ((v.getStr "after").getD "")), ("commit_count", .num commits.length 0),
      ("commits", .arr commitMetas),
      ("forced", .bool (((v.get "forced").bind Json.asBool).getD false))])

def normalizeBranch : CanonicalEventRecord :=
  let repo := repositoryName v
  let ref := (v.getStr "ref").getD "unknown"
  baseEvent ctx fresh .code "branch.created" fresh.now (actorAt v ctx "sender")
    (resourceId [repo, "branch", ref]) repo
    (.obj [("ref", .str ref), ("ref_type", .str ((v.getStr "ref_type").getD "branch"))])

def normalizeComment (action : String) : CanonicalEventRecord :=
  let comment := (v.get "comment").getD v
  let repo := repositoryName v
  let actor := (((comment.get "user").or (v.get "sender")).map
    (actorFromUser ctx.actorGlobalUserId)).getD {}
  baseEvent ctx fresh .communication (typeOf "comment." action "created")
    (changedAt chrono fresh comment) actor
    (resourceId [repo, "comment", toString (((comment.get "id").bind Json.asI64).getD 0)]) repo
    (.obj [("body_preview", .str (Text.take 280 ((comment.getStr "body").getD ""))),
      ("html_url", .str ((comment.getStr "html_url").getD ""))])

def normalizeCheck (action : String) : CanonicalEventRecord :=
  let check := (v.get "check_run").getD v
  let repo := repositoryName v
  baseEvent ctx fresh .code (typeOf "check_run." action "completed") fresh.now {}
    (resourceId [repo, "check", toString (((check.get "id").bind Json.asI64).getD 0)]) repo
    (.obj [("name", .str ((check.getStr "name").getD "")),
      ("status", .str ((check.getStr "status").getD "")),
      ("conclusion", .str ((check.getStr "conclusion").getD ""))])

/-- Whatever else GitHub sends. -/
def normalizeOther (eventName action : String) : CanonicalEventRecord :=
  let repo := repositoryName v
  let ts := (((v.get "repository").bind fun r => r.get "updated_at").map
    (parseTimestamp chrono fresh.now)).getD fresh.now
  baseEvent ctx fresh .code
    ((if eventName = "" then "github" else eventName) ++ "." ++
      if action = "" then "event" else action) ts
    (actorAt v ctx "sender") repo repo
    (.obj [("provider_event", .str eventName), ("action", .str action), ("repository", .str repo)])

def isGithubIdentity (eventName : String) : Bool :=
  eventName = "membership" || eventName = "member" || eventName = "organization"

def normalizeGithub : CoreResult CanonicalEventRecord :=
  let action := (v.getStr "action").getD ""
  let eventName := ctx.eventName.getD ""
  if isGithubIdentity eventName then .ok (normalizeGithubIdentity v ctx fresh eventName action)
  else if (v.get "pull_request").isSome || eventName = "pull_request" then
    normalizePr chrono v ctx fresh action
  else if (v.get "issue").isSome && (v.get "pull_request").isNone then
    normalizeIssue chrono v ctx fresh action
  else if eventName = "push" || (v.get "commits").isSome then .ok (normalizePush chrono v ctx fresh)
  else if eventName = "create" || v.getStr "ref_type" = some "branch" then
    .ok (normalizeBranch v ctx fresh)
  else if (v.get "comment").isSome then .ok (normalizeComment chrono v ctx fresh action)
  else if eventName = "check_run" || (v.get "check_run").isSome then
    .ok (normalizeCheck v ctx fresh action)
  else .ok (normalizeOther chrono v ctx fresh eventName action)

end Github

section Accepted
variable {chrono : Chrono} {v pr : Json} {ctx : NormalizeContext} {fresh : Fresh}

/-- The only webhook of GitHub that is refused is one about a pull request without any. -/
theorem normalizeGithub_error {e : CoreError} (h : normalizeGithub chrono v ctx fresh = .error e) :
    e = .normalization "missing pull_request" ∧ ctx.eventName = some "pull_request" ∧
      v.get "pull_request" = none := by
  unfold normalizeGithub at h
  dsimp only at h
  split_ifs at h with hidentity hpr hissue
  · unfold normalizePr at h
    split at h
    · next hnone =>
      have hname : ctx.eventName.getD "" = "pull_request" := by simpa [hnone] using hpr
      cases hevent : ctx.eventName with
      | none => simp [hevent] at hname
      | some name =>
        rw [hevent, Option.getD_some] at hname
        exact ⟨(Except.error.inj h).symm, by rw [hname], hnone⟩
    · cases h
  · -- an issue is looked up where there is one
    unfold normalizeIssue at h
    split at h
    · next hnone => simp [hnone] at hissue
    · cases h

theorem normalizeGithub_identity {event : CanonicalEventRecord}
    (h : normalizeIdentity v ctx fresh .github = some event) :
    normalizeGithub chrono v ctx fresh = .ok event := by
  unfold normalizeIdentity at h
  dsimp only at h
  split at h
  · next hname =>
    cases h
    unfold normalizeGithub
    dsimp only
    rw [if_pos (by simpa [isGithubIdentity, or_assoc] using hname)]
  · cases h

variable (chrono fresh) in
/-- A payload with a pull request becomes an event about it. -/
theorem normalizeGithub_pullRequest (hname : isGithubIdentity (ctx.eventName.getD "") = false)
    (hpr : v.get "pull_request" = some pr) :
    ∃ event, normalizeGithub chrono v ctx fresh = .ok event ∧
      event.eventType = typeOf "pull_request." ((v.getStr "action").getD "") "updated" := by
  unfold normalizeGithub
  dsimp only
  rw [hname, if_neg Bool.false_ne_true, if_pos (by simp [hpr])]
  unfold normalizePr
  rw [hpr]
  exact ⟨_, rfl, rfl⟩

end Accepted

end AiManager.Telemetry
