import AiManager.Telemetry.Pipeline
import AiManager.Telemetry.Providers

/-! # Who did it

The pipeline reads the id of the acting user from the payload to look up who that is, and the normalizer reads it once
more to record it. They read different fields of comments, of pushes, of users of Jira, of Linear and of Zendesk, so
that the global id of one user may be recorded with the id of another. -/

namespace AiManager.Telemetry

open Lib

/-! ## Who is recorded -/

/-- The id under which a user of a payload is recorded. -/
def userId (user : Json) : String := (actorFromUser "" user).providerUserId

def idOf (user : Option Json) : String := (user.map userId).getD ""

/-- The user whom an event of GitHub is recorded for. -/
def githubActor (eventName : String) (v : Json) : Option Json :=
  if isGithubIdentity eventName then v.get "sender"
  else if (v.get "pull_request").isSome || eventName = "pull_request" then
    (v.get "sender").or ((v.get "pull_request").bind fun pr => pr.get "user")
  else if (v.get "issue").isSome && (v.get "pull_request").isNone then v.get "sender"
  else if eventName = "push" || (v.get "commits").isSome then (v.get "sender").or (v.get "pusher")
  else if eventName = "create" || v.getStr "ref_type" = some "branch" then v.get "sender"
  else if (v.get "comment").isSome then ((v.get "comment").bind fun comment => comment.get "user").or (v.get "sender")
  else if eventName = "check_run" || (v.get "check_run").isSome then none
  else v.get "sender"

def gitlabRecorded (v : Json) : String :=
  if gitlabKind v = "push" ∨ gitlabKind v = "tag_push" then ((i64Field v "user_id").map toString).getD ""
  else if gitlabKind v = "pipeline" ∨ gitlabKind v = "build" then ""
  else idOf (v.get "user")

def jiraRecorded (v : Json) : String :=
  if isJiraIdentity (jiraEvent v) then idOf (v.get "user")
  else idOf ((v.get "user").or (v.nested ["comment", "author"]))

def linearRecorded (v : Json) : String :=
  if isLinearIdentity v then userId (linearData v) else idOf ((v.get "actor").or ((linearData v).get "creator"))

def teamsRecorded (v : Json) : String :=
  if isTeamsIdentity (teamsActivity v) then "" else (v.nestedStr ["from", "id"]).getD ""

/-- Of the inner `event`. -/
def slackRecorded (event : Json) : String :=
  if isSlackIdentity ((event.getStr "type").getD "message") then slackUser event else (event.getStr "user").getD ""

/-- The id under which the actor of a webhook is recorded. -/
def recordedId (eventName : String) (v : Json) : SourceProvider → String
  | .github => idOf (githubActor eventName v)
  | .gitlab => gitlabRecorded v
  | .jira => jiraRecorded v
  | .linear => linearRecorded v
  | .slack => slackRecorded ((v.get "event").getD v)
  | .teams => teamsRecorded v
  | .zendesk => idOf (zendeskUser v)
  | .unspecified => ""

/-- The event is recorded for the id, with the global id that was looked up. -/
def RecordedFor (ctx : NormalizeContext) (id : String) (event : CanonicalEventRecord) : Prop :=
  event.actor.globalUserId = ctx.actorGlobalUserId ∧ event.actor.providerUserId = id

section Recorded
variable {chrono : Chrono} {v : Json} {ctx : NormalizeContext} {fresh : Fresh} {event : CanonicalEventRecord}

theorem providerUserId_of (user : Option Json) :
    ((user.map (actorFromUser ctx.actorGlobalUserId)).getD {}).providerUserId = idOf user := by
  cases user <;> rfl

theorem globalUserId_of (user : Option Json) :
    ((user.map (actorFromUser ctx.actorGlobalUserId)).getD {}).globalUserId = "" ∨
      ((user.map (actorFromUser ctx.actorGlobalUserId)).getD {}).globalUserId = ctx.actorGlobalUserId := by
  cases user with
  | none => exact .inl rfl
  | some user => exact .inr rfl

theorem globalUserId_of_actor {actor : ActorIdentity}
    (h : actor.globalUserId = "" ∨ actor.globalUserId = ctx.actorGlobalUserId) :
    (if actor.globalUserId = "" then ctx.actorGlobalUserId else actor.globalUserId) = ctx.actorGlobalUserId := by
  split_ifs with hempty
  · rfl
  · exact h.resolve_left hempty

/-- What a normalizer makes of a user. -/
theorem recordedFor_user (user : Option Json) {category : EventCategory} {eventType resource parent : String}
    {timestamp : DateTime} {attributes : Json} : RecordedFor ctx (idOf user) (baseEvent ctx fresh category eventType
      timestamp ((user.map (actorFromUser ctx.actorGlobalUserId)).getD {}) resource parent attributes) :=
  ⟨globalUserId_baseEvent (globalUserId_of user) _ _ _ _ _ _, providerUserId_of user⟩

theorem normalizeGithub_recorded (h : normalizeGithub chrono v ctx fresh = .ok event) :
    RecordedFor ctx (idOf (githubActor (ctx.eventName.getD "") v)) event := by
  unfold normalizeGithub at h
  dsimp only at h
  unfold githubActor
  split_ifs at h ⊢ with hidentity hpr hissue hpush hbranch hcomment hcheck
  · cases h
    exact recordedFor_user _
  · unfold normalizePr at h
    split at h
    · cases h
    · next pr hget =>
      cases h
      rw [hget]
      exact ⟨globalUserId_of_actor (globalUserId_of _), providerUserId_of _⟩
  · unfold normalizeIssue at h
    split at h
    · cases h
    · cases h
      exact recordedFor_user _
  · cases h
    exact recordedFor_user _
  · cases h
    exact recordedFor_user _
  · cases h
    obtain ⟨comment, hget⟩ := Option.isSome_iff_exists.mp hcomment
    unfold normalizeComment
    rw [hget]
    exact recordedFor_user _
  · cases h
    exact recordedFor_user none
  · cases h
    exact recordedFor_user _

theorem normalizeGitlab_recorded (h : normalizeGitlab chrono v ctx fresh = .ok event) :
    RecordedFor ctx (gitlabRecorded v) event := by
  unfold normalizeGitlab at h
  dsimp only at h
  unfold gitlabRecorded
  split_ifs at h with hmr hpush hissue hnote hpipeline hidentity
  · rw [if_neg (by rw [hmr]; decide), if_neg (by rw [hmr]; decide)]
    unfold normalizeGitlabMr at h
    split at h
    · cases h
    · cases h
      exact recordedFor_user _
  · rw [if_pos hpush]
    cases h
    exact ⟨globalUserId_baseEvent (.inr rfl) _ _ _ _ _ _, rfl⟩
  · rw [if_neg (by rw [hissue]; decide), if_neg (by rw [hissue]; decide)]
    cases h
    exact recordedFor_user _
  · rw [if_neg hpush, if_neg (by rcases hnote with hnote | hnote <;> rw [hnote] <;> decide)]
    cases h
    exact recordedFor_user _
  · rw [if_neg hpush, if_pos hpipeline]
    cases h
    exact recordedFor_user none
  · rw [if_neg hpush, if_neg hpipeline]
    cases h
    exact recordedFor_user _
  · rw [if_neg hpush, if_neg hpipeline]
    cases h
    exact recordedFor_user _

theorem normalizeJira_recorded (h : normalizeJira chrono v ctx fresh = .ok event) :
    RecordedFor ctx (jiraRecorded v) event := by
  unfold normalizeJira at h
  dsimp only at h
  unfold jiraRecorded
  by_cases hidentity : isJiraIdentity (jiraEvent v) = true
  · rw [if_pos hidentity] at h ⊢
    cases h
    exact recordedFor_user _
  · rw [if_neg hidentity] at h ⊢
    cases h
    exact recordedFor_user _

theorem normalizeLinear_recorded (h : normalizeLinear chrono v ctx fresh = .ok event) :
    RecordedFor ctx (linearRecorded v) event := by
  unfold normalizeLinear at h
  dsimp only at h
  unfold linearRecorded
  by_cases hidentity : isLinearIdentity v = true
  · rw [if_pos hidentity] at h ⊢
    cases h
    exact recordedFor_user (some (linearData v))
  · rw [if_neg hidentity] at h ⊢
    cases h
    exact recordedFor_user _

theorem normalizeSlack_recorded {parseF64 : String → Option Int}
    (h : normalizeSlack chrono v ctx fresh parseF64 = .ok event) :
    RecordedFor ctx (slackRecorded ((v.get "event").getD v)) event := by
  unfold normalizeSlack at h
  dsimp only at h
  unfold slackRecorded
  split_ifs at h ⊢
  · cases h
    exact ⟨globalUserId_baseEvent (.inr rfl) _ _ _ _ _ _, rfl⟩
  · cases h
    exact ⟨globalUserId_baseEvent (.inr rfl) _ _ _ _ _ _, rfl⟩

theorem normalizeTeams_recorded (h : normalizeTeams chrono v ctx fresh = .ok event) :
    RecordedFor ctx (teamsRecorded v) event := by
  unfold normalizeTeams at h
  dsimp only at h
  unfold teamsRecorded
  split_ifs at h ⊢
  · cases h
    exact recordedFor_user none
  · cases h
    exact ⟨globalUserId_baseEvent (.inr rfl) _ _ _ _ _ _, rfl⟩

/-- Whoever is recorded, it is with the global id that was looked up. -/
theorem normalize_recorded {parseF64 : String → Option Int} (h : normalize chrono v ctx fresh parseF64 = .ok event) :
    RecordedFor ctx (recordedId (ctx.eventName.getD "") v ctx.provider) event := by
  unfold normalize at h
  cases hprovider : ctx.provider with
  | github =>
    rw [hprovider] at h
    exact normalizeGithub_recorded h
  | gitlab =>
    rw [hprovider] at h
    exact normalizeGitlab_recorded h
  | jira =>
    rw [hprovider] at h
    exact normalizeJira_recorded h
  | linear =>
    rw [hprovider] at h
    exact normalizeLinear_recorded h
  | slack =>
    rw [hprovider] at h
    exact normalizeSlack_recorded h
  | teams =>
    rw [hprovider] at h
    exact normalizeTeams_recorded h
  | zendesk =>
    rw [hprovider] at h
    cases h
    exact recordedFor_user _
  | unspecified =>
    rw [hprovider] at h
    cases h

end Recorded

/-! ## Two ids of one webhook -/

/-- An id as a text. -/
def idText (id : Json) : Option String := (id.asI64.map toString).or id.asStr

/-- Both ids are given, and they are not the same. -/
def Differ (a b : String) : Prop := a ≠ "" ∧ b ≠ "" ∧ a ≠ b

/-- The payload names two users, and the pipeline and the normalizer do not take the same. -/
inductive Deviates (eventName : String) (v : Json) : SourceProvider → Prop
  /-- a comment is recorded for its author, whoever sends it -/
  | comment {comment user sender : Json} {id : String} (hname : isGithubIdentity eventName = false)
      (hevent : eventName ∉ ["pull_request", "push", "create"])
      (hfields : ∀ field ∈ ["pull_request", "issue", "commits"], v.get field = none)
      (hbranch : v.getStr "ref_type" ≠ some "branch") (hcomment : v.get "comment" = some comment)
      (huser : comment.get "user" = some user) (hsender : v.get "sender" = some sender)
      (hid : ((sender.get "id").bind idText).or (sender.getStr "login") = some id) (h : Differ (userId user) id) :
    Deviates eventName v .github
  /-- a push is recorded for its `user_id`, also where there is a `user` -/
  | push {m n : Int} (hkind : gitlabKind v = "push" ∨ gitlabKind v = "tag_push") (hid : i64Field v "user_id" = some m)
      (huser : (v.nested ["user", "id"]).bind Json.asI64 = some n) (h : toString m ≠ toString n) :
    Deviates eventName v .gitlab
  /-- the user has no number, but the webhook has -/
  | gitlabUser {user : Json} {n : Int} (hkind : gitlabKind v ∉ ["push", "tag_push", "pipeline", "build"])
      (hattrs : gitlabKind v = "merge_request" → (v.get "object_attributes").isSome) (huser : v.get "user" = some user)
      (hid : (user.get "id").bind Json.asI64 = none) (hnumber : i64Field v "user_id" = some n)
      (hne : userId user ≠ "") (h : userId user ≠ toString n) :
    Deviates eventName v .gitlab
  /-- the user has another id or login than its account -/
  | jiraUser {user : Json} {account : String} (huser : v.get "user" = some user)
      (haccount : ((user.get "accountId").or (user.get "key")).bind Json.asStr = some account)
      (h : Differ (userId user) account) :
    Deviates eventName v .jira
  /-- a change of a user is recorded for that user, whoever makes it -/
  | linearUser {id : String} (hidentity : isLinearIdentity v = true)
      (hid : ((v.nested ["data", "creator", "id"]).or (v.nested ["actor", "id"])).bind Json.asStr = some id)
      (h : Differ (userId (linearData v)) id) :
    Deviates eventName v .linear
  /-- a change of an issue is recorded for the actor, but looked up for the creator of the issue -/
  | linearActor {actor : Json} {creator : String} (hidentity : isLinearIdentity v = false)
      (hactor : v.get "actor" = some actor) (hcreator : v.nested ["data", "creator", "id"] = some (.str creator))
      (h : Differ (userId actor) creator) :
    Deviates eventName v .linear
  /-- a ticket is looked up for the assignee -/
  | ticket {user : Json} {n : Int} (huser : zendeskUser v = some user)
      (hassignee : (v.nested ["detail", "assignee_id"]).bind Json.asI64 = some n) (hne : userId user ≠ "")
      (h : userId user ≠ toString n) :
    Deviates eventName v .zendesk

section Deviation
variable {v user : Json} {eventName : String}

theorem toString_ne_empty (n : Int) : toString n ≠ "" := by
  cases n with
  | ofNat n => exact Nat.repr_ne_empty
  | negSucc n =>
    intro h
    have hlist := congrArg String.toList (show "-" ++ Nat.repr (n + 1) = "" from h)
    rw [String.toList_append] at hlist
    cases hlist

theorem userId_eq (user : Json) : userId user =
    ((((user.getStr "id").or (((user.get "id").bind Json.asI64).map toString)).or (user.getStr "login")).or
      (user.getStr "accountId")).getD "" := rfl

/-- A user with a number is recorded under it. -/
theorem userId_of_number {n : Int} (h : (user.get "id").bind Json.asI64 = some n) : userId user = toString n := by
  have htext : user.getStr "id" = none := by
    unfold Json.getStr
    cases hid : user.get "id" with
    | none => rfl
    | some j =>
      rw [hid] at h
      cases j with
      | str s => cases h
      | _ => rfl
  rw [userId_eq, htext, h]
  rfl

theorem userId_of_text {id : String} (h : user.get "id" = some (.str id)) : userId user = id := by
  rw [userId_eq, Json.getStr, h]
  rfl

theorem userId_of_sender {id : String}
    (h : ((user.get "id").bind idText).or (user.getStr "login") = some id) : userId user = id := by
  cases hid : user.get "id" with
  | none =>
    rw [hid, Option.bind_none, Option.none_or] at h
    rw [userId_eq, Json.getStr, hid, h]
    rfl
  | some j =>
    rw [hid, Option.bind_some] at h
    cases hnumber : j.asI64 with
    | some n =>
      rw [idText, hnumber, Option.map_some, Option.some_or, Option.some_or] at h
      rw [userId_of_number (by rw [hid, Option.bind_some, hnumber])]
      exact Option.some.inj h
    | none =>
      rw [idText, hnumber, Option.map_none, Option.none_or] at h
      rw [userId_eq, Json.getStr, hid, Option.bind_some, Option.bind_some, hnumber, Option.map_none, Option.or_none, h]
      rfl

theorem nested_pair (v : Json) (outer inner : String) : v.nested [outer, inner] = (v.get outer).bind (·.get inner) := by
  simp [Json.nested]

/-- The sender of a GitHub webhook, by whom it is looked up. -/
theorem exists_sender (h : extractProviderUserId .github v ≠ "") :
    ∃ sender id, v.get "sender" = some sender ∧
      ((sender.get "id").bind idText).or (sender.getStr "login") = some id ∧
      extractProviderUserId .github v = id := by
  unfold extractProviderUserId at h ⊢
  cases hsender : v.get "sender" with
  | none =>
    refine absurd ?_ h
    rw [Json.nestedStr, nested_pair, hsender]
    rfl
  | some sender =>
    have hlogin : v.nestedStr ["sender", "login"] = sender.getStr "login" := by
      rw [Json.nestedStr, nested_pair, hsender]
      rfl
    rw [hsender, hlogin, Option.bind_some] at h
    rw [hlogin, Option.bind_some]
    cases hid : ((sender.get "id").bind idText).or (sender.getStr "login") with
    | none => exact absurd (congrArg (Option.getD · "") hid) h
    | some id => exact ⟨sender, id, rfl, hid, congrArg (Option.getD · "") hid⟩

/-- Besides the sender only the author of a comment is recorded. -/
theorem githubActor_of_sender (eventName : String) {sender : Json} (hsender : v.get "sender" = some sender) :
    githubActor eventName v = none ∨ githubActor eventName v = some sender ∨
      ∃ comment user, isGithubIdentity eventName = false ∧ eventName ∉ ["pull_request", "push", "create"] ∧
        (∀ field ∈ ["pull_request", "issue", "commits"], v.get field = none) ∧
        v.getStr "ref_type" ≠ some "branch" ∧ v.get "comment" = some comment ∧ comment.get "user" = some user ∧
        githubActor eventName v = some user := by
  generalize hactor : githubActor eventName v = actor
  unfold githubActor at hactor
  rw [hsender] at hactor
  split_ifs at hactor with hname hpr hissue hpush hbranch hcomment hcheck
  · exact .inr (.inl hactor.symm)
  · exact .inr (.inl hactor.symm)
  · exact .inr (.inl hactor.symm)
  · exact .inr (.inl hactor.symm)
  · exact .inr (.inl hactor.symm)
  · obtain ⟨comment, hget⟩ := Option.isSome_iff_exists.mp hcomment
    rw [hget, Option.bind_some] at hactor
    cases huser : comment.get "user" with
    | none =>
      rw [huser, Option.none_or] at hactor
      exact .inr (.inl hactor.symm)
    | some user =>
      rw [huser, Option.some_or] at hactor
      rw [Bool.or_eq_true, not_or, Option.not_isSome_iff_eq_none, decide_eq_true_iff] at hpr
      rw [hpr.1, Option.isNone_none, Bool.and_true, Option.not_isSome_iff_eq_none] at hissue
      rw [Bool.or_eq_true, not_or, Option.not_isSome_iff_eq_none, decide_eq_true_iff] at hpush
      rw [Bool.or_eq_true, not_or, decide_eq_true_iff, decide_eq_true_iff] at hbranch
      refine .inr (.inr ⟨comment, user, Bool.eq_false_iff.mpr hname, ?_, ?_, hbranch.2, hget, huser, hactor.symm⟩)
      · simp [hpr.2, hpush.1, hbranch.1]
      · simp [hpr.1, hissue, hpush.2]
  · exact .inl hactor.symm
  · exact .inr (.inl hactor.symm)

theorem differ_github : Differ (idOf (githubActor eventName v)) (extractProviderUserId .github v) ↔
    Deviates eventName v .github := by
  constructor
  · rintro ⟨hrecorded, hextract, hne⟩
    obtain ⟨sender, id, hsender, hid, hlooked⟩ := exists_sender hextract
    rw [hlooked] at hextract hne
    rcases githubActor_of_sender eventName hsender with hactor | hactor |
      ⟨comment, user, hname, hevent, hfields, hbranch, hcomment, huser, hactor⟩
    · rw [hactor] at hrecorded
      exact absurd rfl hrecorded
    · rw [hactor] at hne
      exact absurd (userId_of_sender hid) hne
    · rw [hactor] at hrecorded hne
      exact .comment hname hevent hfields hbranch hcomment huser hsender hid ⟨hrecorded, hextract, hne⟩
  · intro h
    cases h with
    | @comment comment user sender id hname hevent hfields hbranch hcomment huser hsender hid hdiffer =>
      have hlooked : extractProviderUserId .github v = id := by
        have hlogin : v.nestedStr ["sender", "login"] = sender.getStr "login" := by
          rw [Json.nestedStr, nested_pair, hsender]
          rfl
        unfold extractProviderUserId
        rw [hlogin, hsender, Option.bind_some]
        exact congrArg (Option.getD · "") hid
      have hactor : githubActor eventName v = some user := by
        have hpr := hfields "pull_request" (by decide)
        have hissue := hfields "issue" (by decide)
        have hcommits := hfields "commits" (by decide)
        simp only [List.mem_cons, List.not_mem_nil, or_false, not_or] at hevent
        unfold githubActor
        simp [hname, hpr, hissue, hcommits, hevent, hbranch, hcomment, huser]
      rw [hactor, hlooked]
      exact hdiffer

theorem extract_gitlab (v : Json) : extractProviderUserId .gitlab v =
    ((((v.nested ["user", "id"]).bind Json.asI64).map toString).or ((i64Field v "user_id").map toString)).getD "" := rfl

theorem differ_gitlab : (Differ (gitlabRecorded v) (extractProviderUserId .gitlab v) ∧
    (gitlabKind v = "merge_request" → (v.get "object_attributes").isSome)) ↔ Deviates eventName v .gitlab := by
  rw [extract_gitlab]
  constructor
  · rintro ⟨⟨hrecorded, hextract, hne⟩, hattrs⟩
    unfold gitlabRecorded at hrecorded hne
    split_ifs at hrecorded hne with hpush hpipeline
    · cases hnumber : i64Field v "user_id" with
      | none =>
        rw [hnumber] at hrecorded
        exact absurd rfl hrecorded
      | some m =>
        rw [hnumber] at hne
        cases huser : (v.nested ["user", "id"]).bind Json.asI64 with
        | none =>
          rw [huser] at hne
          exact absurd rfl hne
        | some n =>
          rw [huser] at hne
          exact .push hpush hnumber huser hne
    · exact absurd rfl hrecorded
    · cases hget : v.get "user" with
      | none =>
        rw [hget] at hrecorded
        exact absurd rfl hrecorded
      | some user =>
        rw [hget] at hrecorded hne
        rw [nested_pair, hget, Option.bind_some] at hextract hne
        cases hid : (user.get "id").bind Json.asI64 with
        | some n =>
          rw [hid] at hne
          exact absurd (userId_of_number hid) hne
        | none =>
          rw [hid, Option.map_none, Option.none_or] at hextract hne
          cases hnumber : i64Field v "user_id" with
          | none =>
            rw [hnumber] at hextract
            exact absurd rfl hextract
          | some n =>
            rw [hnumber] at hne
            refine .gitlabUser ?_ hattrs hget hid hnumber hrecorded hne
            rw [not_or] at hpush hpipeline
            simp [hpush.1, hpush.2, hpipeline.1, hpipeline.2]
  · intro h
    cases h with
    | @push m n hkind hid huser hne =>
      have hmr : gitlabKind v ≠ "merge_request" := by rcases hkind with hkind | hkind <;> rw [hkind] <;> decide
      unfold gitlabRecorded
      rw [if_pos hkind, hid, huser]
      exact ⟨⟨toString_ne_empty m, toString_ne_empty n, hne⟩, fun hkind => absurd hkind hmr⟩
    | @gitlabUser user n hkind hattrs huser hid hnumber hrecorded hne =>
      simp only [List.mem_cons, List.not_mem_nil, or_false, not_or] at hkind
      unfold gitlabRecorded
      rw [if_neg (not_or.mpr ⟨hkind.1, hkind.2.1⟩), if_neg (not_or.mpr hkind.2.2), nested_pair, huser, Option.bind_some,
        hid, hnumber]
      exact ⟨⟨hrecorded, toString_ne_empty n, hne⟩, hattrs⟩

theorem differ_jira : Differ (jiraRecorded v) (extractProviderUserId .jira v) ↔ Deviates eventName v .jira := by
  have hrecorded : ∀ user, v.get "user" = some user → jiraRecorded v = userId user := by
    intro user huser
    unfold jiraRecorded
    rw [huser]
    split_ifs <;> rfl
  unfold extractProviderUserId
  constructor
  · intro h
    cases huser : v.get "user" with
    | none =>
      rw [huser] at h
      exact absurd rfl h.2.1
    | some user =>
      rw [hrecorded user huser, huser, Option.bind_some] at h
      cases haccount : ((user.get "accountId").or (user.get "key")).bind Json.asStr with
      | none =>
        rw [haccount] at h
        exact absurd rfl h.2.1
      | some account =>
        rw [haccount] at h
        exact .jiraUser huser haccount h
  · intro h
    cases h with
    | @jiraUser user account huser haccount hdiffer =>
      rw [hrecorded user huser, huser, Option.bind_some, haccount]
      exact hdiffer

theorem differ_linear : Differ (linearRecorded v) (extractProviderUserId .linear v) ↔ Deviates eventName v .linear := by
  unfold extractProviderUserId
  constructor
  · intro h
    dsimp only at h
    cases hid : ((v.nested ["data", "creator", "id"]).or (v.nested ["actor", "id"])).bind Json.asStr with
    | none =>
      rw [hid] at h
      exact absurd rfl h.2.1
    | some id =>
      rw [hid, Option.getD_some] at h
      unfold linearRecorded at h
      split_ifs at h with hidentity
      · exact .linearUser hidentity hid h
      · cases hactor : v.get "actor" with
        | none =>
          -- then both take the creator
          rw [hactor, Option.none_or] at h
          rw [nested_pair v "actor", hactor, Option.bind_none, Option.or_none] at hid
          obtain ⟨j, hj, hstr⟩ := Option.bind_eq_some_iff.mp hid
          obtain ⟨data, hdata, hrest⟩ := Option.bind_eq_some_iff.mp hj
          obtain ⟨creator, hcreator, hinner⟩ := Option.bind_eq_some_iff.mp hrest
          obtain ⟨i, hi, hlast⟩ := Option.bind_eq_some_iff.mp hinner
          cases hlast
          cases j with
          | str text =>
            cases hstr
            have hown : idOf ((linearData v).get "creator") = id := by
              rw [linearData, hdata, Option.getD_some, hcreator]
              exact userId_of_text hi
            exact absurd hown h.2.2
          | _ => cases hstr
        | some actor =>
          rw [hactor, Option.some_or] at h
          cases hcreator : v.nested ["data", "creator", "id"] with
          | none =>
            rw [hcreator, Option.none_or, nested_pair, hactor, Option.bind_some] at hid
            obtain ⟨j, hj, hstr⟩ := Option.bind_eq_some_iff.mp hid
            cases j with
            | str text =>
              cases hstr
              exact absurd (userId_of_text hj) h.2.2
            | _ => cases hstr
          | some j =>
            rw [hcreator, Option.some_or, Option.bind_some] at hid
            cases j with
            | str text =>
              cases hid
              exact .linearActor (Bool.eq_false_iff.mpr hidentity) hactor hcreator h
            | _ => cases hid
  · intro h
    dsimp only
    unfold linearRecorded
    cases h with
    | @linearUser id hidentity hid hdiffer =>
      rw [if_pos hidentity, hid]
      exact hdiffer
    | @linearActor actor creator hidentity hactor hcreator hdiffer =>
      rw [if_neg (by rw [hidentity]; decide), hactor, hcreator]
      exact hdiffer

/-- In Slack both take the user of the event. -/
theorem not_differ_slack : ¬ Differ (slackRecorded ((v.get "event").getD v)) (extractProviderUserId .slack v) := by
  have hlooked : extractProviderUserId .slack v = (((v.get "event").bind (·.get "user")).bind Json.asStr).getD "" := by
    rw [← nested_pair]
    rfl
  rw [hlooked]
  rintro ⟨-, hextract, hne⟩
  cases hevent : v.get "event" with
  | none =>
    rw [hevent] at hextract
    exact absurd rfl hextract
  | some event =>
    rw [hevent, Option.bind_some] at hextract hne
    rw [Option.getD_some] at hne
    cases huser : (event.get "user").bind Json.asStr with
    | none =>
      rw [huser] at hextract
      exact absurd rfl hextract
    | some user =>
      refine hne ?_
      unfold slackRecorded slackUser Json.getStr
      rw [huser]
      split_ifs <;> rfl

/-- In Teams too, except that an identity event has no actor. -/
theorem not_differ_teams : ¬ Differ (teamsRecorded v) (extractProviderUserId .teams v) := by
  unfold teamsRecorded extractProviderUserId
  rintro ⟨hrecorded, -, hne⟩
  split_ifs at hrecorded hne
  · exact hrecorded rfl
  · exact hne rfl

theorem differ_zendesk : Differ (idOf (zendeskUser v)) (extractProviderUserId .zendesk v) ↔
    Deviates eventName v .zendesk := by
  unfold extractProviderUserId
  constructor
  · intro h
    dsimp only at h
    cases huser : zendeskUser v with
    | none =>
      rw [huser] at h
      exact absurd rfl h.1
    | some user =>
      cases hassignee : (v.nested ["detail", "assignee_id"]).bind Json.asI64 with
      | none =>
        rw [hassignee] at h
        exact absurd rfl h.2.1
      | some n =>
        rw [huser, hassignee] at h
        exact .ticket huser hassignee h.1 h.2.2
  · intro h
    cases h with
    | @ticket user n huser hassignee hrecorded hne =>
      dsimp only
      rw [huser, hassignee]
      exact ⟨hrecorded, toString_ne_empty n, hne⟩

end Deviation

/-- The normalizer takes the webhook. -/
def Takes (v : Json) (provider : SourceProvider) : Prop :=
  provider = .gitlab → gitlabKind v = "merge_request" → (v.get "object_attributes").isSome

theorem differ_iff {v : Json} {eventName : String} {provider : SourceProvider} :
    (Differ (recordedId eventName v provider) (extractProviderUserId provider v) ∧ Takes v provider) ↔
      Deviates eventName v provider := by
  have htakes : provider ≠ .gitlab → Takes v provider := fun hne heq => absurd heq hne
  cases provider with
  | gitlab =>
    rw [← differ_gitlab]
    exact and_congr_right fun _ => ⟨fun h => h rfl, fun h _ => h⟩
  | github => rw [and_iff_left (htakes (by decide)), ← differ_github, recordedId]
  | jira => rw [and_iff_left (htakes (by decide)), ← differ_jira, recordedId]
  | linear => rw [and_iff_left (htakes (by decide)), ← differ_linear, recordedId]
  | zendesk => rw [and_iff_left (htakes (by decide)), ← differ_zendesk, recordedId]
  | slack => exact ⟨fun h => absurd h.1 not_differ_slack, fun h => nomatch h⟩
  | teams => exact ⟨fun h => absurd h.1 not_differ_teams, fun h => nomatch h⟩
  | unspecified => exact ⟨fun h => absurd rfl h.1.1, fun h => nomatch h⟩

section Taken
variable {chrono : Chrono} {v : Json} {ctx : NormalizeContext} {fresh : Fresh} {parseF64 : String → Option Int}

theorem takes_of_normalize {event : CanonicalEventRecord} (h : normalize chrono v ctx fresh parseF64 = .ok event) :
    Takes v ctx.provider := by
  intro hprovider hkind
  unfold normalize at h
  rw [hprovider] at h
  simp only [normalizeGitlab, hkind, if_pos] at h
  unfold normalizeGitlabMr at h
  split at h
  · cases h
  · next hattrs => rw [hattrs, Option.isSome_some]

variable (chrono fresh parseF64) in
theorem normalize_of_deviates (h : Deviates (ctx.eventName.getD "") v ctx.provider) :
    ∃ event, normalize chrono v ctx fresh parseF64 = .ok event := by
  have htakes := (differ_iff.mpr h).2
  cases hresult : normalize chrono v ctx fresh parseF64 with
  | ok event => exact ⟨event, rfl⟩
  | error e =>
    exfalso
    unfold normalize at hresult
    revert h hresult htakes
    generalize ctx.provider = provider
    intro h htakes hresult
    cases h with
    | comment hname hevent =>
      refine absurd ?_ hevent
      rw [(normalizeGithub_error hresult).2.1]
      decide
    | push hkind =>
      unfold normalizeGitlab at hresult
      dsimp only at hresult
      rcases hkind with hkind | hkind <;> simp [hkind] at hresult
    | gitlabUser =>
      unfold normalizeGitlab at hresult
      dsimp only at hresult
      split_ifs at hresult with hmr
      obtain ⟨attrs, hattrs⟩ := Option.isSome_iff_exists.mp (htakes rfl hmr)
      unfold normalizeGitlabMr at hresult
      rw [hattrs] at hresult
      cases hresult
    | jiraUser =>
      unfold normalizeJira at hresult
      dsimp only at hresult
      split at hresult <;> cases hresult
    | linearUser =>
      unfold normalizeLinear at hresult
      dsimp only at hresult
      split at hresult <;> cases hresult
    | linearActor =>
      unfold normalizeLinear at hresult
      dsimp only at hresult
      split at hresult <;> cases hresult
    | ticket => cases hresult

end Taken

/-! ## On the way in -/

namespace IngestPipeline
variable (p : IngestPipeline) (chrono : Chrono) (parseF64 : String → Option Int)

/-- The pipeline with the normalizers of all providers. -/
def normalizing : IngestPipeline :=
  { p with normalizeOther := fun v ctx fresh => Telemetry.normalize chrono v ctx fresh parseF64 }

theorem normalize_normalizing (v : Json) (ctx : NormalizeContext) (fresh : Fresh) :
    (p.normalizing chrono parseF64).normalize v ctx fresh = Telemetry.normalize chrono v ctx fresh parseF64 := by
  unfold normalize
  split
  · next event hidentity => exact (normalize_of_identity hidentity).symm
  · rfl

end IngestPipeline

section Enriched
variable {p : IngestPipeline} {tenant : TenantConfig} {req : IngestRequest} {deliveryId rawUri : String}
  {value : Json} {ok : IngestChoice → Prop} {s : IngestShared}

theorem resolve_ensureUser (acl : InMemoryAclStore) (uuid tenantId providerUserId email displayName : String) :
    (acl.ensureUser uuid tenantId providerUserId email displayName).2.resolveGlobalUserId tenantId providerUserId =
      some (acl.ensureUser uuid tenantId providerUserId email displayName).1 := by
  unfold InMemoryAclStore.ensureUser InMemoryAclStore.resolveGlobalUserId
  cases hget : acl.identityMap.get (tenantId, providerUserId) with
  | some existing => exact hget
  | none => exact KMap.get_put_self _ _ _

/-- The sender was looked up. -/
def Looked (req : IngestRequest) (value : Json) (globalUserId : String) (s : IngestShared) : Prop :=
  extractProviderUserId req.provider value ≠ "" →
    s.acl.resolveGlobalUserId req.tenantId (extractProviderUserId req.provider value) = some globalUserId

/-- Some port may fail. -/
def Faulty (ok : IngestChoice → Prop) : Prop := ∃ c, ok c ∧ c.fault ≠ none

theorem resolveSender_ensures : (IngestPipeline.resolveSender req value).run.Ensures p.answer ok
    (fun r s' => (∃ globalUserId, r = .ok globalUserId ∧ Looked req value globalUserId s') ∨
      ((∃ e, r = .error e) ∧ Faulty ok)) s := by
  unfold IngestPipeline.resolveSender
  dsimp only
  split_ifs with hempty
  · exact .inl ⟨"", rfl, fun hne => absurd hempty hne⟩
  · apply ask_ensures
    intro c r s' hc hs
    unfold IngestPipeline.answer at hs
    split at hs
    · next e _ hfault =>
      obtain ⟨rfl, -⟩ := Prod.mk.inj (Option.some.inj hs)
      exact .inr ⟨⟨e, rfl⟩, c, hc, by rw [hfault]; exact Option.some_ne_none _⟩
    · obtain ⟨rfl, rfl⟩ := Prod.mk.inj (Option.some.inj hs)
      exact .inl ⟨_, rfl, fun _ => resolve_ensureUser _ _ _ _ _ _⟩

/-- The result is that of the normalizer, unless a port fails. -/
theorem normalizeAndEnrich_ensures (ok : IngestChoice → Prop) (hvalue : p.fromSlice req.body = .ok value) :
    (p.normalizeAndEnrich tenant req deliveryId rawUri).run.Ensures p.answer ok
      (fun r s' => (∃ ctx fresh, ctx.provider = req.provider ∧ ctx.eventName = req.headers.eventName ∧
          r = p.normalize value ctx fresh ∧ Looked req value ctx.actorGlobalUserId s') ∨
        ((∃ e, r = .error e) ∧ Faulty ok)) s := by
  unfold IngestPipeline.normalizeAndEnrich
  rw [hvalue]
  apply bind_ensures resolveSender_ensures
  · rintro globalUserId s₁ (⟨_, hid, hlooked⟩ | ⟨⟨e, he⟩, -⟩)
    · cases hid
      apply ask_bind_ensures
      · intro c aclVersion s₂ _ hs₂
        obtain ⟨-, rfl⟩ := Prod.mk.inj (Option.some.inj hs₂)
        apply ask_bind_ensures
        · intro c fresh s₃ _ hs₃
          obtain ⟨-, rfl⟩ := Prod.mk.inj (Option.some.inj hs₃)
          generalize hresult : p.normalize value _ fresh = result
          cases result with
          | error e => exact Or.inl ⟨_, fresh, rfl, rfl, hresult.symm, hlooked⟩
          | ok event => exact Or.inl ⟨_, fresh, rfl, rfl, hresult.symm, hlooked⟩
        · intro c e s₃ _ hs₃
          cases hs₃
      · intro c e s₂ _ hs₂
        cases hs₂
    · cases he
  · rintro e s₁ (⟨_, hid, -⟩ | ⟨-, hfaulty⟩)
    · cases hid
    · exact .inr ⟨⟨e, rfl⟩, hfaulty⟩

/-- No port fails. -/
def Faultless (c : IngestChoice) : Prop := c.fault = none

theorem answer_faultless (p : IngestPipeline) (op : IngestOp) (s : IngestShared) :
    p.answer {} op s = some (s.perform p {} op) := by
  unfold IngestPipeline.answer
  split
  · next hfault => cases hfault
  · rfl

theorem exists_exec_faultless {α : Type} (p : IngestPipeline) (prog : Prog IngestOp IngestOp.Res α)
    (s : IngestShared) : ∃ cs a s', (∀ n, Faultless (cs n)) ∧ prog.exec p.answer cs s = some (a, s') := by
  apply Prog.exists_exec
  · exact ⟨({} : IngestChoice), rfl⟩
  · intro op s
    exact ⟨({} : IngestChoice), _, _, rfl, answer_faultless p op s⟩

end Enriched

/-! ## Agreement -/

/-- Whatever the environment does: if the webhook becomes an event, and both ids are given, then the recorded id is the
one that was looked up, and the recorded global id is what the identity map has for it. -/
def ActorsAgree (p : IngestPipeline) (tenant : TenantConfig) (req : IngestRequest) : Prop :=
  ∀ value, p.fromSlice req.body = .ok value → ∀ deliveryId rawUri cs s event s',
    (p.normalizeAndEnrich tenant req deliveryId rawUri).run.exec p.answer cs s = some (.ok event, s') →
    extractProviderUserId req.provider value ≠ "" → event.actor.providerUserId ≠ "" →
    event.actor.providerUserId = extractProviderUserId req.provider value ∧
      s'.acl.resolveGlobalUserId req.tenantId event.actor.providerUserId = some event.actor.globalUserId

section Agreement
variable {p : IngestPipeline} {chrono : Chrono} {parseF64 : String → Option Int} {tenant : TenantConfig}
  {req : IngestRequest} {value : Json}

theorem not_agree_of_deviates (hvalue : p.fromSlice req.body = .ok value)
    (hdeviates : Deviates (req.headers.eventName.getD "") value req.provider) :
    ¬ ActorsAgree (p.normalizing chrono parseF64) tenant req := by
  intro h
  have hread : (p.normalizing chrono parseF64).fromSlice req.body = .ok value := hvalue
  -- where no port fails, the webhook becomes an event
  obtain ⟨cs, r, s', hcs, hexec⟩ := exists_exec_faultless (p.normalizing chrono parseF64)
    ((p.normalizing chrono parseF64).normalizeAndEnrich tenant req "" "").run ⟨∅, .new 0, ⟨∅, ∅, ∅⟩, [], []⟩
  have hensures := (normalizeAndEnrich_ensures Faultless hread).of_exec hcs hexec
  rcases hensures with ⟨ctx, fresh, hprovider, hname, hr, -⟩ | ⟨-, c, hc, hfault⟩
  · rw [IngestPipeline.normalize_normalizing] at hr
    rw [← hname, ← hprovider] at hdeviates
    obtain ⟨event, hevent⟩ := normalize_of_deviates chrono fresh parseF64 hdeviates
    rw [hevent] at hr
    rw [hr] at hexec
    obtain ⟨hrecorded, hextract, hne⟩ := (differ_iff.mpr hdeviates).1
    rw [← (normalize_recorded hevent).2] at hrecorded hne
    rw [hprovider] at hextract hne
    exact hne (h value hvalue "" "" cs _ event s' hexec hextract hrecorded).1
  · exact hfault hc

theorem agree_of_not_deviates (h : ∀ value, p.fromSlice req.body = .ok value →
    ¬ Deviates (req.headers.eventName.getD "") value req.provider) :
    ActorsAgree (p.normalizing chrono parseF64) tenant req := by
  intro value hvalue deliveryId rawUri cs s event s' hexec hextract hrecorded
  have hensures := (normalizeAndEnrich_ensures (fun _ => True) hvalue).of_exec (fun _ => trivial) hexec
  rcases hensures with ⟨ctx, fresh, hprovider, hname, hr, hlooked⟩ | ⟨⟨e, he⟩, -⟩
  · rw [IngestPipeline.normalize_normalizing] at hr
    obtain ⟨hglobal, hid⟩ := normalize_recorded hr.symm
    have hsame : event.actor.providerUserId = extractProviderUserId req.provider value := by
      by_contra hne
      apply h value hvalue
      rw [← hname, ← hprovider]
      apply differ_iff.mp
      refine ⟨?_, takes_of_normalize hr.symm⟩
      rw [← hid, hprovider]
      exact ⟨hrecorded, hextract, hne⟩
    refine ⟨hsame, ?_⟩
    rw [hsame, hglobal]
    exact hlooked hextract
  · cases he

end Agreement

theorem actorsAgree_iff (p : IngestPipeline) (chrono : Chrono) (parseF64 : String → Option Int) (tenant : TenantConfig)
    (req : IngestRequest) : ActorsAgree (p.normalizing chrono parseF64) tenant req ↔
      ∀ value, p.fromSlice req.body = .ok value →
        ¬ Deviates (req.headers.eventName.getD "") value req.provider := by
  constructor
  · intro h value hvalue hdeviates
    exact not_agree_of_deviates hvalue hdeviates h
  · intro h
    exact agree_of_not_deviates h

/-- A moderator edits the comment of another user. -/
def editedComment : Json :=
  .obj [("action", .str "edited"), ("comment", .obj [("id", .num 9 0), ("user", .obj [("id", .num 2 0)])]),
    ("sender", .obj [("id", .num 1 0)])]

def editedCommentRequest : IngestRequest where
  tenantId := "ten_demo"
  provider := .github
  body := []
  headers := { eventName := some "discussion_comment" }

/-- The global id of the moderator is recorded with the id of the author. -/
theorem not_actorsAgree : ¬ ∀ p chrono parseF64 tenant req,
    ActorsAgree (IngestPipeline.normalizing p chrono parseF64) tenant req := by
  intro h
  let p : IngestPipeline := ⟨true, fun _ _ _ _ _ => .ok (), fun _ => .ok editedComment,
    fun _ _ _ => .error (.normalization "unknown"), false⟩
  have hvalue : p.fromSlice editedCommentRequest.body = .ok editedComment := rfl
  have hdeviates : Deviates "discussion_comment" editedComment .github :=
    .comment (by decide) (by decide) (by decide) (by decide) rfl rfl rfl rfl ⟨by decide, by decide, by decide⟩
  let chrono : Chrono := ⟨fun _ => none, fun _ => none, fun _ => none, fun n _ => n⟩
  have hagree := h p chrono (fun _ => none) { tenantId := "ten_demo" } editedCommentRequest
  exact not_agree_of_deviates hvalue hdeviates hagree

end AiManager.Telemetry
