import AiManager.Graph.Consumers
import AiManager.Lib.Text
import AiManager.Twins.Model

/-! # The scheduler and the memberships of the graph

Every tick of the scheduler posts all enabled person twins and their aliases to the users endpoint of the
graph, which replaces a user's whole group set by the two groups of the post. Access records change the
same sets one group at a time. A post undoes whatever the records have said about other groups, and about
these two where they took the user out (`records_stand_iff`). -/

namespace AiManager.Platform

open Lib AiManager.Graph Twins

/-! ## A tick -/

/-- The aliases in a twin's configuration. -/
def twinAliasList (t : Twin) : List String :=
  match (t.configJson.get "provider_aliases").bind Json.asArray with
  | some arr => (arr.filterMap fun a => a.asStr.map Text.trim).filter fun s => s ≠ ""
  | none => []

def pushId (ids : List String) (s : String) : List String :=
  let s := Text.trim s
  if s = "" then ids else if s ∈ ids then ids else ids ++ [s]

/-- Primary subjects and their `gu_` aliases, of the enabled person twins. -/
def membershipUserIdsForTwins (twins : List Twin) : List String :=
  (twins.filter fun t => t.enabled && decide (t.twinKind = .person)).foldl
    (fun ids t => ((twinAliasList t).filter fun a => Text.startsWith a "gu_").foldl pushId
      (pushId ids t.subjectId)) []

/-- The groups of every post. -/
def postedGroups : List String := ["grp_eng", "grp_default"]

/-- The users whom `ensure_v2_membership` posts for a tenant, in order. -/
def ensureV2Membership (tenantId : String) (userIds : List String) : List (String × String) :=
  (userIds ++ ["bridge_reader"]).map fun uid => (tenantId, uid)

/-! ## Records and ticks -/

/-- The graph's stores, the access records that were applied, newest first, and the posts of running ticks
that are still to come. -/
structure Memberships where
  stores : ProjectStores
  projected : List V1AclRevocation
  posts : List (String × String)

inductive MembershipStep where
  | project (rev : V1AclRevocation) (faults : Faults)
  /-- a tick comes to a tenant and reads its twins -/
  | tick (tenantId : String) (twins : List Twin)
  /-- the next post, which may fail -/
  | post (fails : Bool)

namespace Memberships

def start (stores : ProjectStores) : Memberships := ⟨stores, [], []⟩

/-- The users endpoint, `seed_user`. -/
def seedUser (stores : ProjectStores) (tenantId globalUserId : String) (groups : List String) :
    ProjectStores :=
  { stores with membership := stores.membership.setGroups tenantId globalUserId groups }

def step (s : Memberships) : MembershipStep → Memberships
  | .project rev faults =>
    match (projectAclRevocation (ProjectStores.engine faults) rev).run s.stores with
    | (.ok outcome, stores) =>
      { s with
        stores := stores
        projected := if outcome.status = .applied then rev :: s.projected else s.projected }
    | (.error _, stores) => { s with stores := stores }
  | .tick tenantId twins =>
    { s with posts := s.posts ++ ensureV2Membership tenantId (membershipUserIdsForTwins twins) }
  | .post fails =>
    match s.posts with
    | [] => s
    | (tenantId, uid) :: rest =>
      if fails then { s with posts := rest }
      else { s with stores := seedUser s.stores tenantId uid postedGroups, posts := rest }

/-- What the last applied record said about a user and a group. -/
def latestRecord (s : Memberships) (tenantId globalUserId groupId : String) : Option String :=
  (s.projected.find? fun rev => rev.tenantId = tenantId && rev.globalUserId = globalUserId &&
    rev.groupId = groupId).map fun rev => rev.changeType

/-- A user is in a group that a record was about, exactly if the last one put them in. -/
def RecordsStand (s : Memberships) : Prop :=
  ∀ t u g changeType, s.latestRecord t u g = some changeType →
    (g ∈ s.stores.membership.getGroups t u ↔ changeType = "added_to_group")

/-- The next post gives a user a group that the last record took from them, or takes one from them that
it gave. -/
def Undoes (s : Memberships) : MembershipStep → Prop
  | .post false =>
    match s.posts with
    | [] => False
    | (t, u) :: _ => ∃ g changeType, s.latestRecord t u g = some changeType ∧
        ¬ (g ∈ postedGroups ↔ changeType = "added_to_group")
  | _ => False

section Step
variable {s : Memberships} {rev : V1AclRevocation}

theorem latestRecord_cons {stores : ProjectStores} (t u g : String) :
    ({ s with stores := stores, projected := rev :: s.projected } : Memberships).latestRecord t u g =
      if rev.tenantId = t ∧ rev.globalUserId = u ∧ rev.groupId = g then some rev.changeType
      else s.latestRecord t u g := by
  unfold latestRecord
  exact latest_cons (by simp [and_assoc])

/-- An applied record decides about its user and group, and about nothing else. -/
theorem recordsStand_applied (hs : RecordsStand s) (hvalid : rev.change.Valid) (key : String × String) :
    RecordsStand { s with
      stores := changedBy rev.change (marked key s.stores), projected := rev :: s.projected } := by
  obtain ⟨huser, hgroup, hchange⟩ := hvalid
  intro t u g changeType hlatest
  rw [latestRecord_cons] at hlatest
  show g ∈ (s.stores.membership.changed rev.tenantId rev.globalUserId rev.groupId
    rev.changeType).getGroups t u ↔ _
  rw [InMemoryMembership.getGroups_changed]
  -- the record's own user and group, another group of that user, another user
  by_cases hkey : (t, u) = (rev.tenantId, rev.globalUserId)
  · obtain ⟨rfl, rfl⟩ := Prod.mk.inj hkey
    rw [if_pos ⟨rfl, huser, hgroup⟩]
    by_cases hg : g = rev.groupId
    · subst hg
      rw [if_pos ⟨rfl, rfl, rfl⟩] at hlatest
      obtain rfl := Option.some.inj hlatest
      rcases hchange with hremoved | hadded
      · have hremoved' : rev.changeType = "removed_from_group" := hremoved
        simp [InMemoryMembership.changedGroups, hremoved']
      · have hadded' : rev.changeType = "added_to_group" := hadded
        simp [InMemoryMembership.changedGroups, hadded']
    · have hother : ¬ (rev.tenantId = rev.tenantId ∧ rev.globalUserId = rev.globalUserId ∧
          rev.groupId = g) := fun h => hg h.2.2.symm
      rw [if_neg hother] at hlatest
      rw [← hs _ _ g changeType hlatest]
      unfold InMemoryMembership.changedGroups
      split_ifs
      · simp [hg]
      · simp [hg]
      · rfl
  · have hother : ¬ (rev.tenantId = t ∧ rev.globalUserId = u ∧ rev.groupId = g) := by
      rintro ⟨rfl, rfl, -⟩
      exact hkey rfl
    rw [if_neg hother] at hlatest
    rw [if_neg fun h => hkey h.1]
    exact hs t u g changeType hlatest

/-- A post decides about all groups of its user. -/
theorem recordsStand_post_iff (hs : RecordsStand s) (t u : String) (posts : List (String × String)) :
    RecordsStand { s with stores := seedUser s.stores t u postedGroups, posts := posts } ↔
      ¬ ∃ g changeType, s.latestRecord t u g = some changeType ∧
        ¬ (g ∈ postedGroups ↔ changeType = "added_to_group") := by
  have hgroups : ∀ t' u', (seedUser s.stores t u postedGroups).membership.getGroups t' u' =
      if (t', u') = (t, u) then postedGroups.toFinset else s.stores.membership.getGroups t' u' :=
    fun t' u' => InMemoryMembership.getGroups_setGroups t' u'
  constructor
  · rintro hafter ⟨g, changeType, hlatest, hdiffers⟩
    have hstands := hafter t u g changeType hlatest
    rw [hgroups, if_pos rfl, List.mem_toFinset] at hstands
    exact hdiffers hstands
  · intro hno t' u' g changeType hlatest
    rw [hgroups]
    split_ifs with hkey
    · obtain ⟨rfl, rfl⟩ := Prod.mk.inj hkey
      rw [List.mem_toFinset]
      by_contra hdiffers
      exact hno ⟨g, changeType, hlatest, hdiffers⟩
    · exact hs t' u' g changeType hlatest

theorem recordsStand_step_iff (hs : RecordsStand s) (x : MembershipStep) :
    RecordsStand (s.step x) ↔ ¬ Undoes s x := by
  cases x with
  | project rev faults =>
    refine iff_of_true ?_ id
    unfold step
    dsimp only
    rcases projectAclRevocation_cases faults rev s.stores with
      ⟨r, stores, hrun, hmembership, hstatus⟩ | ⟨outcome, hrun, happlied, hvalid⟩
    · rw [hrun]
      cases r with
      | error e =>
        intro t u g changeType hlatest
        rw [← hs t u g changeType hlatest, hmembership]
      | ok outcome =>
        dsimp only
        rw [if_neg (hstatus outcome rfl)]
        intro t u g changeType hlatest
        rw [← hs t u g changeType hlatest, hmembership]
    · rw [hrun]
      dsimp only
      rw [if_pos happlied]
      exact recordsStand_applied hs hvalid _
  | tick tenantId twins => exact iff_of_true hs id
  | post fails =>
    unfold step Undoes
    cases hposts : s.posts with
    | nil =>
      refine iff_of_true hs ?_
      cases fails <;> simp
    | cons next rest =>
      obtain ⟨t, u⟩ := next
      cases fails with
      | true => exact iff_of_true hs id
      | false => exact recordsStand_post_iff hs t u rest

end Step

/-- **Records and ticks.** In a run of access records and scheduler ticks, the memberships are what the
last records say in every state, exactly if no post is for a user whom a last record put into a group it
does not post, or took out of one it does. -/
theorem records_stand_iff (stores : ProjectStores) (xs : List MembershipStep) :
    Throughout step RecordsStand (start stores) xs ↔
      EachStep step (fun s x => ¬ Undoes s x) (start stores) xs := by
  refine throughout_iff (V := fun _ _ => True) (fun s x _ hs => recordsStand_step_iff hs x) ?_ ?_
  · exact .of_forall (fun _ _ => trivial) _ _
  · intro t u g changeType hlatest
    cases hlatest

/-! ### A tick after a removal -/

/-- The user `gu_1` leaves `grp_eng`. -/
def leavesEng : V1AclRevocation where
  eventId := "e"
  tenantId := "t"
  globalUserId := "gu_1"
  groupId := "grp_eng"
  changeType := "removed_from_group"
  timestamp := 0

def twinOfLeaver : Twin := { (default : Twin) with tenantId := "t", subjectId := "gu_1", enabled := true }

theorem tick_readmits :
    ¬ Throughout step RecordsStand (start Projector.emptyStores)
      [.project leavesEng {}, .tick "t" [twinOfLeaver], .post false] := by
  intro h
  have hstands := h.last "t" "gu_1" "grp_eng" "removed_from_group" (by decide +kernel)
  revert hstands
  decide +kernel

end Memberships

end AiManager.Platform
