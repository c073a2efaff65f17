import AiManager.Graph.AccessOrder

/-! # Team edges and group sets

An identity event that names a team drives both the graph and the memberships. Joining adds an edge and
puts the group into the user's set; leaving takes the group out of the set, and the edge stays: team edges
are made and never closed (`memberOf_edges`). -/

namespace AiManager.Graph

open Lib

/-! ## Edge types -/

/-- The types of the edges other than a pull request's and a team's. -/
def otherEdgeTypes : List String :=
  ["AUTHORED", "ASSIGNED_TO", "CLAIMS", "ABOUT", "PUSHED_TO", "CHECKED", "DISCUSSED_IN", "BLOCKS"]

section EdgeTypes
variable {isAlphanumeric : Char → Bool} {event : V1CanonicalEvent} {e : GraphEdge}

theorem edgeType_attachIntentMutation {about : GraphNode} {owner title body : String}
    {labels : List String}
    (h : e ∈ (attachIntentMutation isAlphanumeric event about owner title labels body).edges) :
    e.edgeType = "CLAIMS" ∨ e.edgeType = "ABOUT" := by
  unfold attachIntentMutation at h
  split at h
  · cases h
  · rcases List.mem_pair.mp h with rfl | rfl
    · exact .inl rfl
    · exact .inr rfl

theorem edgeType_mergeIntentInto {base : GraphMutation} {aboutNodeId : String}
    (h : e ∈ (mergeIntentInto isAlphanumeric base event aboutNodeId).edges) :
    e ∈ base.edges ∨ e.edgeType = "CLAIMS" ∨ e.edgeType = "ABOUT" := by
  unfold mergeIntentInto at h
  split at h
  · exact .inl h
  · split at h
    · exact .inl h
    · exact (List.mem_append.mp h).imp_right edgeType_attachIntentMutation

theorem edgeType_assignedTo {issueNodeId : String} (h : e ∈ (assignedTo event issueNodeId).2) :
    e.edgeType = "ASSIGNED_TO" := by
  unfold assignedTo at h
  split at h
  · rw [List.mem_singleton.mp h]
    rfl
  · split at h
    · rw [List.mem_singleton.mp h]
      rfl
    · cases h

theorem edgeType_mapIssue (h : e ∈ (mapIssue isAlphanumeric event).edges) :
    e.edgeType ∈ otherEdgeTypes := by
  rcases edgeType_mergeIntentInto h with h | h | h
  · rcases List.mem_cons.mp h with rfl | h
    · exact List.mem_cons_self
    · simp [edgeType_assignedTo h, otherEdgeTypes]
  · simp [h, otherEdgeTypes]
  · simp [h, otherEdgeTypes]

theorem edgeType_mapPush (h : e ∈ (mapPush event).edges) : e.edgeType ∈ otherEdgeTypes := by
  unfold mapPush at h
  dsimp only at h
  split_ifs at h
  · cases h
  · rcases List.mem_cons.mp h with rfl | h
    · simp [ownEdge, eventEdge, otherEdgeTypes]
    · obtain ⟨row, hrow, rfl⟩ := List.mem_map.mp h
      obtain ⟨c, -, hc⟩ := List.mem_filterMap.mp hrow
      unfold pushedCommit at hc
      dsimp only at hc
      split_ifs at hc
      rw [← Option.some.inj hc]
      exact List.mem_cons_self

theorem edgeType_mapOther (h : e ∈ (mapOther isAlphanumeric event).edges) :
    e.edgeType ∈ otherEdgeTypes := by
  have hown : ∀ edgeType ∈ otherEdgeTypes, ∀ f t props, e ∈ [ownEdge event edgeType f t props] →
      e.edgeType ∈ otherEdgeTypes := by
    intro edgeType htype f t props he
    rw [List.mem_singleton.mp he]
    exact htype
  unfold mapOther at h
  dsimp only at h
  split_ifs at h
  · exact edgeType_mapIssue h
  · exact edgeType_mapPush h
  · unfold mapCheckActivity at h
    dsimp only at h
    split_ifs at h
    · cases h
    · exact hown "CHECKED" (by decide) _ _ _ h
    · cases h
    · exact hown "CHECKED" (by decide) _ _ _ h
  · exact hown "DISCUSSED_IN" (by decide) _ _ _ h
  · unfold mapBlockerHint at h
    split at h
    · exact hown "BLOCKS" (by decide) _ _ _ h
    · cases h
  · cases h

end EdgeTypes

/-! ## Team events -/

section TeamEvents
variable {isAlphanumeric : Char → Bool} {event : V1CanonicalEvent} {events : List V1CanonicalEvent}

/-- The node of the person with this key. -/
def personIdOf (key : String) : String :=
  if Text.startsWith key "prov:" then personFromProvider (Text.trimStartMatches key "prov:")
  else personNodeId key

def teamOf (event : V1CanonicalEvent) : String := (event.attributes.getStr "team").getD ""

/-- An identity event that names a team and its actor, and that the memberships read as joining or
leaving. -/
structure TeamEvent (event : V1CanonicalEvent) : Prop where
  identity : Text.eqIgnoreAsciiCase event.category "identity" = true
  dispatched : isPullRequestEvent event.eventType = false
  actor : event.actor.globalUserId ≠ ""
  team : teamOf event ≠ ""
  read : (membershipFromIdentityEvent event).isSome = true

def Joins (event : V1CanonicalEvent) : Prop := membershipChangeOf event.eventType = some "added_to_group"

/-- The edge of a person in a team. -/
def memberEdge (event : V1CanonicalEvent) : GraphEdge :=
  stableEdge event "MEMBER_OF" (personIdOf event.actor.globalUserId) (teamNodeId (teamOf event))
    (.obj [("team", .str (teamOf event))])

namespace TeamEvent

theorem getTeam (h : TeamEvent event) : event.attributes.get "team" = some (.str (teamOf event)) := by
  have hteam := h.team
  unfold teamOf Json.getStr at hteam ⊢
  cases hget : event.attributes.get "team" with
  | none =>
    rw [hget] at hteam
    exact absurd rfl hteam
  | some v =>
    rw [hget] at hteam
    cases v with
    | str s => rfl
    | null => exact absurd rfl hteam
    | bool b => exact absurd rfl hteam
    | num m s => exact absurd rfl hteam
    | arr items => exact absurd rfl hteam
    | obj fields => exact absurd rfl hteam

theorem personNode_nodeId (h : TeamEvent event) :
    (personNode event).nodeId = personIdOf event.actor.globalUserId := by
  have hkey : personKey event = event.actor.globalUserId := if_pos h.actor
  show personIdOf (personKey event) = _
  rw [hkey]

/-- What the memberships read out of the event. -/
theorem change (h : TeamEvent event) : ∃ changeType, membershipChangeOf event.eventType = some changeType ∧
    V1BusPayload.change (.event event) =
      some ⟨event.tenantId, event.actor.globalUserId, teamOf event, changeType⟩ := by
  have hread := h.read
  have hidentity : isMembershipEvent event = true := by
    unfold isMembershipEvent
    rw [h.identity]
    rfl
  unfold V1BusPayload.change changeOfEvent
  dsimp only
  rw [if_pos hidentity]
  unfold membershipFromIdentityEvent at hread ⊢
  dsimp only at hread ⊢
  split at hread
  · cases hread
  · next hnamed =>
    rw [if_neg hnamed]
    rw [Option.isSome_map] at hread
    obtain ⟨changeType, hchange⟩ := Option.isSome_iff_exists.mp hread
    refine ⟨changeType, hchange, ?_⟩
    rw [hchange, Option.map_some, if_pos h.actor, h.getTeam]
    rfl

variable (isAlphanumeric) in
/-- Only joining makes a team edge, and it makes no other. -/
theorem mem_edges_iff (h : TeamEvent event) {e : GraphEdge} :
    e ∈ (mapEvent isAlphanumeric event).edges ∧ e.edgeType = "MEMBER_OF" ↔
      Joins event ∧ e = memberEdge event := by
  obtain ⟨changeType, hchange, -⟩ := h.change
  have hteam : isTeamEvent event = true := by
    unfold isTeamEvent
    dsimp only
    rw [h.identity]
    rfl
  have hname : ((((((event.attributes.get "team").or (event.attributes.get "group_name")).or
      (event.attributes.get "group_id")).or (event.attributes.get "channel")).or
      (event.attributes.get "org")).bind Json.asStr).getD "" = teamOf event := by
    rw [h.getTeam]
    rfl
  -- the two readings of the type begin with the same test
  have hremoves : (Text.contains (Text.toAsciiLowercase event.eventType) "remove" ||
      Text.contains (Text.toAsciiLowercase event.eventType) "left" ||
      Text.contains (Text.toAsciiLowercase event.eventType) "deleted") = true ↔ ¬ Joins event := by
    unfold Joins
    unfold membershipChangeOf at hchange ⊢
    dsimp only at hchange ⊢
    split at hchange
    · next hremove => simp [hremove]
    · next hstay =>
      split at hchange
      · next hadd => simp [hstay, hadd]
      · cases hchange
  unfold mapEvent
  rw [if_neg (by simp [h.dispatched]), if_pos hteam]
  by_cases hjoins : Joins event
  · have hmap : mapTeamMembership event =
        { nodes := [personNode event, publicNode event (teamNodeId (teamOf event)) "Team" (teamOf event)
            (teamOf event) (.obj [])]
          edges := [memberEdge event] } := by
      unfold mapTeamMembership
      dsimp only
      rw [hname, if_neg h.team, if_neg (fun hremove => hremoves.mp hremove hjoins), h.personNode_nodeId]
      rfl
    rw [hmap]
    constructor
    · rintro ⟨he, -⟩
      exact ⟨hjoins, List.mem_singleton.mp he⟩
    · rintro ⟨-, rfl⟩
      exact ⟨List.mem_singleton_self _, rfl⟩
  · have hmap : mapTeamMembership event = {} := by
      unfold mapTeamMembership
      dsimp only
      rw [hname, if_neg h.team, if_pos (hremoves.mpr hjoins)]
    rw [hmap]
    refine iff_of_false ?_ fun hjoin => hjoins hjoin.1
    rintro ⟨he, htype⟩
    have hother := edgeType_mapOther he
    rw [htype] at hother
    exact absurd hother (by decide)

end TeamEvent

/-- There is an edge of this type from the one node to the other, and it has no end. -/
def ActiveEdge (st : InMemoryGraphStore) (tenantId edgeType fromNodeId toNodeId : String) : Prop :=
  ∃ e ∈ st.allEdges tenantId, e.edgeType = edgeType ∧ e.fromNodeId = fromNodeId ∧
    e.toNodeId = toNodeId ∧ e.validTo = none

/-- Edges that share an id are edges of one relation. -/
def EdgeIdsApart (isAlphanumeric : Char → Bool) (events : List V1CanonicalEvent) : Prop :=
  ∀ event ∈ events, ∀ e ∈ (mapEvent isAlphanumeric event).edges,
    ∀ event' ∈ events, ∀ e' ∈ (mapEvent isAlphanumeric event').edges, e.key = e'.key →
      e.edgeType = e'.edgeType ∧ e.fromNodeId = e'.fromNodeId ∧ e.toNodeId = e'.toNodeId

def eventOf : V1BusPayload → Option V1CanonicalEvent
  | .event event => some event
  | .acl _ => none

/-- The events that count: the first with every event id. -/
def applied (events : List V1CanonicalEvent) : List V1CanonicalEvent :=
  (firstOccurrences [] (events.map .event)).filterMap eventOf

/-- A person with this node joined the group at some time. -/
def EverJoined (events : List V1CanonicalEvent) (tenantId personId group : String) : Prop :=
  ∃ event ∈ applied events, Joins event ∧ event.tenantId = tenantId ∧
    personIdOf event.actor.globalUserId = personId ∧ teamOf event = group

/-- The latest of the events about a user and a group is a joining one. -/
def JoinedLast (events : List V1CanonicalEvent) (tenantId globalUserId group : String) : Prop :=
  ∃ event, ((applied events).filter fun event => event.tenantId = tenantId ∧
    event.actor.globalUserId = globalUserId ∧ teamOf event = group).getLast? = some event ∧ Joins event

theorem map_applied (events : List V1CanonicalEvent) :
    (applied events).map V1BusPayload.event = firstOccurrences [] (events.map .event) := by
  have hall : ∀ p ∈ firstOccurrences [] (events.map V1BusPayload.event), (eventOf p).map .event = some p := by
    intro p hp
    obtain ⟨event, -, rfl⟩ := List.mem_map.mp (mem_firstOccurrences hp).1
    rfl
  unfold applied
  rw [List.map_filterMap, List.filterMap_congr hall, List.filterMap_some]

theorem mem_applied {event : V1CanonicalEvent} :
    event ∈ applied events ↔ .event event ∈ firstOccurrences [] (events.map .event) := by
  rw [← map_applied, List.mem_map_of_injective fun _ _ => V1BusPayload.event.inj]

theorem mem_of_applied {event : V1CanonicalEvent} (h : event ∈ applied events) : event ∈ events := by
  obtain ⟨event', hmem, heq⟩ := List.mem_map.mp (mem_firstOccurrences (mem_applied.mp h)).1
  rwa [← V1BusPayload.event.inj heq]

/-- What the graph holds of a membership: whether anybody with this node ever joined. -/
theorem activeEdge_iff (hevents : ∀ event ∈ events, TeamEvent event)
    (hids : EdgeIdsApart isAlphanumeric events) {t p g : String} :
    ActiveEdge (graphAfter isAlphanumeric events) t "MEMBER_OF" p (teamNodeId g) ↔
      EverJoined events t p g := by
  have hkeys := firstOccurrences_keys [] (events.map V1BusPayload.event)
  unfold graphAfter ActiveEdge
  rw [projectAll_firstOccurrences]
  constructor
  · rintro ⟨e, he, htype, hfrom, hteam, -⟩
    obtain ⟨htenant, q, hq, hmem⟩ := mem_allEdges_projectAll hkeys he
    obtain ⟨event, hevent, rfl⟩ := List.mem_map.mp (mem_firstOccurrences hq).1
    obtain ⟨hjoins, rfl⟩ := ((hevents event hevent).mem_edges_iff isAlphanumeric).mp ⟨hmem, htype⟩
    refine ⟨event, mem_applied.mpr hq, hjoins, htenant, hfrom, ?_⟩
    exact (String.append_right_inj _).mp hteam
  · rintro ⟨event, hevent, hjoins, rfl, rfl, rfl⟩
    have hteam := hevents event (mem_of_applied hevent)
    obtain ⟨hmem, -⟩ := (hteam.mem_edges_iff isAlphanumeric).mpr ⟨hjoins, rfl⟩
    obtain ⟨e, he, hkey, q, hq, hmem'⟩ := exists_allEdges_projectAll
      (mapEvent isAlphanumeric) hkeys (mem_applied.mp hevent) hmem
    obtain ⟨event', hevent', rfl⟩ := List.mem_map.mp (mem_firstOccurrences hq).1
    -- whichever event wrote the edge last, it is one of the same relation
    obtain ⟨htype, hfrom, hto⟩ := hids event' hevent' e hmem' event (mem_of_applied hevent) _ hmem hkey
    refine ⟨e, he, htype, hfrom, hto, ?_⟩
    cases GraphMutation.Of.mapEvent.edges e hmem'
    rfl

/-- What the memberships hold of it: whether the user joined last. -/
theorem mem_getGroups_iff (hevents : ∀ event ∈ events, TeamEvent event) {t u g : String} :
    g ∈ (projectAll (mapEvent isAlphanumeric) (events.map .event)).membership.getGroups t u ↔
      JoinedLast events t u g := by
  let changeOf (event : V1CanonicalEvent) : MembershipChange :=
    ⟨event.tenantId, event.actor.globalUserId, teamOf event, (membershipChangeOf event.eventType).getD ""⟩
  have hchanges : (firstOccurrences [] (events.map .event)).filterMap V1BusPayload.change =
      (applied events).map changeOf := by
    rw [← map_applied, List.filterMap_map, ← List.filterMap_eq_map]
    refine List.filterMap_congr fun event hevent => ?_
    obtain ⟨changeType, htype, hchange⟩ := (hevents event (mem_of_applied hevent)).change
    simp [changeOf, htype, hchange]
  rw [mem_getGroups_projectAll, changesOf, hchanges, List.filter_map, List.getLast?_map]
  unfold JoinedLast
  have hjoins : ∀ event ∈ applied events,
      ((changeOf event).changeType = "added_to_group" ↔ Joins event) := by
    intro event hevent
    obtain ⟨changeType, htype, -⟩ := (hevents event (mem_of_applied hevent)).change
    simp [changeOf, Joins, htype]
  constructor
  · rintro ⟨c, hlast, hadded⟩
    obtain ⟨event, hevent, rfl⟩ := Option.map_eq_some_iff.mp hlast
    have hmem := (List.mem_filter.mp (List.mem_of_getLast? hevent)).1
    exact ⟨event, hevent, (hjoins event hmem).mp hadded⟩
  · rintro ⟨event, hlast, hjoined⟩
    have hmem := (List.mem_filter.mp (List.mem_of_getLast? hlast)).1
    exact ⟨changeOf event, Option.map_eq_some_iff.mpr ⟨event, hlast, rfl⟩, (hjoins event hmem).mpr hjoined⟩

/-- **Team edges and group sets.** After any such events, the edge is there exactly if somebody with the
person's node joined, and the group in the set exactly if the user joined last; so a group in the set has
its edge. -/
theorem memberOf_edges (hevents : ∀ event ∈ events, TeamEvent event)
    (hids : EdgeIdsApart isAlphanumeric events) (t u g : String) :
    let s := projectAll (mapEvent isAlphanumeric) (events.map .event)
    (ActiveEdge s.graph t "MEMBER_OF" (personIdOf u) (teamNodeId g) ↔
      EverJoined events t (personIdOf u) g) ∧
    (g ∈ s.membership.getGroups t u ↔ JoinedLast events t u g) ∧
    (g ∈ s.membership.getGroups t u → ActiveEdge s.graph t "MEMBER_OF" (personIdOf u) (teamNodeId g)) := by
  refine ⟨activeEdge_iff hevents hids, mem_getGroups_iff hevents, fun hmem => ?_⟩
  obtain ⟨event, hlast, hjoins⟩ := (mem_getGroups_iff hevents).mp hmem
  obtain ⟨happlied, habout⟩ := List.mem_filter.mp (List.mem_of_getLast? hlast)
  obtain ⟨ht, hu, hg⟩ := of_decide_eq_true habout
  refine (activeEdge_iff hevents hids).mpr ⟨event, happlied, hjoins, ht, ?_, hg⟩
  rw [hu]

/-- An identity event of user `u` and team `g`. -/
def teamEvent (eventId eventType : String) : V1CanonicalEvent :=
  { eventId := eventId, tenantId := "t", category := "identity", eventType := eventType,
    eventTimestamp := 0, ingestedAt := 0, actor := { globalUserId := "u" },
    attributes := .obj [("team", .str "g")] }

theorem teamEvent_joined_left :
    ∀ event ∈ [teamEvent "e1" "member.joined", teamEvent "e2" "member.left"], TeamEvent event := by
  intro event hevent
  rcases List.mem_pair.mp hevent with rfl | rfl <;>
    exact ⟨by decide, by decide, by decide, by decide, by decide⟩

/-- The user joins and leaves again. -/
theorem memberOf_edges_joined_left :
    let events := [teamEvent "e1" "member.joined", teamEvent "e2" "member.left"]
    let s := projectAll (mapEvent Char.isAlphanum) (events.map .event)
    (ActiveEdge s.graph "t" "MEMBER_OF" (personIdOf "u") (teamNodeId "g") ↔
      EverJoined events "t" (personIdOf "u") "g") ∧
    ("g" ∈ s.membership.getGroups "t" "u" ↔ JoinedLast events "t" "u" "g") := by
  have hids : EdgeIdsApart Char.isAlphanum
      [teamEvent "e1" "member.joined", teamEvent "e2" "member.left"] := by
    have hall : ∀ event ∈ [teamEvent "e1" "member.joined", teamEvent "e2" "member.left"],
        ∀ e ∈ (mapEvent Char.isAlphanum event).edges, e = memberEdge (teamEvent "e1" "member.joined") := by
      intro event hevent e he
      rcases List.mem_pair.mp hevent with rfl | rfl
      · exact List.mem_singleton.mp he
      · cases he
    intro event hevent e he event' hevent' e' he' _
    rw [hall event hevent e he, hall event' hevent' e' he']
    exact ⟨rfl, rfl, rfl⟩
  have h := memberOf_edges teamEvent_joined_left hids "t" "u" "g"
  exact ⟨h.1, h.2.1⟩

/-- The user joins and leaves: the team edge is still there. -/
theorem leaving_keeps_edge :
    let s := projectAll (mapEvent Char.isAlphanum)
      ([teamEvent "e1" "member.joined", teamEvent "e2" "member.left"].map .event)
    ActiveEdge s.graph "t" "MEMBER_OF" (personIdOf "u") (teamNodeId "g") ∧
      "g" ∉ s.membership.getGroups "t" "u" := by
  refine ⟨⟨memberEdge (teamEvent "e1" "member.joined"), ?_, rfl, rfl, rfl, rfl⟩, ?_⟩
  · exact List.mem_singleton_self _
  · decide

end TeamEvents

end AiManager.Graph
