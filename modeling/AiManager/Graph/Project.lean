import AiManager.Graph.Membership
import AiManager.Graph.Store
import AiManager.Lib.Text

/-! # Projection

The engine that turns the records of the ingestion's topics into changes of the graph and of the
memberships. It marks an event first and does its work after that. The engine is generic in the effects
of its ports, and in the mapping of events to mutations. -/

namespace AiManager.Graph

open Lib

/-! ## Records of the topics -/

structure V1Actor where
  globalUserId : String := ""
  providerUserId : String := ""
  email : String := ""
  displayName : String := ""
  deriving DecidableEq, Inhabited

structure V1Acl where
  tenantId : String := ""
  allowedGroupIds : List String := []
  isPrivate : Bool := false
  aclVersion : Nat := 0
  deriving DecidableEq, Inhabited

structure V1CanonicalEvent where
  eventId : String
  tenantId : String
  provider : String := ""
  category : String := ""
  eventType : String
  eventTimestamp : DateTime
  ingestedAt : DateTime
  actor : V1Actor := {}
  acl : V1Acl := {}
  resourceId : String := ""
  parentResourceId : String := ""
  attributes : Json := .null
  rawPayloadS3Uri : String := ""
  eventSequenceNumber : Nat := 0
  deriving Inhabited

structure V1AclRevocation where
  eventId : String
  tenantId : String
  globalUserId : String := ""
  providerUserId : String := ""
  provider : String := ""
  groupId : String
  changeType : String
  aclVersion : Nat := 0
  timestamp : DateTime
  deriving DecidableEq, Inhabited

inductive V1BusPayload where
  | event (ev : V1CanonicalEvent)
  | acl (rev : V1AclRevocation)

inductive ProjectStatus where
  | applied
  | duplicate
  | skipped
  deriving DecidableEq, Repr

structure ProjectOutcome where
  eventId : String
  tenantId : String
  status : ProjectStatus
  nodesUpserted : Nat := 0
  edgesUpserted : Nat := 0
  deriving DecidableEq, Repr

/-! ## Membership changes of identity events -/

def membershipChangeOf (eventType : String) : Option String :=
  let et := Text.toAsciiLowercase eventType
  if Text.contains et "remove" || Text.contains et "left" || Text.contains et "deleted" then
    some "removed_from_group"
  else if Text.contains et "add" || Text.contains et "join" || Text.contains et "created" then
    some "added_to_group"
  else none

structure MembershipChange where
  tenantId : String
  globalUserId : String
  groupId : String
  changeType : String
  deriving DecidableEq

/-- The membership change that an identity event asks for. -/
def membershipFromIdentityEvent (event : V1CanonicalEvent) : Option MembershipChange :=
  let team := ((((event.attributes.get "team").or (event.attributes.get "group_name")).or
    (event.attributes.get "channel")).bind Json.asStr).getD ""
  let member := (((event.attributes.get "member").or (event.attributes.get "user")).bind
    Json.asStr).getD event.actor.globalUserId
  if team = "" ∨ member = "" then none
  else
    (membershipChangeOf event.eventType).map fun change =>
      -- the global user id when available
      { tenantId := event.tenantId
        globalUserId := if event.actor.globalUserId ≠ "" then event.actor.globalUserId else member
        groupId := team
        changeType := change }

/-! ## The engine -/

/-- The part of the graph port that projection uses. -/
structure GraphStore (m : Type → Type) where
  markEventApplied : String → String → m (GraphResult Bool)
  applyMutation : GraphMutation → m (GraphResult Unit)

structure ProjectEngine (m : Type → Type) where
  store : GraphStore m
  membership : MembershipStore m

section Engine
variable {m : Type → Type} [Monad m]

/-- The outcome of the change is not looked at. -/
def tryMembershipFromIdentityEvent (membership : MembershipStore m) (event : V1CanonicalEvent) :
    m Unit :=
  match membershipFromIdentityEvent event with
  | none => pure ()
  | some change => do
    let _ ← applyMembershipChange membership change.tenantId change.globalUserId change.groupId
      change.changeType
    pure ()

/-- The event goes through the membership side channel. -/
def isMembershipEvent (event : V1CanonicalEvent) : Bool :=
  Text.eqIgnoreAsciiCase event.category "identity" || Text.contains event.eventType "identity" ||
    Text.contains event.eventType "member"

/-- The identity and access side channel of an event. -/
def membershipSideChannel (membership : MembershipStore m) (event : V1CanonicalEvent) : m Unit :=
  if isMembershipEvent event then tryMembershipFromIdentityEvent membership event else pure ()

def GraphMutation.isEmpty (mutation : GraphMutation) : Bool :=
  mutation.nodes.isEmpty && mutation.edges.isEmpty && mutation.states.isEmpty

variable (mapEvent : V1CanonicalEvent → GraphMutation) (engine : ProjectEngine m)

def projectEvent (event : V1CanonicalEvent) : ExceptT GraphError m ProjectOutcome := do
  let first ← ExceptT.mk (engine.store.markEventApplied event.tenantId event.eventId)
  if !first then
    return { eventId := event.eventId, tenantId := event.tenantId, status := .duplicate }
  ExceptT.lift (membershipSideChannel engine.membership event)
  let mutation := mapEvent event
  if mutation.isEmpty then
    return { eventId := event.eventId, tenantId := event.tenantId, status := .skipped }
  ExceptT.mk (engine.store.applyMutation mutation)
  return {
    eventId := event.eventId
    tenantId := event.tenantId
    status := .applied
    nodesUpserted := mutation.nodes.length
    edgesUpserted := mutation.edges.length }

def projectAclRevocation (rev : V1AclRevocation) : ExceptT GraphError m ProjectOutcome := do
  let first ← ExceptT.mk (engine.store.markEventApplied rev.tenantId rev.eventId)
  if !first then
    return { eventId := rev.eventId, tenantId := rev.tenantId, status := .duplicate }
  ExceptT.mk (applyMembershipChange engine.membership rev.tenantId rev.globalUserId rev.groupId
    rev.changeType)
  return { eventId := rev.eventId, tenantId := rev.tenantId, status := .applied }

end Engine

/-! ## In memory -/

/-- The store after the membership side channel of an event. -/
def InMemoryMembership.afterIdentityEvent (st : InMemoryMembership) (event : V1CanonicalEvent) :
    InMemoryMembership :=
  ((tryMembershipFromIdentityEvent InMemoryMembership.port event).run st).2

/-- The store after the membership change of an access record. -/
def InMemoryMembership.afterRevocation (st : InMemoryMembership) (rev : V1AclRevocation) :
    InMemoryMembership :=
  st.changed rev.tenantId rev.globalUserId rev.groupId rev.changeType

theorem InMemoryMembership.afterIdentityEvent_eq (st : InMemoryMembership) (event : V1CanonicalEvent) :
    st.afterIdentityEvent event =
      match membershipFromIdentityEvent event with
      | none => st
      | some c => st.changed c.tenantId c.globalUserId c.groupId c.changeType := by
  unfold afterIdentityEvent tryMembershipFromIdentityEvent
  cases membershipFromIdentityEvent event <;> rfl

end AiManager.Graph
