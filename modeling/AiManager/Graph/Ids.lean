import AiManager.Lib.Sha256

/-! # Identifiers of the graph

A node's id names its type and what it stands for. An edge's id is a hash: of the event too where every
event has an edge of its own, of type and ends only where the relation lives on. -/

namespace AiManager.Graph

open Lib

def personNodeId (globalUserId : String) : String :=
  if globalUserId = "" then "person:unknown" else "person:" ++ globalUserId

def personFromProvider (providerUserId : String) : String := "person:prov:" ++ providerUserId

def repoNodeId (resource : String) : String := "repo:" ++ resource

def prNodeId (resourceId : String) : String := "pr:" ++ resourceId

def issueNodeId (resourceId : String) : String := "issue:" ++ resourceId

def teamNodeId (team : String) : String := "team:" ++ team

def channelNodeId (channel : String) : String := "channel:" ++ channel

def commitNodeId (repo sha : String) : String := "commit:" ++ repo ++ ":" ++ sha

/-- One claim for an owner and a work item. -/
def intentNodeId (ownerNodeId aboutNodeId : String) : String :=
  "intent:" ++ ownerNodeId ++ ":" ++ aboutNodeId

/-- The edge of one event. -/
def edgeId (tenantId edgeType fromNodeId toNodeId eventId : String) : String :=
  "e_" ++ Sha256.hex
    (tenantId ++ "|" ++ edgeType ++ "|" ++ fromNodeId ++ "|" ++ toNodeId ++ "|" ++ eventId)

/-- The edge of a relation that lives on. -/
def stableEdgeId (tenantId edgeType fromNodeId toNodeId : String) : String :=
  "es_" ++ Sha256.hex (tenantId ++ "|" ++ edgeType ++ "|" ++ fromNodeId ++ "|" ++ toNodeId)

end AiManager.Graph
