import AiManager.Graph.Lifecycle

/-! # Access and the order of delivery

Nodes and edges are overwritten by whatever event comes last: the access that is stored is that of the
last delivery, and the version it carries is compared with nothing. `access_newest_iff` says for which
orders of delivery the newest access survives. -/

namespace AiManager.Graph

open Lib

/-- The access fields of a row. -/
structure Access where
  isPrivate : Bool
  allowedGroupIds : List String
  aclVersion : Nat
  deriving DecidableEq

def GraphNode.access (n : GraphNode) : Access := ⟨n.isPrivate, n.allowedGroupIds, n.aclVersion⟩

def GraphEdge.access (e : GraphEdge) : Access := ⟨e.isPrivate, e.allowedGroupIds, e.aclVersion⟩

theorem NodeOf.version {event : V1CanonicalEvent} {n : GraphNode} (h : NodeOf event n) :
    n.access.aclVersion = event.acl.aclVersion := by
  cases h <;> rfl

theorem EdgeOf.version {event : V1CanonicalEvent} {e : GraphEdge} (h : EdgeOf event e) :
    e.access.aclVersion = event.acl.aclVersion := by
  cases h
  rfl

theorem EdgeOf.validFrom {event : V1CanonicalEvent} {e : GraphEdge} (h : EdgeOf event e) :
    e.validFrom = event.eventTimestamp := by
  cases h
  rfl

section Newest
variable {α : Type} (rowsAt : V1CanonicalEvent → List α) (access : α → Access)

/-- The event writes a row of the kind. -/
def Upserts (e : V1CanonicalEvent) : Prop := rowsAt e ≠ []

instance : DecidablePred (Upserts rowsAt) := fun e => inferInstanceAs (Decidable (rowsAt e ≠ []))

/-- The stored access is what an event gives the row that has the highest version of those that write
it. -/
def AccessNewest (events : List V1CanonicalEvent) (stored : Option α) : Prop :=
  ∃ row, stored = some row ∧ ∃ e ∈ events,
    (∀ e' ∈ events, Upserts rowsAt e' → e'.acl.aclVersion ≤ e.acl.aclVersion) ∧
      ∃ row' ∈ rowsAt e, access row' = access row

/-- The last one to write is of the highest version. -/
def LastHasHighest (events : List V1CanonicalEvent) (last : V1CanonicalEvent) : Prop :=
  ∀ e ∈ events, Upserts rowsAt e → e.acl.aclVersion ≤ last.acl.aclVersion

/-- Of those of its version, the last one to write is the newest. -/
def LastIsNewest (events : List V1CanonicalEvent) (last : V1CanonicalEvent) : Prop :=
  ∀ e ∈ events, Upserts rowsAt e → e.acl.aclVersion = last.acl.aclVersion →
    e.eventTimestamp ≤ last.eventTimestamp

variable {rowsAt access} {events : List V1CanonicalEvent} {last : V1CanonicalEvent}

/-- What was written last is a row of the last event that writes one. -/
theorem getLast?_rows (hlast : (events.filter (Upserts rowsAt ·)).getLast? = some last) :
    last ∈ events ∧ ∃ row ∈ rowsAt last, (events.flatMap rowsAt).getLast? = some row := by
  induction events using List.reverseRecOn with
  | nil => cases hlast
  | append_singleton events e ih =>
    rw [List.flatMap_append, List.flatMap_singleton, List.getLast?_append]
    rw [List.filter_append] at hlast
    by_cases he : Upserts rowsAt e
    · rw [List.filter_cons_of_pos (by simpa using he), List.filter_nil, List.getLast?_concat] at hlast
      obtain rfl := Option.some.inj hlast
      refine ⟨List.mem_append_right _ (List.mem_singleton_self e), (rowsAt e).getLast he,
        List.getLast_mem he, ?_⟩
      rw [List.getLast?_eq_some_getLast he, Option.some_or]
    · rw [List.filter_cons_of_neg (by simpa using he), List.filter_nil, List.append_nil] at hlast
      obtain ⟨hmem, row, hrow, hflat⟩ := ih hlast
      refine ⟨List.mem_append_left _ hmem, row, hrow, ?_⟩
      rw [not_not.mp he, List.getLast?_nil, Option.none_or, hflat]

theorem accessNewest_iff (hversion : ∀ e, ∀ row ∈ rowsAt e, (access row).aclVersion = e.acl.aclVersion)
    (hlast : (events.filter (Upserts rowsAt ·)).getLast? = some last) :
    AccessNewest rowsAt access events (events.flatMap rowsAt).getLast? ↔
      LastHasHighest rowsAt events last := by
  obtain ⟨hmem, row, hrow, hflat⟩ := getLast?_rows hlast
  rw [hflat]
  constructor
  · rintro ⟨row', hrow', e, -, hmax, row'', hrow'', haccess⟩ e' he' hupserts
    obtain rfl := Option.some.inj hrow'
    have hsame : e.acl.aclVersion = last.acl.aclVersion := by
      rw [← hversion e row'' hrow'', haccess, hversion last row hrow]
    exact (hmax e' he' hupserts).trans_eq hsame
  · intro hhighest
    exact ⟨row, rfl, last, hmem, hhighest, row, hrow, rfl⟩

end Newest

/-! ## Nodes and edges -/

section Rows
variable (isAlphanumeric : Char → Bool) (key : String × String)

def nodesOf (e : V1CanonicalEvent) : List GraphNode := (mapEvent isAlphanumeric e).nodesAt key

def edgesOf (e : V1CanonicalEvent) : List GraphEdge := (mapEvent isAlphanumeric e).edgesAt key

/-- No event of the stored version is newer than the edge. -/
def EdgeNotOlder (events : List V1CanonicalEvent) (stored : Option GraphEdge) : Prop :=
  ∃ edge, stored = some edge ∧ ∀ e ∈ events, Upserts (edgesOf isAlphanumeric key) e →
    e.acl.aclVersion = edge.aclVersion → e.eventTimestamp ≤ edge.validFrom

/-- The graph after these events. -/
def graphAfter (events : List V1CanonicalEvent) : InMemoryGraphStore :=
  (projectAll (mapEvent isAlphanumeric) (events.map .event)).graph

variable {isAlphanumeric key} {events : List V1CanonicalEvent} {last : V1CanonicalEvent}

theorem edgeNotOlder_iff
    (hlast : (events.filter (Upserts (edgesOf isAlphanumeric key) ·)).getLast? = some last) :
    EdgeNotOlder isAlphanumeric key events (events.flatMap (edgesOf isAlphanumeric key)).getLast? ↔
      LastIsNewest (edgesOf isAlphanumeric key) events last := by
  obtain ⟨-, edge, hedge, hflat⟩ := getLast?_rows hlast
  have hof : EdgeOf last edge := GraphMutation.Of.mapEvent.edges edge (List.mem_filter.mp hedge).1
  have hversion : edge.aclVersion = last.acl.aclVersion := hof.version
  rw [hflat]
  constructor
  · rintro ⟨edge', hedge', hnewest⟩ e he hupserts hsame
    obtain rfl := Option.some.inj hedge'
    rw [← hof.validFrom]
    exact hnewest e he hupserts (hsame.trans hversion.symm)
  · intro hnewest
    refine ⟨edge, rfl, fun e he hupserts hsame => ?_⟩
    rw [hof.validFrom]
    exact hnewest e he hupserts (hsame.trans hversion)

/-- **The newest access survives exactly if it is delivered last.** -/
theorem access_newest_iff (hids : (events.map V1CanonicalEvent.eventId).Nodup) :
    (∀ key last, (events.filter (Upserts (nodesOf isAlphanumeric key) ·)).getLast? = some last →
      (AccessNewest (nodesOf isAlphanumeric key) GraphNode.access events
          ((graphAfter isAlphanumeric events).nodes.get key) ↔
        LastHasHighest (nodesOf isAlphanumeric key) events last)) ∧
    (∀ key last, (events.filter (Upserts (edgesOf isAlphanumeric key) ·)).getLast? = some last →
      (AccessNewest (edgesOf isAlphanumeric key) GraphEdge.access events
          ((graphAfter isAlphanumeric events).getEdge key) ∧
        EdgeNotOlder isAlphanumeric key events ((graphAfter isAlphanumeric events).getEdge key) ↔
        LastHasHighest (edgesOf isAlphanumeric key) events last ∧
          LastIsNewest (edgesOf isAlphanumeric key) events last)) := by
  -- nodes and edges are overwritten, so that the last row written is the one stored
  refine ⟨fun key last hlast => ?_, fun key last hlast => ?_⟩
  · have hstored : (graphAfter isAlphanumeric events).nodes.get key =
        (events.flatMap (nodesOf isAlphanumeric key)).getLast? := by
      unfold graphAfter
      rw [projectAll_nodes _ (keys_nodup hids), List.flatMap_map]
      rfl
    rw [hstored]
    refine accessNewest_iff (fun e row hrow => ?_) hlast
    exact (GraphMutation.Of.mapEvent.nodes row (List.mem_filter.mp hrow).1).version
  · have hstored : (graphAfter isAlphanumeric events).getEdge key =
        (events.flatMap (edgesOf isAlphanumeric key)).getLast? := by
      unfold graphAfter
      rw [projectAll_edges _ (keys_nodup hids), List.flatMap_map]
      rfl
    rw [hstored]
    refine and_congr (accessNewest_iff (fun e row hrow => ?_) hlast) (edgeNotOlder_iff hlast)
    exact (GraphMutation.Of.mapEvent.edges row (List.mem_filter.mp hrow).1).version

/-- The pull request `r/pr/1`, first open to everybody, then to one group. -/
def openedToAll : V1CanonicalEvent :=
  { pullRequestEvent "a" "opened" 0 with acl := { aclVersion := 1 } }

def restricted : V1CanonicalEvent :=
  { pullRequestEvent "b" "edited" 5 with
    acl := { allowedGroupIds := ["g"], isPrivate := true, aclVersion := 2 } }

/-- In the order in which they happened. -/
theorem access_newest_iff_in_order :
    AccessNewest (nodesOf Char.isAlphanum ("t", "pr:r/pr/1")) GraphNode.access [openedToAll, restricted]
      ((graphAfter Char.isAlphanum [openedToAll, restricted]).nodes.get ("t", "pr:r/pr/1")) := by
  have hlast : ([openedToAll, restricted].filter
      (Upserts (nodesOf Char.isAlphanum ("t", "pr:r/pr/1")) ·)).getLast? = some restricted := by
    have hall : ∀ e ∈ [openedToAll, restricted],
        decide (Upserts (nodesOf Char.isAlphanum ("t", "pr:r/pr/1")) e) = true := by decide +kernel
    rw [List.filter_eq_self.mpr hall]
    rfl
  refine ((access_newest_iff (by decide)).1 _ _ hlast).mpr fun e he _ => ?_
  simp only [List.mem_cons, List.not_mem_nil, or_false] at he
  rcases he with rfl | rfl <;> decide

/-- The older event comes late, and everybody sees the pull request again. -/
theorem late_event_widens_access :
    ¬ AccessNewest (nodesOf Char.isAlphanum ("t", "pr:r/pr/1")) GraphNode.access
      [restricted, openedToAll]
      ((graphAfter Char.isAlphanum [restricted, openedToAll]).nodes.get ("t", "pr:r/pr/1")) := by
  have hrows : ∀ e ∈ [restricted, openedToAll],
      Upserts (nodesOf Char.isAlphanum ("t", "pr:r/pr/1")) e := by decide +kernel
  have hstored : ((graphAfter Char.isAlphanum [restricted, openedToAll]).nodes.get
      ("t", "pr:r/pr/1")).map GraphNode.access = some ⟨false, [], 1⟩ := by decide +kernel
  rintro ⟨row, hrow, e, he, hmax, row', hrow', haccess⟩
  rw [hrow] at hstored
  have hversion : e.acl.aclVersion = 1 := by
    rw [← (GraphMutation.Of.mapEvent.nodes row' (List.mem_filter.mp hrow').1).version, haccess,
      Option.some.inj hstored]
  have hhighest := hmax restricted List.mem_cons_self (hrows restricted List.mem_cons_self)
  rw [hversion] at hhighest
  exact absurd hhighest (by decide)

end Rows

end AiManager.Graph
