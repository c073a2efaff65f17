import AiManager.Platform.ResolvePerson
import AiManager.Telemetry.Providers
import Mathlib.Data.List.Forall2

/-! # Follow-through

What a person said, against what the graph knows of them since. A claim is judged a day after it was made, and is given
up after three. Neither time nor what the graph comes to know takes a verdict back (`follow_through_climbs`). -/

namespace AiManager.Platform

open Lib Telemetry

/-- What other libraries make of a timestamp with an offset, of seconds since the epoch, and of a JSON value as text. -/
structure FollowReaders where
  rfc3339 : String → Option DateTime
  fromTimestamp : Int → Option DateTime
  jsonText : Json → String

/-! ## Whose it is -/

def personMatchesKeys (person : ResolvedPerson) (hay : String) : Bool :=
  if hay = "" then false
  else
    let h := Text.toAsciiLowercase hay
    person.matchKeys.any fun k =>
      let k := Text.toAsciiLowercase k
      k ≠ "" && (h = k || Text.contains h k || Text.contains k h)

/-- The first of two fields that is there, if it is a text. -/
def eitherStr (v : Json) (field other : String) : Option String := ((v.get field).or (v.get other)).bind Json.asStr

section Readers
variable (lib : FollowReaders) (person : ResolvedPerson)

def jsonLooksLikeDemoSeed (v : Json) : Bool :=
  let blob := Text.toAsciiLowercase (lib.jsonText v)
  ["gu_demo_", "demo-repo", "intent_demo", "seed:intent_demo", "\"seed\":\"intent_demo\"", "\"is_demo\":true",
    "\"seed\":\"graph_story\"", "seed:graph_story", "/pr/story-1", "pr:neeljoshi18/ai-manager/pr/story-1"].any
    (Text.contains blob)

def jsonLooksLikePersonBlob (v : Json) : Bool :=
  let blob := Text.toAsciiLowercase (lib.jsonText v)
  (person.matchKeys.filter fun k => 3 ≤ Text.byteLength k).any fun k => Text.contains blob (Text.toAsciiLowercase k)

/-- The fields of an intent beside the properties. -/
def propertiesOf (intent : Json) : Json := (intent.get "properties").getD (.obj [])

def intentOwnerMatches (intent : Json) : Bool :=
  let owners := ((propertiesOf intent).getStr "owner_node_id").getD "" ::
    ["owner_node_id", "owner", "label", "display_name", "id", "resource_id"].map fun field =>
      (intent.getStr field).getD ""
  owners.any (personMatchesKeys person) || jsonLooksLikePersonBlob lib person intent

def parseTimeFlex (s : String) : Option DateTime :=
  if s = "" then none else (lib.rfc3339 s).or ((parseI64 s).bind lib.fromTimestamp)

/-! ## What the graph knows -/

def hasType (type : String) (n : Json) : Bool := n.getStr "type" = some type || n.getStr "node_type" = some type

def personNodeIds (nodes : List Json) : List String :=
  (nodes.filter (hasType "Person")).filterMap fun n =>
    let id := (eitherStr n "id" "node_id").getD ""
    let lab := (eitherStr n "label" "display_name").getD ""
    if (personMatchesKeys person id || personMatchesKeys person lab) && id ≠ "" then some id else none

/-- What the person worked on, and when. -/
def authoredTargets (nodes edges : List Json) : List (String × Option DateTime) :=
  edges.filterMap fun e =>
    let et := (eitherStr e "type" "edge_type").getD ""
    if et ≠ "AUTHORED" ∧ et ≠ "PUSHED_TO" ∧ et ≠ "OPENED" ∧ et ≠ "MERGED" then none
    else
      let «from» := (eitherStr e "from" "from_node_id").getD ""
      let «to» := (eitherStr e "to" "to_node_id").getD ""
      if !(personNodeIds person nodes).contains «from» && !personMatchesKeys person «from» then none
      else some («to», (e.getStr "valid_from").bind (parseTimeFlex lib))

def commitMsgs (nodes : List Json) : List String :=
  (nodes.filter (hasType "Commit")).filterMap fun n =>
    ((((n.get "message").or (n.get "title")).or (n.nested ["properties", "message"])).bind Json.asStr).map
      Text.toAsciiLowercase

/-! ## Verdicts -/

inductive FollowStatus where
  | supported
  | abandoned
  | contradicted
  | unknown
  deriving DecidableEq, Repr

def FollowStatus.gap : FollowStatus → String
  | .unknown => "Insufficient graph linkage between claim and later work"
  | .abandoned => "No supporting activity found after claim aged out"
  | .contradicted => "Later activity conflicts with FREEZE/hold claim"
  | .supported => "Later commits/PRs align with claim"

/-- The verdict on a claim that is three days old or not, by whether there is later work on what it is about, later
work at all, and a commit that has one of its words. -/
def followStatus (itype : String) (aged later anyLater msgHit : Bool) : FollowStatus :=
  if itype = "SHIP" ∨ itype = "FIX" ∨ itype = "EXPLORE" then
    if later || msgHit then .supported
    else if aged && !anyLater then .abandoned
    else if anyLater then .supported
    else .unknown
  else if itype = "FREEZE" then
    if later || (anyLater && msgHit) then .contradicted
    -- nothing was done: the freeze held
    else if aged then .supported
    else .unknown
  else if itype = "BLOCKED" then
    if anyLater || msgHit then .supported
    else if aged then .abandoned
    else .unknown
  else .unknown

structure FollowThroughItem where
  intentId : Option Json
  intentType : String
  saidOrImplied : String
  aboutNodeId : Option String
  intentAt : Option String
  authoredHits : Nat
  anyLaterActivity : Bool
  commitMessageOverlap : Bool
  status : FollowStatus
  isDemo : Bool
  gap : String

def intentTypeName (intent : Json) : String :=
  ((((propertiesOf intent).get "intent_type").or (intent.get "intent_type")).bind Json.asStr).getD "OTHER"

def summaryOf (intent : Json) : String :=
  (((((intent.get "display_name").or (intent.get "label")).or (intent.get "title")).or
    ((propertiesOf intent).get "summary")).bind Json.asStr).getD (intentTypeName intent)

def aboutNode (intent : Json) : String :=
  ((((propertiesOf intent).get "about_node_id").or (intent.get "about_node_id")).bind Json.asStr).getD ""

def statedAt (intent : Json) : Option DateTime :=
  (((((propertiesOf intent).get "stated_at").or ((propertiesOf intent).get "created_at")).or
    ((intent.get "created_at").or (intent.get "valid_from"))).bind Json.asStr).bind (parseTimeFlex lib)

/-- The claim is that old, as far as its time is known. -/
def olderThan (hours : Int) (now : DateTime) (stated : Option DateTime) : Bool :=
  (stated.map fun t => decide (hours * DateTime.nanosPerHour ≤ now - t)).getD false

/-- Work after the claim, on what it is about. -/
def laterOn (about : String) (stated : Option DateTime) (work : String × Option DateTime) : Bool :=
  let aboutHit := about ≠ "" && (work.1 = about || Text.contains work.1 about || Text.contains about work.1)
  let timeOk := match stated, work.2 with
    | some ia, some tt => ia < tt
    | some _, none => true
    | none, _ => true
  timeOk && (aboutHit || about ≠ "" && aboutHit)

/-- Any work after the claim, if both times are known. -/
def workedLater (stated : Option DateTime) (work : String × Option DateTime) : Bool :=
  match stated, work.2 with
  | some ia, some tt => ia < tt
  | _, _ => false

/-- The commit's message has one of the first long words of the claim. -/
def messageOverlaps (summary message : String) : Bool :=
  (((Text.splitWhitespace (Text.toAsciiLowercase summary)).filter fun w => 4 < Text.byteLength w).take 4).any
    (Text.contains message)

/-- Not a demo, of the person, and not of the last day. -/
def isJudged (now : DateTime) (intent : Json) : Bool :=
  !(jsonLooksLikeDemoSeed lib intent || ((intent.get "is_demo").bind Json.asBool).getD false) &&
    intentOwnerMatches lib person intent && ((statedAt lib intent).isNone || olderThan 24 now (statedAt lib intent))

def followItem (now : DateTime) (nodes edges : List Json) (intent : Json) : FollowThroughItem :=
  let itype := intentTypeName intent
  let about := aboutNode intent
  let stated := statedAt lib intent
  let authored := authoredTargets lib person nodes edges
  let later := authored.filter (laterOn about stated)
  let anyLater := authored.any (workedLater stated)
  let msgHit := (commitMsgs nodes).any (messageOverlaps (summaryOf intent))
  let status := followStatus itype (olderThan 72 now stated) (!later.isEmpty) anyLater msgHit
  { intentId := (intent.get "id").or (intent.get "node_id")
    intentType := itype
    saidOrImplied := summaryOf intent
    aboutNodeId := if about = "" then none else some about
    intentAt := stated.map DateTime.formatIstRfc3339
    authoredHits := later.length
    anyLaterActivity := anyLater
    commitMessageOverlap := msgHit
    status
    isDemo := false
    gap := status.gap }

def followThroughNote : String :=
  "Best-effort: non-demo intents older than ~24h; later AUTHORED/commit activity on about_node or matching resource" ++
    " → supported; FREEZE+later commits → contradicted; no signal after ~72h → abandoned; else unknown."

def computeFollowThroughItems (now : DateTime) (intents nodes edges : List Json) : List FollowThroughItem × String :=
  (((intents.filter (isJudged lib person now)).map (followItem lib person now nodes edges)).take 40, followThroughNote)

end Readers

/-! ## Verdicts climb -/

/-- How far a verdict is on its way, by the type of the claim: a freeze holds until it is broken. -/
def FollowStatus.rank (itype : String) : FollowStatus → ℕ
  | .unknown => 0
  | .abandoned => 1
  | .supported => if itype = "FREEZE" then 1 else 2
  | .contradicted => 2

/-- More is known: three days have passed, or there is work that there was not. -/
theorem followStatus_mono (itype : String) {aged aged' later later' anyLater anyLater' msgHit msgHit' : Bool}
    (haged : aged ≤ aged') (hlater : later ≤ later') (hany : anyLater ≤ anyLater') (hmsg : msgHit ≤ msgHit') :
    (followStatus itype aged later anyLater msgHit).rank itype ≤
      (followStatus itype aged' later' anyLater' msgHit').rank itype := by
  unfold followStatus
  by_cases hwork : itype = "SHIP" ∨ itype = "FIX" ∨ itype = "EXPLORE"
  · have hnot : itype ≠ "FREEZE" := by
      rintro rfl
      revert hwork
      decide
    simp only [if_pos hwork, FollowStatus.rank, if_neg hnot]
    revert aged aged' later later' anyLater anyLater' msgHit msgHit'
    decide
  by_cases hfreeze : itype = "FREEZE"
  · simp only [if_neg hwork, if_pos hfreeze, FollowStatus.rank]
    revert aged aged' later later' anyLater anyLater' msgHit msgHit'
    decide
  by_cases hblocked : itype = "BLOCKED"
  · simp only [if_neg hwork, if_neg hfreeze, if_pos hblocked, FollowStatus.rank]
    revert aged aged' later later' anyLater anyLater' msgHit msgHit'
    decide
  · simp only [if_neg hwork, if_neg hfreeze, if_neg hblocked, le_refl]

/-- A claim of a known type is not left unknown after three days. -/
theorem followStatus_aged {itype : String} (later anyLater msgHit : Bool)
    (htype : itype ∈ ["SHIP", "FIX", "EXPLORE", "FREEZE", "BLOCKED"]) :
    followStatus itype true later anyLater msgHit ≠ .unknown := by
  simp only [List.mem_cons, List.not_mem_nil, or_false] at htype
  rcases htype with rfl | rfl | rfl | rfl | rfl
  all_goals
    revert later anyLater msgHit
    decide

/-- A young claim is not given up. -/
theorem followStatus_young (itype : String) (later anyLater msgHit : Bool) :
    followStatus itype false later anyLater msgHit ≠ .abandoned := by
  unfold followStatus
  simp only [Bool.false_and, Bool.false_eq_true, if_false]
  split_ifs
  all_goals decide

section Climbing
variable {lib : FollowReaders} {person : ResolvedPerson} {now now' : DateTime} {nodes nodes' edges edges' : List Json}

theorem personNodeIds_subset (hn : nodes ⊆ nodes') : personNodeIds person nodes ⊆ personNodeIds person nodes' :=
  List.filterMap_subset _ (List.filter_subset _ hn)

theorem commitMsgs_subset (hn : nodes ⊆ nodes') : commitMsgs nodes ⊆ commitMsgs nodes' :=
  List.filterMap_subset _ (List.filter_subset _ hn)

variable (lib person) in
/-- A node more makes an edge the person's, never the other way round. -/
theorem authoredTargets_subset (hn : nodes ⊆ nodes') (he : edges ⊆ edges') :
    authoredTargets lib person nodes edges ⊆ authoredTargets lib person nodes' edges' := by
  intro work hwork
  unfold authoredTargets at hwork ⊢
  rw [List.mem_filterMap] at hwork ⊢
  obtain ⟨e, hmem, hof⟩ := hwork
  refine ⟨e, he hmem, ?_⟩
  dsimp only at hof ⊢
  split_ifs at hof with hkind hwho
  rw [if_neg hkind, if_neg]
  · exact hof
  · intro hnone
    rw [Bool.and_eq_true, Bool.not_eq_true', Bool.not_eq_true'] at hwho hnone
    refine hwho ⟨?_, hnone.2⟩
    rw [Bool.eq_false_iff, Ne, List.contains_iff_mem] at hnone ⊢
    exact fun h => hnone.1 (personNodeIds_subset hn h)

theorem olderThan_mono (hours : Int) (hnow : now ≤ now') (stated : Option DateTime) :
    olderThan hours now stated ≤ olderThan hours now' stated := by
  cases stated with
  | none => exact le_refl _
  | some t =>
    show decide _ ≤ decide _
    rw [Bool.le_iff_imp, decide_eq_true_iff, decide_eq_true_iff]
    exact fun h => h.trans (Int.sub_le_sub_right hnow t)

variable (lib person) in
theorem isJudged_mono (hnow : now ≤ now') (intent : Json) (h : isJudged lib person now intent = true) :
    isJudged lib person now' intent = true := by
  unfold isJudged at h ⊢
  rw [Bool.and_eq_true, Bool.or_eq_true] at h ⊢
  exact ⟨h.1, h.2.imp_right (Bool.le_iff_imp.mp (olderThan_mono 24 hnow _))⟩

theorem any_mono {α : Type} {p : α → Bool} {xs ys : List α} (h : xs ⊆ ys) : xs.any p ≤ ys.any p := by
  rw [Bool.le_iff_imp, List.any_eq_true, List.any_eq_true]
  rintro ⟨x, hx, hp⟩
  exact ⟨x, h hx, hp⟩

/-- The same claim, with a verdict that is as far on its way or farther. -/
structure Climbs (item item' : FollowThroughItem) : Prop where
  intentId : item'.intentId = item.intentId
  intentType : item'.intentType = item.intentType
  saidOrImplied : item'.saidOrImplied = item.saidOrImplied
  aboutNodeId : item'.aboutNodeId = item.aboutNodeId
  intentAt : item'.intentAt = item.intentAt
  status : item.status.rank item.intentType ≤ item'.status.rank item.intentType

variable (lib person) in
theorem followItem_climbs (hnow : now ≤ now') (hn : nodes ⊆ nodes') (he : edges ⊆ edges') (intent : Json) :
    Climbs (followItem lib person now nodes edges intent) (followItem lib person now' nodes' edges' intent) := by
  have hauthored := authoredTargets_subset lib person hn he
  refine ⟨rfl, rfl, rfl, rfl, rfl, followStatus_mono _ (olderThan_mono 72 hnow _) ?_ (any_mono hauthored)
    (any_mono (commitMsgs_subset hn))⟩
  rw [Bool.le_iff_imp, Bool.not_eq_true', Bool.not_eq_true', List.isEmpty_eq_false_iff, List.isEmpty_eq_false_iff]
  intro hlater hnone
  exact hlater (List.subset_nil.mp (hnone ▸ List.filter_subset _ hauthored))

theorem sublistForall_climbs (lib : FollowReaders) (person : ResolvedPerson) (intents : List Json) (hnow : now ≤ now')
    (hn : nodes ⊆ nodes') (he : edges ⊆ edges')
    (hroom : (computeFollowThroughItems lib person now' intents nodes' edges').1.length < 40) :
    List.SublistForall₂ Climbs (computeFollowThroughItems lib person now intents nodes edges).1
      (computeFollowThroughItems lib person now' intents nodes' edges').1 := by
  have hmono := isJudged_mono lib person hnow
  have hclimbs := followItem_climbs lib person hnow hn he
  have hall : List.SublistForall₂ Climbs
      ((intents.filter (isJudged lib person now)).map (followItem lib person now nodes edges))
      ((intents.filter (isJudged lib person now')).map (followItem lib person now' nodes' edges')) := by
    refine List.sublistForall₂_iff.mpr ⟨(intents.filter (isJudged lib person now)).map
      (followItem lib person now' nodes' edges'), ?_, (List.monotone_filter_right intents hmono).map _⟩
    rw [List.forall₂_map_left_iff, List.forall₂_map_right_iff]
    exact List.forall₂_same.mpr fun intent _ => hclimbs intent
  obtain ⟨kept, hkept, hsub⟩ := List.sublistForall₂_iff.mp hall
  unfold computeFollowThroughItems at hroom ⊢
  dsimp only at hroom ⊢
  rw [List.length_take, min_lt_iff] at hroom
  rw [List.take_of_length_le (hroom.resolve_left (Nat.lt_irrefl 40)).le]
  exact List.sublistForall₂_iff.mpr ⟨kept.take 40, List.forall₂_take 40 hkept, (List.take_sublist 40 kept).trans hsub⟩

/-- The claim is of a type that is judged, and was made three days ago or before. -/
def IsDue (lib : FollowReaders) (now : DateTime) (intent : Json) : Prop :=
  intentTypeName intent ∈ ["SHIP", "FIX", "EXPLORE", "FREEZE", "BLOCKED"] ∧ olderThan 72 now (statedAt lib intent) = true

/-- **Follow-through.** Later, with everything the graph knew and maybe more, each listed claim is listed again, in the
same order, with a verdict that is as far on its way or farther, as long as the list has room. A claim that is due has
a verdict, and one whose time nobody knows is not given up. -/
theorem follow_through_climbs (lib : FollowReaders) (person : ResolvedPerson) (intents : List Json) (hnow : now ≤ now')
    (hn : nodes ⊆ nodes') (he : edges ⊆ edges') :
    ((computeFollowThroughItems lib person now' intents nodes' edges').1.length < 40 →
      List.SublistForall₂ Climbs (computeFollowThroughItems lib person now intents nodes edges).1
        (computeFollowThroughItems lib person now' intents nodes' edges').1) ∧
    ∀ item ∈ (computeFollowThroughItems lib person now intents nodes edges).1, ∃ intent ∈ intents,
      item = followItem lib person now nodes edges intent ∧ isJudged lib person now intent = true ∧
        (IsDue lib now intent → item.status ≠ .unknown) ∧ (item.intentAt = none → item.status ≠ .abandoned) := by
  refine ⟨sublistForall_climbs lib person intents hnow hn he, fun item hitem => ?_⟩
  obtain ⟨intent, hjudged, rfl⟩ := List.mem_map.mp (List.mem_of_mem_take hitem)
  obtain ⟨hmem, hjudged⟩ := List.mem_filter.mp hjudged
  refine ⟨intent, hmem, rfl, hjudged, fun hdue => ?_, fun hundated => ?_⟩
  · show followStatus _ (olderThan 72 now (statedAt lib intent)) _ _ _ ≠ _
    rw [hdue.2]
    exact followStatus_aged _ _ _ hdue.1
  · have hnone : statedAt lib intent = none := Option.map_eq_none_iff.mp hundated
    show followStatus _ (olderThan 72 now (statedAt lib intent)) _ _ _ ≠ _
    rw [hnone]
    exact followStatus_young _ _ _ _

theorem length_computeFollowThroughItems_le (intents : List Json) :
    (computeFollowThroughItems lib person now intents nodes edges).1.length ≤ intents.length := by
  unfold computeFollowThroughItems
  dsimp only
  rw [List.length_take, List.length_map]
  exact (min_le_right _ _).trans (List.length_filter_le _ _)

end Climbing

/-! ### A freeze that is broken on the fifth day -/

def heldFreeze : Json :=
  .obj [("display_name", .str "hold"), ("id", .str "i1"), ("properties", .obj [("about_node_id", .str "pr:1"),
    ("intent_type", .str "FREEZE"), ("owner_node_id", .str "person:gu_a"), ("stated_at", .str "1784160000")])]

def heldFreezeReaders : FollowReaders where
  rfc3339 _ := none
  fromTimestamp secs := some (secs * DateTime.nanosPerSecond)
  jsonText _ := "\x7b\"display_name\":\"hold\",\"id\":\"i1\",\"properties\":\x7b\"about_node_id\":\"pr:1\"," ++
    "\"intent_type\":\"FREEZE\",\"owner_node_id\":\"person:gu_a\",\"stated_at\":\"1784160000\"\x7d\x7d"

def heldFreezeOwner : ResolvedPerson := ⟨"gu_a", "twin:person:gu_a", "A", [], ["gu_a"]⟩

def breakingMerge : Json :=
  .obj [("from", .str "person:gu_a"), ("to", .str "pr:1"), ("type", .str "MERGED"), ("valid_from", .str "1784548800")]

def verdictsOn (day : Int) (edges : List Json) : List FollowThroughItem :=
  (computeFollowThroughItems heldFreezeReaders heldFreezeOwner ((1784160000 + day * 86400) * DateTime.nanosPerSecond)
    [heldFreeze] [] edges).1

theorem heldFreeze_climbs :
    ((verdictsOn 4 []).map FollowThroughItem.status = [.supported] ∧
      (verdictsOn 5 [breakingMerge]).map FollowThroughItem.status = [.contradicted]) ∧
    List.SublistForall₂ Climbs (verdictsOn 4 []) (verdictsOn 5 [breakingMerge]) := by
  refine ⟨by decide +kernel, (follow_through_climbs heldFreezeReaders heldFreezeOwner [heldFreeze] (by decide)
    (List.Subset.refl []) (List.nil_subset [breakingMerge])).1 ?_⟩
  exact (length_computeFollowThroughItems_le [heldFreeze]).trans_lt (by decide)

end AiManager.Platform
