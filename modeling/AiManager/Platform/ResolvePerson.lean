import AiManager.Platform.Duplicates
import AiManager.Platform.FormText
import Mathlib.Data.Prod.Lex

/-! # Who is asked for

The name in a path is looked for among the twins of the tenant, by points. Being enabled counts less than being known
by one's own subject or display name, so a disabled twin comes before an enabled one that has the name as an alias. -/

namespace AiManager.Platform

open Lib Twins

/-! ## Candidates -/

structure ResolvedPerson where
  subjectId : String
  twinId : String
  displayName : String
  aliases : List String
  matchKeys : List String
  deriving DecidableEq

section Candidates
variable (maps : List SlackUserMap) (raw : String) (t : Twin)

/-- The aliases as they are configured, and the subject if it has a chat user. -/
def matchAliases : List String :=
  (maps.filter fun m => m.globalUserId = t.subjectId).foldl
    (fun aliases m => if m.globalUserId ∈ aliases then aliases else aliases ++ [m.globalUserId])
    ((((t.configJson.get "provider_aliases").bind Json.asArray).getD []).filterMap Json.asStr)

def resolvedPerson : ResolvedPerson where
  subjectId := t.subjectId
  twinId := t.twinId
  displayName := t.displayName
  aliases := matchAliases maps t
  matchKeys := [t.subjectId, t.twinId, t.displayName] ++ matchAliases maps t

/-- The name without the prefix of a twin id. -/
def restOf : String := (Text.stripPrefix raw "twin:person:").getD raw

def sameName (key : String) : Bool :=
  Text.eqIgnoreAsciiCase key raw || Text.eqIgnoreAsciiCase key (restOf raw)

def isExact : Bool := (resolvedPerson maps t).matchKeys.any (sameName raw)

def exactDisplay : Bool := sameName raw t.displayName

def exactSubject : Bool := sameName raw t.subjectId || Text.eqIgnoreAsciiCase t.twinId raw

/-- One of the texts lies in the other. -/
def eitherContains (a b : String) : Bool := Text.contains a b || Text.contains b a

/-- Only keys or names of four bytes and more are looked for in each other. -/
def isSubstr : Bool :=
  !isExact maps raw t && (resolvedPerson maps t).matchKeys.any fun k =>
    let kl := Text.toAsciiLowercase k
    let rawL := Text.toAsciiLowercase raw
    let restL := Text.toAsciiLowercase (restOf raw)
    (decide (4 ≤ Text.byteLength kl) && eitherContains kl rawL) ||
      (decide (4 ≤ Text.byteLength restL) && eitherContains kl restL)

def hasSlack : Bool := maps.any fun m => m.globalUserId = t.subjectId

structure Cand where
  person : ResolvedPerson
  enabled : Bool
  hasSlack : Bool
  score : Nat

def candOf : Cand where
  person := resolvedPerson maps t
  enabled := t.enabled
  hasSlack := hasSlack maps t
  score :=
    (if exactDisplay raw t then 100 else 0) + (if exactSubject raw t then 90 else 0) +
    (if isExact maps raw t then 50 else 0) + (if isSubstr maps raw t then 5 else 0) +
    (if t.enabled then 40 else 0) + (if hasSlack maps t then 25 else 0)

def candidate : Option Cand :=
  if !isExact maps raw t && !isSubstr maps raw t then none else some (candOf maps raw t)

end Candidates

/-- By score, then enabled ones, then those with a chat user. -/
def Cand.rank (c : Cand) : ℕ ×ₗ Bool ×ₗ Bool := toLex (c.score, toLex (c.enabled, c.hasSlack))

def betterFirst (a b : Cand) : Prop := b.rank ≤ a.rank

instance : DecidableRel betterFirst := fun a b => inferInstanceAs (Decidable (b.rank ≤ a.rank))

instance : Std.Total betterFirst := ⟨fun a b => le_total b.rank a.rank⟩

instance : IsTrans Cand betterFirst := ⟨fun _ _ _ hab hbc => le_trans (b := Cand.rank _) hbc hab⟩

def rankedCands (maps : List SlackUserMap) (twins : List Twin) (raw : String) : List Cand :=
  (((twins.filter fun t => t.twinKind = .person).filterMap (candidate maps raw)).insertionSort betterFirst)

/-- A person made of the name alone. -/
def fabricatedPerson (raw : String) : ResolvedPerson where
  subjectId := raw
  twinId := if Text.startsWith raw "twin:" then raw else personTwinId raw
  displayName := raw
  aliases := [raw]
  matchKeys := [raw]

def resolveAmong (maps : List SlackUserMap) (twins : List Twin) (raw : String) : ResolvedPerson :=
  match (rankedCands maps twins raw).head? with
  | some best => best.person
  | none => fabricatedPerson raw

/-! ## The lookup -/

/-- An error as it is sent. -/
structure SentError where
  status : Nat
  message : String

def SentError.ofTwinError : TwinError → SentError
  | .validation text => ⟨400, "validation: " ++ text⟩
  | .notFound text => ⟨404, "not found: " ++ text⟩
  | .conflict text => ⟨409, "conflict: " ++ text⟩
  | .aclDenied text => ⟨403, "acl denied: " ++ text⟩
  | .egress text => ⟨502, "egress: " ++ text⟩
  | .storage text => ⟨500, "storage: " ++ text⟩
  | .upstream text => ⟨500, "upstream: " ++ text⟩
  | .internal text => ⟨500, "internal: " ++ text⟩

/-- The name that a path asks for, if it can be decoded. -/
def askedFor (subjectRaw : String) : Option String := (urlencodingDecode subjectRaw).map Text.trim

/-- Resolve a login, a `gu_` id or a twin id, from what the two lists answer. -/
def resolvePerson (listed : TwinResult (List Twin)) (maps : TwinResult (List SlackUserMap)) (subjectRaw : String) :
    Option (Except SentError ResolvedPerson) :=
  (askedFor subjectRaw).map fun raw =>
    if raw = "" then .error ⟨400, "subject_id required"⟩
    else
      match listed, maps with
      | .error e, _ => .error (.ofTwinError e)
      | .ok _, .error e => .error (.ofTwinError e)
      | .ok twins, .ok maps => .ok (resolveAmong maps twins raw)

/-! ## Ranks -/

/-- What a match is worth, but for being exact and being enabled. -/
def points (maps : List SlackUserMap) (raw : String) (t : Twin) : Nat :=
  (if exactDisplay raw t then 100 else 0) + (if exactSubject raw t then 90 else 0) + (if hasSlack maps t then 25 else 0)

/-- How many of its own names match. -/
def ownNames (raw : String) (t : Twin) : Nat :=
  (if exactDisplay raw t then 1 else 0) + if exactSubject raw t then 1 else 0

/-- An enabled twin of a person that has the name. -/
def LivingMatch (maps : List SlackUserMap) (raw : String) (t : Twin) : Prop := Living t ∧ isExact maps raw t = true

/-- A disabled one. -/
def GhostMatch (maps : List SlackUserMap) (raw : String) (t : Twin) : Prop :=
  (t.twinKind = .person ∧ t.enabled = false) ∧ isExact maps raw t = true

section Ranks
variable {maps : List SlackUserMap} {raw : String} {t u d : Twin}

theorem isExact_of_mem {k : String} (hk : k ∈ (resolvedPerson maps t).matchKeys) (h : sameName raw k = true) :
    isExact maps raw t = true :=
  List.any_eq_true.mpr ⟨k, hk, h⟩

theorem isExact_of_exactDisplay (h : exactDisplay raw t = true) : isExact maps raw t = true :=
  isExact_of_mem (k := t.displayName) (by simp [resolvedPerson]) h

theorem isExact_of_exactSubject (h : exactSubject raw t = true) : isExact maps raw t = true := by
  rcases (Bool.or_eq_true _ _).mp h with hsubject | htwin
  · exact isExact_of_mem (k := t.subjectId) (by simp [resolvedPerson]) hsubject
  · refine isExact_of_mem (k := t.twinId) (by simp [resolvedPerson]) ?_
    rw [sameName, htwin, Bool.true_or]

theorem score_of_exact (h : isExact maps raw t = true) :
    (candOf maps raw t).score = points maps raw t + 50 + if t.enabled then 40 else 0 := by
  have hsubstr : isSubstr maps raw t = false := by
    unfold isSubstr
    rw [h]
    rfl
  unfold candOf points
  rw [h, hsubstr]
  simp only [if_true, Bool.false_eq_true, if_false]
  omega

/-- A twin in which the name only lies. -/
theorem score_of_not_exact (h : isExact maps raw t = false) : (candOf maps raw t).score ≤ 70 := by
  have hdisplay : exactDisplay raw t = false := by
    by_contra hne
    exact absurd (isExact_of_exactDisplay (Bool.not_eq_false _ ▸ hne)) (by rw [h]; decide)
  have hsubject : exactSubject raw t = false := by
    by_contra hne
    exact absurd (isExact_of_exactSubject (Bool.not_eq_false _ ▸ hne)) (by rw [h]; decide)
  unfold candOf
  rw [h, hdisplay, hsubject]
  simp only [Bool.false_eq_true, if_false]
  split_ifs <;> omega

theorem rank_le_iff {a b : Cand} : a.rank ≤ b.rank ↔ a.score < b.score ∨
    (a.score = b.score ∧ (a.enabled < b.enabled ∨ (a.enabled = b.enabled ∧ a.hasSlack ≤ b.hasSlack))) := by
  unfold Cand.rank
  rw [Prod.Lex.toLex_le_toLex, Prod.Lex.toLex_le_toLex]

theorem rank_lt_of_score {a b : Cand} (h : a.score < b.score) : ¬ b.rank ≤ a.rank := by
  rw [rank_le_iff]
  omega

/-- Being enabled makes up for a chat user, and for no name. -/
theorem points_le_iff (maps : List SlackUserMap) (raw : String) (d t : Twin) :
    points maps raw d ≤ points maps raw t + 40 ↔ ownNames raw d ≤ ownNames raw t := by
  unfold points ownNames
  split_ifs <;> omega

theorem rank_ghost_le_iff (hd : GhostMatch maps raw d) (ht : LivingMatch maps raw t) :
    (candOf maps raw d).rank ≤ (candOf maps raw t).rank ↔ ownNames raw d ≤ ownNames raw t := by
  have hscore := score_of_exact hd.2
  have hscore' := score_of_exact ht.2
  have henabled : (candOf maps raw d).enabled < (candOf maps raw t).enabled := by
    show d.enabled < t.enabled
    rw [hd.1.2, ht.1.2]
    decide
  rw [hd.1.2] at hscore
  rw [ht.1.2] at hscore'
  simp only [Bool.false_eq_true, if_false, if_true] at hscore hscore'
  rw [rank_le_iff, ← points_le_iff maps]
  constructor
  · rintro (hlt | ⟨heq, -⟩) <;> omega
  · intro h
    rcases lt_or_eq_of_le (show (candOf maps raw d).score ≤ (candOf maps raw t).score by omega) with hlt | heq
    · exact .inl hlt
    · exact .inr ⟨heq, .inl henabled⟩

theorem not_rank_living_le (hd : GhostMatch maps raw d) (ht : LivingMatch maps raw t)
    (h : ownNames raw d ≤ ownNames raw t) : ¬ (candOf maps raw t).rank ≤ (candOf maps raw d).rank := by
  intro hle
  have heq := le_antisymm hle ((rank_ghost_le_iff hd ht).mpr h)
  have henabled : t.enabled = d.enabled := congrArg (fun r : ℕ ×ₗ Bool ×ₗ Bool => (ofLex (ofLex r).2).1) heq
  cases ht.1.2.symm.trans (henabled.trans hd.1.2)

/-- Equal points come with equal chat users. -/
theorem rank_living_le_iff (hu : LivingMatch maps raw u) (ht : LivingMatch maps raw t) :
    (candOf maps raw u).rank ≤ (candOf maps raw t).rank ↔ points maps raw u ≤ points maps raw t := by
  have hscore := score_of_exact hu.2
  have hscore' := score_of_exact ht.2
  have henabled : (candOf maps raw u).enabled = (candOf maps raw t).enabled := hu.1.2.trans ht.1.2.symm
  rw [hu.1.2] at hscore
  rw [ht.1.2] at hscore'
  rw [rank_le_iff]
  constructor
  · rintro (hlt | ⟨heq, -⟩) <;> omega
  · intro h
    rcases lt_or_eq_of_le h with hlt | heq
    · exact .inl (by omega)
    · refine .inr ⟨by omega, .inr ⟨henabled, ?_⟩⟩
      show hasSlack maps u ≤ hasSlack maps t
      have hsame : hasSlack maps u = hasSlack maps t := by
        by_contra hne
        have hone : (if hasSlack maps u then 25 else 0) + (if hasSlack maps t then 25 else 0) = 25 := by
          cases hslack : hasSlack maps u <;> cases hslack' : hasSlack maps t
          · exact absurd (hslack.trans hslack'.symm) hne
          · rfl
          · rfl
          · exact absurd (hslack.trans hslack'.symm) hne
        unfold points at heq
        split_ifs at heq hone <;> omega
      exact le_of_eq hsame

end Ranks

/-! ## The best candidate -/

/-- A twin of a person that is a candidate. -/
def Found (maps : List SlackUserMap) (raw : String) (t : Twin) : Prop :=
  t.twinKind = .person ∧ (isExact maps raw t = true ∨ isSubstr maps raw t = true)

theorem LivingMatch.found {maps : List SlackUserMap} {raw : String} {t : Twin} (h : LivingMatch maps raw t) :
    Found maps raw t :=
  ⟨h.1.1, .inl h.2⟩

theorem GhostMatch.found {maps : List SlackUserMap} {raw : String} {t : Twin} (h : GhostMatch maps raw t) :
    Found maps raw t :=
  ⟨h.1.1, .inl h.2⟩

/-- No candidate of the list has a higher rank. -/
def Best (maps : List SlackUserMap) (listed : List Twin) (raw : String) (t : Twin) : Prop :=
  t ∈ listed ∧ Found maps raw t ∧
    ∀ u ∈ listed, Found maps raw u → (candOf maps raw u).rank ≤ (candOf maps raw t).rank

section BestCandidate
variable {maps : List SlackUserMap} {listed : List Twin} {raw : String} {t u keep : Twin}

theorem candidate_eq_some {c : Cand} : candidate maps raw t = some c ↔
    (isExact maps raw t = true ∨ isSubstr maps raw t = true) ∧ candOf maps raw t = c := by
  unfold candidate
  cases isExact maps raw t <;> cases isSubstr maps raw t <;> simp

theorem mem_rankedCands {c : Cand} :
    c ∈ rankedCands maps listed raw ↔ ∃ t ∈ listed, Found maps raw t ∧ candOf maps raw t = c := by
  unfold rankedCands
  rw [List.mem_insertionSort, List.mem_filterMap]
  constructor
  · rintro ⟨t, ht, hc⟩
    obtain ⟨hmem, hkind⟩ := List.mem_filter.mp ht
    obtain ⟨hfound, heq⟩ := candidate_eq_some.mp hc
    exact ⟨t, hmem, ⟨of_decide_eq_true hkind, hfound⟩, heq⟩
  · rintro ⟨t, hmem, ⟨hkind, hfound⟩, heq⟩
    exact ⟨t, List.mem_filter.mpr ⟨hmem, decide_eq_true hkind⟩, candidate_eq_some.mpr ⟨hfound, heq⟩⟩

/-- Where there is a candidate, the answer is one of those with the highest rank. -/
theorem exists_best (hu : u ∈ listed) (hfound : Found maps raw u) :
    ∃ t, Best maps listed raw t ∧ resolveAmong maps listed raw = resolvedPerson maps t := by
  have hmem : candOf maps raw u ∈ rankedCands maps listed raw := mem_rankedCands.mpr ⟨u, hu, hfound, rfl⟩
  have hsorted : (rankedCands maps listed raw).Pairwise betterFirst := List.pairwise_insertionSort betterFirst _
  have hcand : ∀ u ∈ listed, Found maps raw u → candOf maps raw u ∈ rankedCands maps listed raw :=
    fun u hu hfound => mem_rankedCands.mpr ⟨u, hu, hfound, rfl⟩
  cases hranked : rankedCands maps listed raw with
  | nil =>
    rw [hranked] at hmem
    cases hmem
  | cons best rest =>
    rw [hranked] at hsorted
    have hbest : best ∈ rankedCands maps listed raw := hranked ▸ List.mem_cons_self
    obtain ⟨t, ht, htfound, rfl⟩ := mem_rankedCands.mp hbest
    refine ⟨t, ⟨ht, htfound, ?_⟩, ?_⟩
    · intro v hv hvfound
      have hvmem := hcand v hv hvfound
      rw [hranked] at hvmem
      rcases List.mem_cons.mp hvmem with heq | hrest
      · exact le_of_eq (congrArg Cand.rank heq)
      · exact (List.pairwise_cons.mp hsorted).1 _ hrest
    · unfold resolveAmong
      rw [hranked]
      rfl

/-- Of the candidates with the highest rank the first one is the answer. -/
theorem resolveAmong_cons (h : Best maps (u :: listed) raw u) :
    resolveAmong maps (u :: listed) raw = resolvedPerson maps u := by
  obtain ⟨-, hfound, hbest⟩ := h
  have hhead : rankedCands maps (u :: listed) raw = candOf maps raw u :: rankedCands maps listed raw := by
    unfold rankedCands
    rw [List.filter_cons_of_pos (p := fun t : Twin => t.twinKind = .person) (decide_eq_true hfound.1),
      List.filterMap_cons_some (candidate_eq_some.mpr ⟨hfound.2, rfl⟩), List.insertionSort_cons]
    have hfirst : ∀ c ∈ rankedCands maps listed raw, betterFirst (candOf maps raw u) c := by
      intro c hc
      obtain ⟨v, hv, hvfound, rfl⟩ := mem_rankedCands.mp hc
      exact hbest v (List.mem_cons_of_mem _ hv) hvfound
    unfold rankedCands at hfirst
    generalize ((listed.filter fun t => t.twinKind = .person).filterMap (candidate maps raw)).insertionSort
      betterFirst = sorted at hfirst ⊢
    cases sorted with
    | nil => rfl
    | cons c rest => exact List.orderedInsert_cons_of_le _ _ (hfirst c List.mem_cons_self)
  unfold resolveAmong
  rw [hhead]
  rfl

/-- An enabled match that no disabled one outranks lets no other kind of candidate come first. -/
theorem Best.living (h : Best maps listed raw t) (hu : u ∈ listed) (hliving : LivingMatch maps raw u)
    (hghosts : ∀ d ∈ listed, GhostMatch maps raw d → ownNames raw d ≤ ownNames raw u) :
    LivingMatch maps raw t := by
  obtain ⟨ht, ⟨hkind, hfound⟩, hbest⟩ := h
  have hle := hbest u hu hliving.found
  have hexact : isExact maps raw t = true := by
    by_contra hne
    have hscore := score_of_not_exact (Bool.eq_false_iff.mpr hne)
    have hscore' := score_of_exact hliving.2
    rw [hliving.1.2, if_pos rfl] at hscore'
    exact rank_lt_of_score (by omega) hle
  cases henabled : t.enabled with
  | true => exact ⟨⟨hkind, henabled⟩, hexact⟩
  | false =>
    have hghost : GhostMatch maps raw t := ⟨⟨hkind, henabled⟩, hexact⟩
    exact absurd hle (not_rank_living_le hghost hliving (hghosts t ht hghost))

end BestCandidate

/-! ## Living matches first -/

/-- The twin that took in another one. -/
def KeeperOf (tenantId : String) (st₀ st : InMemoryTwinStore) (t keep : Twin) : Prop :=
  keep ∈ st.listTwins tenantId ∧ Living keep ∧ slackOf st₀ tenantId keep.subjectId = slackOf st₀ tenantId t.subjectId

/-- A removal of duplicates leads from the one state to the other. -/
def PrunedFrom (tenantId : String) (s₀ s : DeliveryState) : Prop :=
  ∃ (api : TwinApi) (cs : ℕ → Choice), (∀ groups, (api.teamOrder groups).Perm groups) ∧ (∀ n, Choice.quiet (cs n)) ∧
    (pruneDuplicateSlackTwins api tenantId).run.exec twinAnswer cs s₀ = some (.ok (), s)

/-- The lookup in the stored twins, listed in this order. -/
def lookedUp (tenantId : String) (s : DeliveryState) (subjectRaw : String) (listed : List Twin) :
    Option (Except SentError ResolvedPerson) :=
  resolvePerson (.ok listed) (.ok (listSlackMaps s.store tenantId)) subjectRaw

/-- What a lookup of the name is to answer. -/
structure PrefersLiving (tenantId : String) (s : DeliveryState) (subjectRaw raw : String) : Prop where
  /-- an enabled match, if there is one -/
  living : (∃ t ∈ s.store.listTwins tenantId, LivingMatch (listSlackMaps s.store tenantId) raw t) →
    ∀ listed, listed.Perm (s.store.listTwins tenantId) →
      ∃ t ∈ listed, LivingMatch (listSlackMaps s.store tenantId) raw t ∧
        lookedUp tenantId s subjectRaw listed = some (.ok (resolvedPerson (listSlackMaps s.store tenantId) t))
  /-- the twin that took in the one whose subject is asked for -/
  keeper : ∀ s₀, PrunedFrom tenantId s₀ s → ∀ t keep, FoldedAway tenantId s₀.store s.store t → t.subjectId = raw →
    KeeperOf tenantId s₀.store s.store t keep → ∀ listed, listed.Perm (s.store.listTwins tenantId) →
      lookedUp tenantId s subjectRaw listed = some (.ok (resolvedPerson (listSlackMaps s.store tenantId) keep))
  /-- the same in every order, if there is one enabled match -/
  order : (∃! t, t ∈ s.store.listTwins tenantId ∧ LivingMatch (listSlackMaps s.store tenantId) raw t) →
    ∀ listed listed', listed.Perm (s.store.listTwins tenantId) → listed'.Perm (s.store.listTwins tenantId) →
      lookedUp tenantId s subjectRaw listed = lookedUp tenantId s subjectRaw listed'

/-- An enabled match, by as many of its own names as any disabled one. -/
def OutranksGhosts (tenantId : String) (st : InMemoryTwinStore) (raw : String) (t : Twin) : Prop :=
  raw ≠ "" ∧ LivingMatch (listSlackMaps st tenantId) raw t ∧
    ∀ d ∈ st.listTwins tenantId, GhostMatch (listSlackMaps st tenantId) raw d → ownNames raw d ≤ ownNames raw t

/-- Enabled matches have the name for their own. -/
structure LivingLead (tenantId : String) (s : DeliveryState) (raw : String) : Prop where
  living : (∃ t ∈ s.store.listTwins tenantId, LivingMatch (listSlackMaps s.store tenantId) raw t) →
    ∃ t ∈ s.store.listTwins tenantId, OutranksGhosts tenantId s.store raw t
  /-- a keeper is worth more than any other -/
  keeper : ∀ s₀, PrunedFrom tenantId s₀ s → ∀ t keep, FoldedAway tenantId s₀.store s.store t → t.subjectId = raw →
    KeeperOf tenantId s₀.store s.store t keep → OutranksGhosts tenantId s.store raw keep ∧
      ∀ u ∈ s.store.listTwins tenantId, LivingMatch (listSlackMaps s.store tenantId) raw u → u ≠ keep →
        points (listSlackMaps s.store tenantId) raw u < points (listSlackMaps s.store tenantId) raw keep

section Lookup
variable {tenantId subjectRaw raw : String} {s s₀ : DeliveryState} {listed : List Twin} {t u keep : Twin}

theorem lookedUp_eq (hasked : askedFor subjectRaw = some raw) (hraw : raw ≠ "") :
    lookedUp tenantId s subjectRaw listed =
      some (.ok (resolveAmong (listSlackMaps s.store tenantId) listed raw)) := by
  unfold lookedUp resolvePerson
  rw [hasked, Option.map_some, if_neg hraw]

theorem lookedUp_empty (hasked : askedFor subjectRaw = some "") (p : ResolvedPerson) :
    lookedUp tenantId s subjectRaw listed ≠ some (.ok p) := by
  unfold lookedUp resolvePerson
  rw [hasked, Option.map_some, if_pos rfl]
  exact fun h => nomatch h

/-- A listed twin is known by the person that it stands for. -/
theorem eq_of_resolvedPerson (ht : t ∈ s.store.listTwins tenantId) (hu : u ∈ s.store.listTwins tenantId)
    (h : resolvedPerson (listSlackMaps s.store tenantId) t = resolvedPerson (listSlackMaps s.store tenantId) u) :
    t = u := by
  have hid : t.twinId = u.twinId := congrArg ResolvedPerson.twinId h
  exact eq_of_key ht hu (Prod.ext ((mem_listTwins_iff.mp ht).2.trans (mem_listTwins_iff.mp hu).2.symm) hid)

/-- Who is looked up is a best candidate, where there is one. -/
theorem best_of_lookedUp (hasked : askedFor subjectRaw = some raw) (hperm : listed.Perm (s.store.listTwins tenantId))
    (ht : t ∈ s.store.listTwins tenantId) (hu : u ∈ s.store.listTwins tenantId)
    (hfound : Found (listSlackMaps s.store tenantId) raw u)
    (h : lookedUp tenantId s subjectRaw listed = some (.ok (resolvedPerson (listSlackMaps s.store tenantId) t))) :
    raw ≠ "" ∧ Best (listSlackMaps s.store tenantId) listed raw t := by
  have hraw : raw ≠ "" := by
    rintro rfl
    exact lookedUp_empty hasked _ h
  refine ⟨hraw, ?_⟩
  rw [lookedUp_eq hasked hraw] at h
  obtain ⟨t', hbest, heq⟩ := exists_best (hperm.mem_iff.mpr hu) hfound
  have hsame : resolvedPerson (listSlackMaps s.store tenantId) t' = resolvedPerson (listSlackMaps s.store tenantId) t :=
    heq.symm.trans (Except.ok.inj (Option.some.inj h))
  rw [← eq_of_resolvedPerson (hperm.mem_iff.mp hbest.1) ht hsame]
  exact hbest

/-- Where an enabled match outranks the disabled ones, an enabled match is looked up. -/
theorem OutranksGhosts.lookedUp (h : OutranksGhosts tenantId s.store raw u) (hu : u ∈ s.store.listTwins tenantId)
    (hasked : askedFor subjectRaw = some raw) (hperm : listed.Perm (s.store.listTwins tenantId)) :
    ∃ t ∈ listed, Best (listSlackMaps s.store tenantId) listed raw t ∧
      LivingMatch (listSlackMaps s.store tenantId) raw t ∧
      lookedUp tenantId s subjectRaw listed = some (.ok (resolvedPerson (listSlackMaps s.store tenantId) t)) := by
  obtain ⟨hraw, hliving, hghosts⟩ := h
  have hmem : u ∈ listed := hperm.mem_iff.mpr hu
  obtain ⟨t, hbest, heq⟩ := exists_best hmem hliving.found
  refine ⟨t, hbest.1, hbest, ?_, ?_⟩
  · exact hbest.living hmem hliving fun d hd => hghosts d (hperm.mem_iff.mp hd)
  · rw [lookedUp_eq hasked hraw, heq]

/-- A folded twin is a disabled match of its own subject. -/
theorem exists_ghost_of_foldedAway (hpruned : PrunedFrom tenantId s₀ s)
    (haway : FoldedAway tenantId s₀.store s.store t) : ∃ d ∈ s.store.listTwins tenantId,
      GhostMatch (listSlackMaps s.store tenantId) t.subjectId d ∧ exactSubject t.subjectId d = true := by
  obtain ⟨api, cs, hperm, hquiet, hexec⟩ := hpruned
  obtain ⟨now, hexec'⟩ := pruneDuplicateSlackTwins_exec api tenantId s₀ cs hquiet
  rw [hexec] at hexec'
  obtain rfl := (Prod.mk.inj (Option.some.inj hexec')).2
  have hgroups := hperm (slackGroups s₀.store tenantId)
  obtain ⟨g, hg, hdead⟩ := (foldedAway_iff hgroups).mp haway
  obtain ⟨keep, dead, -, -, h⟩ := prunedTo_of_mem_deadOf now hdead
  have hsubject : exactSubject t.subjectId (disabledDuplicate keep t now) = true := by
    unfold exactSubject sameName Text.eqIgnoreAsciiCase
    simp [disabledDuplicate]
  exact ⟨_, mem_listTwins_pruned hgroups hg h, ⟨⟨haway.2.1.1, rfl⟩, isExact_of_exactSubject hsubject⟩, hsubject⟩

end Lookup

theorem prefersLiving_iff (tenantId : String) (s : DeliveryState) (subjectRaw : String) :
    (∀ raw, askedFor subjectRaw = some raw → PrefersLiving tenantId s subjectRaw raw) ↔
      ∀ raw, askedFor subjectRaw = some raw → LivingLead tenantId s raw := by
  refine forall_congr' fun raw => forall_congr' fun hasked => ?_
  have hself := List.Perm.refl (s.store.listTwins tenantId)
  constructor
  · intro h
    have houtranks : ∀ t ∈ s.store.listTwins tenantId, LivingMatch (listSlackMaps s.store tenantId) raw t →
        Best (listSlackMaps s.store tenantId) (s.store.listTwins tenantId) raw t → raw ≠ "" →
        OutranksGhosts tenantId s.store raw t := by
      intro t ht hliving hbest hraw
      exact ⟨hraw, hliving, fun d hd hghost => (rank_ghost_le_iff hghost hliving).mp (hbest.2.2 d hd hghost.found)⟩
    refine ⟨?_, ?_⟩
    · intro hsome
      obtain ⟨t, ht, hliving, hlooked⟩ := h.living hsome _ hself
      obtain ⟨hraw, hbest⟩ := best_of_lookedUp hasked hself ht ht hliving.found hlooked
      exact ⟨t, ht, houtranks t ht hliving hbest hraw⟩
    · intro s₀ hpruned t keep haway hsubject hkeeper
      obtain ⟨d, hd, hghost, hexact⟩ := exists_ghost_of_foldedAway hpruned haway
      rw [hsubject] at hghost hexact
      have hlooked := h.keeper s₀ hpruned t keep haway hsubject hkeeper
      obtain ⟨hraw, hbest⟩ := best_of_lookedUp hasked hself hkeeper.1 hd hghost.found (hlooked _ hself)
      have hliving : LivingMatch (listSlackMaps s.store tenantId) raw keep := by
        refine ⟨hkeeper.2.1, ?_⟩
        by_contra hne
        have hscore := score_of_not_exact (Bool.eq_false_iff.mpr hne)
        have hscore' := score_of_exact hghost.2
        have hpoints : 90 ≤ points (listSlackMaps s.store tenantId) raw d := by
          unfold points
          rw [hexact, if_pos rfl]
          omega
        exact rank_lt_of_score (by omega) (hbest.2.2 d hd hghost.found)
      refine ⟨houtranks keep hkeeper.1 hliving hbest hraw, ?_⟩
      intro u hu hlivingU hne
      by_contra hnot
      -- in the order in which the other twin comes first
      obtain ⟨xs, ys, hsplit⟩ := List.append_of_mem hu
      have hfront : (u :: (xs ++ ys)).Perm (s.store.listTwins tenantId) := by
        rw [hsplit]
        exact List.perm_middle.symm
      obtain ⟨-, hbest'⟩ := best_of_lookedUp hasked hfront hkeeper.1 hd hghost.found (hlooked _ hfront)
      have hle := (rank_living_le_iff hliving hlivingU).mpr (not_lt.mp hnot)
      have hfirst : Best (listSlackMaps s.store tenantId) (u :: (xs ++ ys)) raw u :=
        ⟨List.mem_cons_self, hlivingU.found, fun v hv hfound => (hbest'.2.2 v hv hfound).trans hle⟩
      have hanswer := hlooked _ hfront
      rw [lookedUp_eq hasked hraw, resolveAmong_cons hfirst] at hanswer
      exact hne (eq_of_resolvedPerson hu hkeeper.1 (Except.ok.inj (Option.some.inj hanswer)))
  · intro h
    refine ⟨?_, ?_, ?_⟩
    · intro hsome listed hperm
      obtain ⟨u, hu, houtranks⟩ := h.living hsome
      obtain ⟨t, ht, -, hliving, hlooked⟩ := houtranks.lookedUp hu hasked hperm
      exact ⟨t, ht, hliving, hlooked⟩
    · intro s₀ hpruned t keep haway hsubject hkeeper listed hperm
      obtain ⟨houtranks, hothers⟩ := h.keeper s₀ hpruned t keep haway hsubject hkeeper
      obtain ⟨u, hu, hbest, hliving, hlooked⟩ := houtranks.lookedUp hkeeper.1 hasked hperm
      have hsame : u = keep := by
        by_contra hne
        have hlt := hothers u (hperm.mem_iff.mp hu) hliving hne
        have hle := hbest.2.2 keep (hperm.mem_iff.mpr hkeeper.1) houtranks.2.1.found
        exact absurd ((rank_living_le_iff houtranks.2.1 hliving).mp hle) (not_le.mpr hlt)
      rw [hlooked, hsame]
    · intro hone listed listed' hperm hperm'
      obtain ⟨t, ⟨ht, hliving⟩, hunique⟩ := hone
      obtain ⟨u, hu, houtranks⟩ := h.living ⟨t, ht, hliving⟩
      obtain ⟨v, hv, -, hlivingV, hlooked⟩ := houtranks.lookedUp hu hasked hperm
      obtain ⟨w, hw, -, hlivingW, hlooked'⟩ := houtranks.lookedUp hu hasked hperm'
      rw [hlooked, hlooked', hunique v ⟨hperm.mem_iff.mp hv, hlivingV⟩, hunique w ⟨hperm'.mem_iff.mp hw, hlivingW⟩]

/-- The twin of an old subject, disabled. -/
def oldTwin : Twin := { aliasedTwin "gu_old" [] 0 with enabled := false }

/-- Alice has the old subject as an alias, and both have her chat user. -/
def aliceKeepsOldStore : InMemoryTwinStore :=
  { InMemoryTwinStore.new with
    twins := Table.putAll ∅ [aliasedTwin "gu_alice" ["gu_old"] 1, oldTwin]
    slackMap := Table.putAll ∅ [⟨"ten_demo", "gu_alice", "U1", ""⟩, ⟨"ten_demo", "gu_old", "U1", ""⟩] }

/-- The old subject is still looked up as itself. -/
theorem not_prefersLiving : ¬ ∀ tenantId s subjectRaw raw, askedFor subjectRaw = some raw →
    PrefersLiving tenantId s subjectRaw raw := by
  intro h
  have hliving := (h "ten_demo" ⟨aliceKeepsOldStore, [], []⟩ "gu_old" "gu_old" (by rfl)).living
    ⟨aliasedTwin "gu_alice" ["gu_old"] 1, mem_listTwins_iff.mpr ⟨rfl, rfl⟩, ⟨rfl, rfl⟩, by rfl⟩
  obtain ⟨t, ht, hmatch, hlooked⟩ := hliving _ (List.Perm.refl _)
  have hold : lookedUp "ten_demo" ⟨aliceKeepsOldStore, [], []⟩ "gu_old" (aliceKeepsOldStore.listTwins "ten_demo") =
      some (.ok (resolvedPerson (listSlackMaps aliceKeepsOldStore "ten_demo") oldTwin)) := by rfl
  rw [hold] at hlooked
  have hsame : oldTwin = t := by
    apply eq_of_resolvedPerson (mem_listTwins_iff.mpr ⟨rfl, rfl⟩) ht
    exact Except.ok.inj (Option.some.inj hlooked)
  cases hmatch.1.2.symm.trans (hsame ▸ rfl : t.enabled = false)

end AiManager.Platform
