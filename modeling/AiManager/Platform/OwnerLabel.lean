import AiManager.Lib.FirstRule
import AiManager.Platform.Commitments

/-! # Owner labels

The name under which the owner of a piece of work is shown. The owner comes as a subject, with or without the prefixes
of a node or a twin, and is looked for in the directory by several rules. A machine id is never shown; but the prefixes
are not stripped, and where an id contains another one the first entry of the directory is shown. -/

namespace AiManager.Platform

open Lib

/-- A machine id of the graph or the twins, which is no name of a person. -/
def looksMachineId (s : String) : Bool :=
  let t := Text.trim s
  Text.startsWith t "person:" || Text.startsWith t "twin:" || Text.startsWith t "intent:" || Text.startsWith t "gu_"
    || Text.startsWith t "dft_" || Text.startsWith t "led_" || Text.startsWith t "cmt:" || Text.contains t ":gu_"

/-- A name that may be shown. -/
def isHumanName (name : String) : Bool := name ≠ "" && !looksMachineId name

/-- What the code strips: every prefix that is not there brings the whole text back. -/
def strippedOwner (t : String) : String :=
  let s := (Text.stripPrefix t "twin:").getD t
  let s := (Text.stripPrefix s "person:").getD t
  (Text.stripPrefix s "intent:").getD t

/-- The name of an entry that the text `tl` mentions, by its id or by an alias of four bytes and more. -/
def mentionedName (tl : String) (p : PersonDirEntry) : Option String :=
  if p.subjectId ≠ "" && Text.contains tl (Text.toAsciiLowercase p.subjectId) && isHumanName p.displayName then
    some p.displayName
  else
    (p.aliases.find? fun a =>
      decide (4 ≤ Text.byteLength a) && !looksMachineId a && Text.contains tl (Text.toAsciiLowercase a)).map fun a =>
        if isHumanName p.displayName then p.displayName else a

/-- The name that is shown for an owner. -/
def humanOwnerLabel (raw : String) (dir : List PersonDirEntry) : String :=
  let t := Text.trim raw
  if t = "" then "Someone"
  else
    let found := (resolvePersonRef t dir).or (resolvePersonRef (strippedOwner t) dir)
    match found.filter fun p => isHumanName p.2 with
    | some p => p.2
    | none =>
      match dir.findSome? (mentionedName (Text.toAsciiLowercase t)) with
      | some name => name
      | none => if looksMachineId t then "Someone" else t

/-! ## No machine ids -/

theorem looksMachineId_someone : looksMachineId "Someone" = false := by decide

theorem not_machine_of_isHumanName {name : String} (h : isHumanName name = true) : looksMachineId name = false := by
  unfold isHumanName at h
  rw [Bool.and_eq_true, Bool.not_eq_true'] at h
  exact h.2

theorem mentionedName_not_machine {tl name : String} {p : PersonDirEntry} (h : mentionedName tl p = some name) :
    looksMachineId name = false := by
  unfold mentionedName at h
  split at h
  · next hmentioned =>
    rw [Bool.and_eq_true] at hmentioned
    obtain rfl := Option.some.inj h
    exact not_machine_of_isHumanName hmentioned.2
  · obtain ⟨a, ha, rfl⟩ := Option.map_eq_some_iff.mp h
    split
    · next hhuman => exact not_machine_of_isHumanName hhuman
    · have halias := List.find?_some ha
      rw [Bool.and_eq_true, Bool.and_eq_true, Bool.not_eq_true'] at halias
      exact halias.1.2

theorem humanOwnerLabel_not_machine (raw : String) (dir : List PersonDirEntry) :
    looksMachineId (humanOwnerLabel raw dir) = false := by
  unfold humanOwnerLabel
  dsimp only
  split
  · exact looksMachineId_someone
  · split
    · next p hfound => exact not_machine_of_isHumanName (Option.filter_eq_some_iff.mp hfound).2
    · split
      · next name hname =>
        obtain ⟨p, -, hp⟩ := List.exists_of_findSome?_eq_some hname
        exact mentionedName_not_machine hp
      · split
        · exact looksMachineId_someone
        · next hmachine => exact Bool.eq_false_iff.mpr hmachine

/-! ## Whose label it is -/

/-- The rules of a reference: the Slack id; the subject, the name or an alias; a part of the name or an alias. -/
def refRules (raw : String) : List (PersonDirEntry → Bool) :=
  let r := Text.trimStartMatches (Text.trim raw) "@"
  let rl := Text.toAsciiLowercase r
  if r = "" then []
  else
    [fun p => p.slackUserId.any fun s => Text.eqIgnoreAsciiCase s r,
      fun p => Text.eqIgnoreAsciiCase p.subjectId r || Text.eqIgnoreAsciiCase p.displayName r
        || p.aliases.any fun a => Text.eqIgnoreAsciiCase a r,
      fun p => decide (3 ≤ Text.byteLength rl) && (Text.contains (Text.toAsciiLowercase p.displayName) rl
        || p.aliases.any fun a => Text.contains (Text.toAsciiLowercase a) rl)]

/-- The text `tl` contains the id of the entry, or an alias. -/
def mentions (tl : String) (p : PersonDirEntry) : Bool :=
  (p.subjectId ≠ "" && Text.contains tl (Text.toAsciiLowercase p.subjectId))
    || p.aliases.any fun a =>
      decide (4 ≤ Text.byteLength a) && !looksMachineId a && Text.contains tl (Text.toAsciiLowercase a)

/-- The rules of an owner, in the order in which they are tried. -/
def ownerRules (raw : String) : List (PersonDirEntry → Bool) :=
  let t := Text.trim raw
  if t = "" then []
  else refRules t ++ refRules (strippedOwner t) ++ [mentions (Text.toAsciiLowercase t)]

/-- What is shown for an owner whom nobody in the directory is. -/
def unknownOwner (raw : String) : String :=
  let t := Text.trim raw
  if t = "" || looksMachineId t then "Someone" else t

section Rules
variable {raw tl : String} {dir : List PersonDirEntry}

theorem resolvePersonRef_eq (raw : String) (dir : List PersonDirEntry) :
    resolvePersonRef raw dir = (firstByRules (refRules raw) dir).map fun p => (p.subjectId, p.displayName) := by
  unfold resolvePersonRef refRules
  dsimp only
  generalize Text.trimStartMatches (Text.trim raw) "@" = r
  by_cases hempty : r = ""
  · rw [if_pos hempty, if_pos hempty]
    rfl
  · rw [if_neg hempty, if_neg hempty, firstByRules_cons, firstByRules_cons, firstByRules_cons, Option.or_assoc]
    refine congrArg (Option.map _) (congrArg (Option.or _) (congrArg (Option.or _) ?_))
    by_cases hshort : Text.byteLength (Text.toAsciiLowercase r) < 3
    · rw [if_pos hshort, decide_eq_false (Nat.not_le.mpr hshort)]
      have hnone : dir.find? (fun _ => false) = none := List.find?_eq_none.mpr fun _ _ => Bool.false_ne_true
      exact (congrArg (Option.or · none) hnone).symm
    · rw [if_neg hshort, decide_eq_true (Nat.not_lt.mp hshort)]
      exact (Option.or_none).symm

theorem mentionedName_of_human {p : PersonDirEntry} (h : isHumanName p.displayName = true) :
    mentionedName tl p = if mentions tl p then some p.displayName else none := by
  unfold mentionedName mentions
  rw [h, Bool.and_true]
  cases decide (p.subjectId ≠ "") && Text.contains tl (Text.toAsciiLowercase p.subjectId) with
  | true => rfl
  | false =>
    rw [if_neg Bool.false_ne_true, Bool.false_or]
    cases hfound : p.aliases.find? _ with
    | none =>
      have hnone := List.any_eq_false.mpr fun a ha => List.find?_eq_none.mp hfound a ha
      rw [hnone]
      rfl
    | some a =>
      rw [if_pos (List.any_eq_true.mpr ⟨a, List.mem_of_find?_eq_some hfound, List.find?_some hfound⟩)]
      rfl

/-- Among people with human names, the first who is mentioned is shown. -/
theorem findSome?_mentionedName (hhuman : ∀ p ∈ dir, isHumanName p.displayName = true) :
    dir.findSome? (mentionedName tl) = (dir.find? (mentions tl)).map (·.displayName) := by
  induction dir with
  | nil => rfl
  | cons p dir ih =>
    obtain ⟨hp, hdir⟩ := List.forall_mem_cons.mp hhuman
    rw [List.findSome?_cons, List.find?_cons, mentionedName_of_human hp, ih hdir]
    cases mentions tl p <;> rfl

/-- Among people with human names, the label is the name of the first who meets the first rule that anybody meets. -/
theorem humanOwnerLabel_eq (hhuman : ∀ p ∈ dir, isHumanName p.displayName = true) :
    humanOwnerLabel raw dir = ((firstByRules (ownerRules raw) dir).map (·.displayName)).getD (unknownOwner raw) := by
  unfold humanOwnerLabel ownerRules unknownOwner
  dsimp only
  generalize Text.trim raw = t
  by_cases hempty : t = ""
  · rw [if_pos hempty, if_pos hempty, decide_eq_true hempty]
    rfl
  · have hhumans : ∀ {rules : List (PersonDirEntry → Bool)} {p : PersonDirEntry},
        firstByRules rules dir = some p → isHumanName p.displayName = true :=
      fun hp => hhuman _ (mem_of_firstByRules hp)
    rw [if_neg hempty, if_neg hempty, decide_eq_false hempty, Bool.false_or, firstByRules_append, firstByRules_append,
      resolvePersonRef_eq, resolvePersonRef_eq, findSome?_mentionedName hhuman, ← Option.map_or, firstByRules_cons]
    cases hfound : (firstByRules (refRules t) dir).or (firstByRules (refRules (strippedOwner t)) dir) with
    | some p =>
      -- the name is human, so whoever is found passes the check for machine ids
      have hname : isHumanName p.displayName = true := by
        rcases Option.or_eq_some_iff.mp hfound with hp | ⟨-, hp⟩
        · exact hhumans hp
        · exact hhumans hp
      rw [Option.map_some, Option.filter_some, if_pos hname]
      rfl
    | none =>
      rw [Option.map_none, Option.filter_none, Option.none_or]
      cases dir.find? (mentions (Text.toAsciiLowercase t)) with
      | some p => rfl
      | none =>
        have hnobody : (none : Option PersonDirEntry).or (firstByRules [] dir) = none := rfl
        rw [hnobody, Option.map_none, Option.getD_none]

end Rules

/-- People with subjects that are all different, and names that may be shown. -/
structure OwnerDirectory where
  entries : List PersonDirEntry
  distinct : (entries.map PersonDirEntry.subjectId).Nodup
  human : ∀ p ∈ entries, isHumanName p.displayName = true

/-- What may stand before the subject of an owner. -/
def ownerPrefixes : List String := ["", "twin:", "person:", "twin:person:", "person:twin:"]

/-- In whatever order the directory is, the subject is shown as the name of the entry. -/
def AttributesOwner (d : OwnerDirectory) (e : PersonDirEntry) (pfx : String) : Prop :=
  ∀ dir : List PersonDirEntry, dir.Perm d.entries → humanOwnerLabel (pfx ++ e.subjectId) dir = e.displayName

/-- Whoever meets the first rule that anybody meets has the name of the entry. -/
def Unmistakable (d : OwnerDirectory) (e : PersonDirEntry) (pfx : String) : Prop :=
  RulesAgree (ownerRules (pfx ++ e.subjectId)) d.entries PersonDirEntry.displayName (unknownOwner (pfx ++ e.subjectId))
    e.displayName

theorem attributesOwner_iff (d : OwnerDirectory) (e : PersonDirEntry) (pfx : String) :
    AttributesOwner d e pfx ↔ Unmistakable d e pfx := by
  unfold AttributesOwner Unmistakable
  rw [← forall_perm_firstByRules_iff]
  refine forall_congr' fun dir => forall_congr' fun hperm => ?_
  rw [humanOwnerLabel_eq fun p hp => d.human p (hperm.mem_iff.mp hp)]

/-- Two people, the id of one inside the id of the other. -/
def aliceAndBob : OwnerDirectory where
  entries := [⟨"gu_1", "Alice", none, []⟩, ⟨"gu_12", "Bob", none, []⟩]
  distinct := by decide
  human := by decide

/-- The work of Bob is shown as Alice's. -/
theorem not_attributesOwner : ¬ ∀ d : OwnerDirectory, ∀ e ∈ d.entries, ∀ pfx ∈ ownerPrefixes,
    AttributesOwner d e pfx := by
  intro h
  have hbob := h aliceAndBob ⟨"gu_12", "Bob", none, []⟩ (List.mem_cons_of_mem _ List.mem_cons_self) "person:"
    (by decide) aliceAndBob.entries (List.Perm.refl _)
  revert hbob
  decide

end AiManager.Platform
