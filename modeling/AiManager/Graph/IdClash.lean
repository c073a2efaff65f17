import AiManager.Graph.Ids
import AiManager.Lib.Delimited

/-! # Ids that meet

The arguments of an id are written one after the other with a delimiter in between, and nothing keeps the delimiter out
of them. Two rows of arguments get one id exactly if their pieces between delimiters are the same (`id_ne_iff`). -/

namespace AiManager.Graph

open Lib

/-- A constructor of ids with its arguments. -/
inductive IdCall where
  | person (globalUserId : String)
  | personFromProvider (providerUserId : String)
  | repo (resource : String)
  | pr (resourceId : String)
  | issue (resourceId : String)
  | team (name : String)
  | channel (name : String)
  | commit (repo sha : String)
  | edge (tenantId edgeType fromNodeId toNodeId eventId : String)
  | stableEdge (tenantId edgeType fromNodeId toNodeId : String)
  | intent (ownerNodeId aboutNodeId : String)
  deriving DecidableEq

namespace IdCall

def id : IdCall → String
  | .person u => personNodeId u
  | .personFromProvider u => Graph.personFromProvider u
  | .repo r => repoNodeId r
  | .pr r => prNodeId r
  | .issue r => issueNodeId r
  | .team n => teamNodeId n
  | .channel n => channelNodeId n
  | .commit r s => commitNodeId r s
  | .edge t k v w e => edgeId t k v w e
  | .stableEdge t k v w => stableEdgeId t k v w
  | .intent o a => intentNodeId o a

/-- What an edge id is the hash of. -/
def hashed : IdCall → Option String
  | .edge t k v w e => some (t ++ "|" ++ k ++ "|" ++ v ++ "|" ++ w ++ "|" ++ e)
  | .stableEdge t k v w => some (t ++ "|" ++ k ++ "|" ++ v ++ "|" ++ w)
  | _ => none

/-- The hash keeps apart what the two calls hash. -/
def NoCollision (x y : IdCall) : Prop :=
  ∀ p q, x.hashed = some p → y.hashed = some q → Sha256.hex p = Sha256.hex q → p = q

/-- The arguments have the same pieces between delimiters. -/
def SamePieces (d : Char) (args args' : List String) : Prop :=
  pieces d (args.map String.toList) = pieces d (args'.map String.toList)

instance (d : Char) (args args' : List String) : Decidable (SamePieces d args args') :=
  inferInstanceAs (Decidable (pieces d (args.map String.toList) = pieces d (args'.map String.toList)))

/-- Nobody and somebody called `unknown`, or the same pieces. -/
def Clash : IdCall → IdCall → Prop
  | .person u, .person v => (u = "" ∧ v = "unknown") ∨ (u = "unknown" ∧ v = "")
  | .commit r s, .commit r' s' => SamePieces ':' [r, s] [r', s']
  | .edge t k v w e, .edge t' k' v' w' e' => SamePieces '|' [t, k, v, w, e] [t', k', v', w', e']
  | .stableEdge t k v w, .stableEdge t' k' v' w' => SamePieces '|' [t, k, v, w] [t', k', v', w']
  | .intent o a, .intent o' a' => SamePieces ':' [o, a] [o', a']
  | _, _ => False

section Calls
variable {x y : IdCall}

theorem eq_iff_samePieces {d : Char} {s s' : String} {args args' : List String} (h : args ≠ []) (h' : args' ≠ [])
    (hs : s.toList = [d].intercalate (args.map String.toList))
    (hs' : s'.toList = [d].intercalate (args'.map String.toList)) : s = s' ↔ SamePieces d args args' := by
  rw [← String.toList_inj, hs, hs']
  exact intercalate_eq_iff (mt List.map_eq_nil_iff.mp h) (mt List.map_eq_nil_iff.mp h')

theorem personNodeId_eq_iff {u v : String} (hne : u ≠ v) :
    personNodeId u = personNodeId v ↔ (u = "" ∧ v = "unknown") ∨ (u = "unknown" ∧ v = "") := by
  have hunknown : ("person:unknown" : String) = "person:" ++ "unknown" := by decide
  unfold personNodeId
  by_cases hu : u = ""
  · have hv : v ≠ "" := fun hv => hne (hu.trans hv.symm)
    rw [if_pos hu, if_neg hv, hunknown, String.append_right_inj, eq_comm]
    simp [hu, hv]
  · rw [if_neg hu]
    by_cases hv : v = ""
    · rw [if_pos hv, hunknown, String.append_right_inj]
      simp [hu, hv]
    · rw [if_neg hv, String.append_right_inj]
      simp [hu, hv, hne]

theorem hash_eq_iff {p q start : String} (hhash : Sha256.hex p = Sha256.hex q → p = q) :
    start ++ Sha256.hex p = start ++ Sha256.hex q ↔ p = q := by
  rw [String.append_right_inj]
  exact ⟨hhash, congrArg _⟩

/-- With different arguments a constructor gives different ids, unless these clash. -/
theorem id_ne_iff (x y : IdCall) (hsame : x.ctorIdx = y.ctorIdx) (hne : x ≠ y) (hhash : NoCollision x y) :
    x.id ≠ y.id ↔ ¬ Clash x y := by
  refine not_congr ?_
  -- an id that only puts a word before its argument never clashes
  have hword : ∀ {word a b : String} {f : String → IdCall}, x = f a → y = f b → ¬ word ++ a = word ++ b := by
    intro word a b f hx hy heq
    exact hne (hx.trans ((congrArg f ((String.append_right_inj _).mp heq)).trans hy.symm))
  cases x with
  | person u =>
    cases y with
    | person v => exact personNodeId_eq_iff fun huv => hne (congrArg _ huv)
    | _ => cases hsame
  | personFromProvider u =>
    cases y with
    | personFromProvider v => exact iff_of_false (hword rfl rfl) not_false
    | _ => cases hsame
  | repo r =>
    cases y with
    | repo r' => exact iff_of_false (hword rfl rfl) not_false
    | _ => cases hsame
  | pr r =>
    cases y with
    | pr r' => exact iff_of_false (hword rfl rfl) not_false
    | _ => cases hsame
  | issue r =>
    cases y with
    | issue r' => exact iff_of_false (hword rfl rfl) not_false
    | _ => cases hsame
  | team n =>
    cases y with
    | team n' => exact iff_of_false (hword rfl rfl) not_false
    | _ => cases hsame
  | channel n =>
    cases y with
    | channel n' => exact iff_of_false (hword rfl rfl) not_false
    | _ => cases hsame
  | commit r s =>
    cases y with
    | commit r' s' =>
      show "commit:" ++ r ++ ":" ++ s = "commit:" ++ r' ++ ":" ++ s' ↔ SamePieces ':' [r, s] [r', s']
      rw [String.append_assoc, String.append_assoc, String.append_assoc, String.append_assoc, String.append_right_inj]
      exact eq_iff_samePieces (List.cons_ne_nil _ _) (List.cons_ne_nil _ _) (by simp) (by simp)
    | _ => cases hsame
  | edge t k v w e =>
    cases y with
    | edge t' k' v' w' e' =>
      refine (hash_eq_iff (hhash _ _ rfl rfl)).trans ?_
      exact eq_iff_samePieces (List.cons_ne_nil _ _) (List.cons_ne_nil _ _) (by simp) (by simp)
    | _ => cases hsame
  | stableEdge t k v w =>
    cases y with
    | stableEdge t' k' v' w' =>
      refine (hash_eq_iff (hhash _ _ rfl rfl)).trans ?_
      exact eq_iff_samePieces (List.cons_ne_nil _ _) (List.cons_ne_nil _ _) (by simp) (by simp)
    | _ => cases hsame
  | intent o a =>
    cases y with
    | intent o' a' =>
      show "intent:" ++ o ++ ":" ++ a = "intent:" ++ o' ++ ":" ++ a' ↔ SamePieces ':' [o, a] [o', a']
      rw [String.append_assoc, String.append_assoc, String.append_assoc, String.append_assoc, String.append_right_inj]
      exact eq_iff_samePieces (List.cons_ne_nil _ _) (List.cons_ne_nil _ _) (by simp) (by simp)
    | _ => cases hsame

/-- What one issue blocks in two events. -/
def blockedIn (eventId : String) : IdCall := .edge "ten_1" "BLOCKS" "issue:A" "issue:B" eventId

set_option maxRecDepth 20000 in
theorem blockedIn_apart : (blockedIn "ev_1").id ≠ (blockedIn "ev_2").id := by
  have hhash : NoCollision (blockedIn "ev_1") (blockedIn "ev_2") := by
    intro p q hp hq heq
    obtain rfl := Option.some.inj hp
    obtain rfl := Option.some.inj hq
    exact absurd heq (by decide +kernel)
  refine (id_ne_iff (blockedIn "ev_1") (blockedIn "ev_2") rfl (by decide) hhash).mpr ?_
  show ¬ SamePieces '|' _ _
  decide

/-- Issues whose names contain the bar: what blocks what is lost. -/
theorem barredIssues_same_id :
    ¬ ∀ x y : IdCall, x.ctorIdx = y.ctorIdx → x ≠ y → NoCollision x y → x.id ≠ y.id := by
  intro h
  refine h (.edge "ten_1" "BLOCKS" "issue:A|issue:B" "issue:C" "ev_1")
    (.edge "ten_1" "BLOCKS" "issue:A" "issue:B|issue:C" "ev_1") rfl (by decide) ?_ ?_
  · intro p q hp hq _
    obtain rfl := Option.some.inj hp
    obtain rfl := Option.some.inj hq
    decide
  · refine congrArg (fun s => "e_" ++ Sha256.hex s) ?_
    decide

end Calls

end IdCall

end AiManager.Graph
