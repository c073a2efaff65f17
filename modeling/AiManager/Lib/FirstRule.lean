import Mathlib.Data.List.Basic

/-! # Rules tried in turn

Entries are searched by one rule after the other: the first entry that meets the first rule that any entry meets. -/

namespace AiManager.Lib

section Rules
variable {α β : Type} {rules : List (α → Bool)} {xs ys : List α}

def firstByRules (rules : List (α → Bool)) (xs : List α) : Option α :=
  rules.findSome? fun rule => xs.find? rule

/-- The first rule that any entry meets. -/
def decidingRule (rules : List (α → Bool)) (xs : List α) : Option (α → Bool) :=
  rules.find? fun rule => xs.any rule

theorem firstByRules_cons (rule : α → Bool) (rules : List (α → Bool)) (xs : List α) :
    firstByRules (rule :: rules) xs = (xs.find? rule).or (firstByRules rules xs) := by
  unfold firstByRules
  rw [List.findSome?_cons]
  cases xs.find? rule <;> rfl

/-- An answer is an entry. -/
theorem mem_of_firstByRules {x : α} (h : firstByRules rules xs = some x) : x ∈ xs := by
  obtain ⟨rule, -, hrule⟩ := List.exists_of_findSome?_eq_some h
  exact List.mem_of_find?_eq_some hrule

theorem firstByRules_append (rules rules' : List (α → Bool)) (xs : List α) :
    firstByRules (rules ++ rules') xs = (firstByRules rules xs).or (firstByRules rules' xs) :=
  List.findSome?_append

theorem decidingRule_perm (h : ys.Perm xs) : decidingRule rules ys = decidingRule rules xs := by
  unfold decidingRule
  congr 1
  funext rule
  exact h.any_eq

theorem firstByRules_eq (rules : List (α → Bool)) (xs : List α) :
    firstByRules rules xs = (decidingRule rules xs).bind fun rule => xs.find? rule := by
  unfold firstByRules decidingRule
  induction rules with
  | nil => rfl
  | cons rule rules ih =>
    cases hfound : xs.find? rule with
    | none =>
      have hnone : xs.any rule = false := by
        rw [List.any_eq_false]
        exact fun x hx => List.find?_eq_none.mp hfound x hx
      rw [List.findSome?_cons_of_isNone (by rw [hfound]; rfl), List.find?_cons_of_neg (by rw [hnone]; decide), ih]
    | some x =>
      have hsome : xs.any rule = true :=
        List.any_eq_true.mpr ⟨x, List.mem_of_find?_eq_some hfound, List.find?_some hfound⟩
      rw [List.findSome?_cons_of_isSome (by rw [hfound]; rfl), List.find?_cons_of_pos hsome, Option.bind_some]

/-- Whoever comes first is the same in some respect just if all are. -/
theorem forall_perm_find?_iff {rule : α → Bool} {f : α → β} {b : β} (hany : xs.any rule = true) :
    (∀ ys : List α, ys.Perm xs → (ys.find? rule).map f = some b) ↔ ∀ x ∈ xs, rule x = true → f x = b := by
  constructor
  · intro h x hx hrule
    obtain ⟨before, after, rfl⟩ := List.append_of_mem hx
    have hfirst := h (x :: (before ++ after)) List.perm_middle.symm
    rw [List.find?_cons_of_pos hrule] at hfirst
    exact Option.some.inj hfirst
  · intro h ys hperm
    obtain ⟨x, hx⟩ : ∃ x, ys.find? rule = some x := by
      rw [← Option.isSome_iff_exists, List.find?_isSome]
      obtain ⟨x, hx, hrule⟩ := List.any_eq_true.mp hany
      exact ⟨x, hperm.mem_iff.mpr hx, hrule⟩
    rw [hx, Option.map_some, h x (hperm.mem_iff.mp (List.mem_of_find?_eq_some hx)) (List.find?_some hx)]

/-- All entries that meet the deciding rule have the value; where no rule is met, it is the other one. -/
def RulesAgree (rules : List (α → Bool)) (xs : List α) (f : α → β) (other b : β) : Prop :=
  match decidingRule rules xs with
  | some rule => ∀ x ∈ xs, rule x = true → f x = b
  | none => other = b

/-- In every order the answer has the value just if the rules agree on it. -/
theorem forall_perm_firstByRules_iff (rules : List (α → Bool)) (xs : List α) (f : α → β) (other b : β) :
    (∀ ys : List α, ys.Perm xs → ((firstByRules rules ys).map f).getD other = b) ↔ RulesAgree rules xs f other b := by
  unfold RulesAgree
  -- the deciding rule depends on which entries there are and not on their order
  have hrule : ∀ ys : List α, ys.Perm xs →
      firstByRules rules ys = (decidingRule rules xs).bind fun rule => ys.find? rule := by
    intro ys hperm
    rw [firstByRules_eq, decidingRule_perm hperm]
  cases hdeciding : decidingRule rules xs with
  | none =>
    rw [hdeciding] at hrule
    constructor
    · intro h
      have hsame := h xs (List.Perm.refl xs)
      rw [hrule xs (List.Perm.refl xs)] at hsame
      exact hsame
    · intro h ys hperm
      rw [hrule ys hperm]
      exact h
  | some rule =>
    rw [hdeciding] at hrule
    have hany : xs.any rule = true := List.find?_some (p := fun rule : α → Bool => xs.any rule) hdeciding
    refine Iff.trans ?_ (forall_perm_find?_iff hany)
    refine forall_congr' fun ys => forall_congr' fun hperm => ?_
    rw [hrule ys hperm, Option.bind_some]
    have hfound : (ys.find? rule).isSome = true := by
      rw [List.find?_isSome]
      obtain ⟨x, hx, hx'⟩ := List.any_eq_true.mp hany
      exact ⟨x, hperm.mem_iff.mpr hx, hx'⟩
    obtain ⟨x, hx⟩ := Option.isSome_iff_exists.mp hfound
    rw [hx, Option.map_some, Option.getD_some, Option.some_inj]

end Rules

end AiManager.Lib
