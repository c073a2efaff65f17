import AiManager.Lib.Text

/-! # Replacing a part of a text

`s.replace(part, new)` goes through the text once, from left to right. What it makes of it is said on the lists of
characters, from which follows what still stands in the result. -/

namespace AiManager.Lib.Text

open String.Slice.Pattern String.Slice.Pattern.Model

/-- A text with every `part`, from left to right, replaced by `new`. -/
inductive Replaced (part new : List Char) : List Char → List Char → Prop
  | done : Replaced part new [] []
  | hit {cs ds : List Char} (h : Replaced part new cs ds) : Replaced part new (part ++ cs) (new ++ ds)
  | keep {cs ds : List Char} (xs : List Char) (hno : ∀ a b, xs = a ++ b → b ≠ [] → ¬ part <+: b ++ cs)
    (h : Replaced part new cs ds) : Replaced part new (xs ++ cs) (xs ++ ds)

/-! ## The search -/

section Search
variable {s : String.Slice} {part : String}

/-- What a step of the search adds. -/
def replaceStep (s : String.Slice) (new : String) : String → SearchStep s → String
  | sofar, .matched .. => sofar ++ new.toSlice
  | sofar, .rejected start stop => sofar ++ s.slice! start stop

theorem replaced_of_search (new : String) {pos : s.Pos} {steps : List (SearchStep s)} (h : IsValidSearchFrom part pos steps)
    {t₁ t₂ : String} (hsplit : pos.Splits t₁ t₂) (sofar : String) :
    ∃ t, steps.foldl (replaceStep s new) sofar = sofar ++ t ∧ Replaced part.toList new.toList t₂.toList t.toList := by
  induction h generalizing t₁ t₂ sofar with
  | endPos =>
    refine ⟨"", String.append_empty.symm, ?_⟩
    rw [(String.Slice.splits_endPos_iff.mp hsplit).2]
    exact .done
  | matched h valid ih =>
    obtain ⟨u₁, u₂, hstart, hstop⟩ := ForwardStringSearcher.isLongestMatchAt_iff_splits.mp h
    obtain ⟨t, ht, hreplaced⟩ := ih hstop (sofar ++ new)
    refine ⟨new ++ t, ?_, ?_⟩
    · rw [List.foldl_cons, ← String.append_assoc, ← ht, replaceStep, String.appendSlice_eq, String.copy_toSlice]
    · rw [hsplit.eq_right hstart, String.toList_append, String.toList_append]
      exact .hit hreplaced
  | @mismatched steps start stop hlt hno valid ih =>
    obtain ⟨t, ht, hreplaced⟩ := ih stop.splits (sofar ++ s.slice! start stop)
    obtain ⟨xs, hxs, hleft, hright⟩ := (hsplit.lt_iff_exists_eq_append stop.splits).mp hlt
    have hslice : (s.slice! start stop).copy = xs := by
      have hsplits : ∃ h, (s.slice start stop h).copy = xs := by
        rw [String.Slice.copy_slice_eq_iff_splits]
        exact ⟨t₁, _, hright ▸ hsplit, hleft ▸ stop.splits⟩
      obtain ⟨hle, hcopy⟩ := hsplits
      rw [← String.Slice.slice_eq_slice! (h := hle), hcopy]
    refine ⟨xs ++ t, ?_, ?_⟩
    · rw [List.foldl_cons, replaceStep, ht, String.appendSlice_eq, hslice, String.append_assoc]
    · rw [hright, String.toList_append, String.toList_append]
      refine .keep xs.toList ?_ hreplaced
      rintro a b hab hb ⟨rest, hrest⟩
      -- the position in front of `b` would match
      have hcopy : s.copy = (t₁ ++ String.ofList a) ++ (part ++ String.ofList rest) := by
        rw [hsplit.eq_append, hright]
        apply String.toList_inj.mp
        simp only [String.toList_append, String.toList_ofList, hrest, hab, List.append_assoc]
      have hat := String.Slice.Pos.splits_ofEqAppend hcopy
      refine hno (String.Slice.Pos.ofEqAppend hcopy) ?_ ?_ (ForwardStringSearcher.matchesAt_iff_splits.mpr ⟨_, _, hat⟩)
      · rw [hsplit.le_iff_exists_eq_append hat]
        refine ⟨String.ofList a, rfl, ?_⟩
        rw [hright]
        apply String.toList_inj.mp
        simp only [String.toList_append, String.toList_ofList, hrest, hab, List.append_assoc]
      · rw [hat.lt_iff_exists_eq_append stop.splits]
        refine ⟨String.ofList b, fun hempty => hb (by simpa using congrArg String.toList hempty), ?_, ?_⟩
        · rw [hleft]
          apply String.toList_inj.mp
          simp only [String.toList_append, String.toList_ofList, hab, List.append_assoc]
        · apply String.toList_inj.mp
          simp only [String.toList_append, String.toList_ofList, hrest]

end Search

/-- `s.replace(part, new)`, for a `part` that is not empty. -/
theorem replaced_replace {s part : String} (new : String) (hpart : part ≠ "") :
    Replaced part.toList new.toList s.toList (s.replace part new).toList := by
  have hlawful := ForwardStringSearcher.lawfulToForwardSearcherModel hpart
  obtain ⟨t, ht, hreplaced⟩ := replaced_of_search new (hlawful.isValidSearchFrom_toList s.toSlice)
    s.toSlice.splits_startPos ""
  have hresult : s.replace part new = t := by
    unfold String.replace String.Slice.replace
    rw [← Std.Iter.foldl_toList]
    refine Eq.trans ?_ (ht.trans (String.empty_append))
    congr 1
  rw [hresult]
  simpa using hreplaced

/-! ## What is left -/

section Left
variable {part needle mid cs ds : List Char} {opening closing : Char}

/-- A text without the brackets is on one side of a replacement, or within it. -/
theorem infix_bracketed_iff (hopening : opening ∉ needle) (hclosing : closing ∉ needle) (ctx ds : List Char) :
    needle <:+: ctx ++ ((opening :: mid ++ [closing]) ++ ds) ↔ needle <:+: ctx ∨ needle <:+: mid ∨ needle <:+: ds := by
  rw [List.cons_append, List.cons_append, infix_append_cons_iff hopening, List.append_assoc, List.singleton_append,
    infix_append_cons_iff hclosing]

/-- A replacement with brackets makes no new parts. -/
theorem Replaced.part_of_part (h : Replaced part (opening :: mid ++ [closing]) cs ds) (hopening : opening ∉ needle)
    (hclosing : closing ∉ needle) (hmid : ¬ needle <:+: mid) :
    ∀ ctx, needle <:+: ctx ++ ds → needle <:+: ctx ++ cs := by
  induction h with
  | done => exact fun ctx hneedle => hneedle
  | @hit cs ds h ih =>
    intro ctx hneedle
    rcases (infix_bracketed_iff hopening hclosing ctx ds).mp hneedle with hctx | hinside | hds
    · exact hctx.trans (List.prefix_append ctx _).isInfix
    · exact absurd hinside hmid
    · have hcs : needle <:+: cs := ih [] hds
      exact hcs.trans ((List.suffix_append part cs).isInfix.trans (List.suffix_append ctx _).isInfix)
  | @keep cs ds xs hno h ih =>
    intro ctx hneedle
    rw [← List.append_assoc] at hneedle ⊢
    exact ih (ctx ++ xs) hneedle

/-- What is replaced does not stand in the result. -/
theorem Replaced.not_part (h : Replaced part (opening :: mid ++ [closing]) cs ds) (hne : part ≠ [])
    (hopening : opening ∉ part) (hclosing : closing ∉ part) (hmid : ¬ part <:+: mid) :
    ∀ ctx, (∀ a b, ctx = a ++ b → b ≠ [] → ¬ part <+: b ++ cs) → ¬ part <:+: ctx ++ ds := by
  have hwithin : ∀ {ctx cs : List Char}, (∀ a b, ctx = a ++ b → b ≠ [] → ¬ part <+: b ++ cs) → ¬ part <:+: ctx := by
    rintro ctx cs hctx ⟨a, b, rfl⟩
    refine hctx a (part ++ b) (List.append_assoc a part b) (List.append_ne_nil_of_left_ne_nil hne b) ?_
    exact ⟨b ++ cs, (List.append_assoc part b cs).symm⟩
  induction h with
  | done =>
    intro ctx hctx
    rw [List.append_nil]
    exact hwithin hctx
  | @hit cs ds h ih =>
    intro ctx hctx hpart
    rcases (infix_bracketed_iff hopening hclosing ctx ds).mp hpart with hbefore | hinside | hds
    · exact hwithin hctx hbefore
    · exact hmid hinside
    · exact ih [] (fun a b hab hb => absurd (List.append_eq_nil_iff.mp hab.symm).2 hb) hds
  | @keep cs ds xs hno h ih =>
    intro ctx hctx
    rw [← List.append_assoc]
    apply ih
    intro a b hab hb
    rcases List.append_eq_append_iff.mp hab with ⟨as, rfl, rfl⟩ | ⟨as, rfl, rfl⟩
    · exact hno as b rfl hb
    · cases as with
      | nil => exact hno [] xs rfl hb
      | cons c as =>
        have hfrom := hctx a (c :: as) rfl (List.cons_ne_nil c as)
        rwa [List.append_assoc]

end Left

end AiManager.Lib.Text
