import AiManager.Lib.CappedList
import Mathlib.Data.List.Nodup
import Mathlib.Data.Set.Insert
import Mathlib.Logic.Function.Basic
import Mathlib.Logic.Relation

/-! # Stale copies

Workers over lists under keys, without a lock: a worker reads a list, changes its copy and puts it back, by
when others have put theirs. Their updates are lost. What is stored stays in shape all the same, provided that
a worker changes only what of an item is not fixed, and adds at most one item, under a name made for it. -/

namespace AiManager.Lib

/-- What of an item is fixed, its name, when it is in shape under a key, and how many items a list may have. -/
structure ItemRules (κ ν α β : Type) where
  fixed : α → β
  name : β → ν
  ok : κ → α → Prop
  cap : ℕ

def ItemRules.nameOf {κ ν α β : Type} (R : ItemRules κ ν α β) (x : α) : ν := R.name (R.fixed x)

/-- The lists under their keys, and what has happened to them. -/
structure Copies (ι κ ν α : Type) where
  stored : κ → List α
  /-- the names that are not made again -/
  taken : Set ν
  /-- the names that were made for a worker, and that it may still use -/
  owns : ι → ν → Prop
  /-- the copies that workers have got -/
  read : κ → List α → Prop
  /-- the versions of items that were ever stored -/
  seen : κ → α → Prop

namespace Copies
variable {ι κ ν α β : Type}

/-- `ys` is a copy `xs` with an update: versions of its items, and perhaps a new item of worker `i`. -/
structure Update (R : ItemRules κ ν α β) (c : Copies ι κ ν α) (i : ι) (k : κ) (xs ys : List α)
    (new : Option α) : Prop where
  items : ∀ y ∈ ys, new = some y ∨ ∃ x ∈ xs, R.fixed y = R.fixed x ∧ (R.ok k x → R.ok k y)
  names : (ys.map R.nameOf).Sublist ((xs ++ new.toList).map R.nameOf)
  made : ∀ z, new = some z → c.owns i (R.nameOf z) ∧ R.ok k z
  length : ys.length ≤ R.cap

/-- What a worker can do. A put uses up the names of its worker. -/
inductive Step [DecidableEq κ] (R : ItemRules κ ν α β) : Copies ι κ ν α → Copies ι κ ν α → Prop
  | name {c : Copies ι κ ν α} (i : ι) {n : ν} (hn : n ∉ c.taken) :
      Step R c { c with taken := insert n c.taken, owns := fun j m => c.owns j m ∨ (j = i ∧ m = n) }
  | read {c : Copies ι κ ν α} (k : κ) :
      Step R c { c with read := fun k' xs => c.read k' xs ∨ (k' = k ∧ xs = c.stored k) }
  | put {c : Copies ι κ ν α} (i : ι) {k : κ} {xs ys : List α} {new : Option α} (hread : c.read k xs)
      (hupdate : Update R c i k xs ys new) :
      Step R c
        { c with
          stored := Function.update c.stored k ys
          owns := fun j m => c.owns j m ∧ j ≠ i
          seen := fun k' y => c.seen k' y ∨ (k' = k ∧ y ∈ ys) }

/-- The lists are in shape, and so are the copies: no name twice in a list, one fixed part to a name. -/
structure Sound (R : ItemRules κ ν α β) (c : Copies ι κ ν α) : Prop where
  stored_seen : ∀ k, ∀ x ∈ c.stored k, c.seen k x
  stored_nodup : ∀ k, ((c.stored k).map R.nameOf).Nodup
  stored_length : ∀ k, (c.stored k).length ≤ R.cap
  read_seen : ∀ k xs, c.read k xs → ∀ x ∈ xs, c.seen k x
  read_nodup : ∀ k xs, c.read k xs → (xs.map R.nameOf).Nodup
  seen_ok : ∀ k x, c.seen k x → R.ok k x
  seen_taken : ∀ k x, c.seen k x → R.nameOf x ∈ c.taken
  seen_fixed : ∀ k x y, c.seen k x → c.seen k y → R.nameOf x = R.nameOf y → R.fixed x = R.fixed y
  owns_taken : ∀ i n, c.owns i n → n ∈ c.taken
  owns_unique : ∀ i j n, c.owns i n → c.owns j n → i = j
  owns_unseen : ∀ i n, c.owns i n → ∀ k x, c.seen k x → R.nameOf x ≠ n

variable {R : ItemRules κ ν α β} {c c' : Copies ι κ ν α} {i : ι} {k : κ} {xs ys : List α}
  {new : Option α}

/-! ## One step -/

/-- A made name is nobody else's. -/
theorem Sound.name (h : c.Sound R) {n : ν} (hn : n ∉ c.taken) :
    Sound R { c with taken := insert n c.taken, owns := fun j m => c.owns j m ∨ (j = i ∧ m = n) } where
  stored_seen := h.stored_seen
  stored_nodup := h.stored_nodup
  stored_length := h.stored_length
  read_seen := h.read_seen
  read_nodup := h.read_nodup
  seen_ok := h.seen_ok
  seen_taken k x hx := Set.mem_insert_of_mem n (h.seen_taken k x hx)
  seen_fixed := h.seen_fixed
  owns_taken j m := by
    rintro (hold | ⟨-, rfl⟩)
    · exact Set.mem_insert_of_mem n (h.owns_taken j m hold)
    · exact Set.mem_insert m c.taken
  owns_unique j l m := by
    rintro (hj | ⟨rfl, rfl⟩) (hl | ⟨rfl, hm⟩)
    · exact h.owns_unique j l m hj hl
    · exact absurd (hm ▸ h.owns_taken j m hj) hn
    · exact absurd (h.owns_taken l m hl) hn
    · rfl
  owns_unseen j m hm k x hx := by
    rcases hm with hold | ⟨-, rfl⟩
    · exact h.owns_unseen j m hold k x hx
    · rintro rfl
      exact hn (h.seen_taken k x hx)

/-- A copy is in the shape of what is stored. -/
theorem Sound.read (h : c.Sound R) (k : κ) :
    Sound R { c with read := fun k' xs => c.read k' xs ∨ (k' = k ∧ xs = c.stored k) } where
  stored_seen := h.stored_seen
  stored_nodup := h.stored_nodup
  stored_length := h.stored_length
  read_seen k' xs := by
    rintro (hold | ⟨rfl, rfl⟩)
    · exact h.read_seen k' xs hold
    · exact h.stored_seen k'
  read_nodup k' xs := by
    rintro (hold | ⟨rfl, rfl⟩)
    · exact h.read_nodup k' xs hold
    · exact h.stored_nodup k'
  seen_ok := h.seen_ok
  seen_taken := h.seen_taken
  seen_fixed := h.seen_fixed
  owns_taken := h.owns_taken
  owns_unique := h.owns_unique
  owns_unseen := h.owns_unseen

section Put
variable (h : c.Sound R) (hread : c.read k xs) (hupdate : Update R c i k xs ys new)
include h hread hupdate

/-- No name is twice in a list with an update: the name of a new item is in no copy. -/
theorem Sound.nodup_update : (ys.map R.nameOf).Nodup := by
  refine hupdate.names.nodup ?_
  rw [List.map_append]
  refine List.nodup_append.mpr ⟨h.read_nodup k xs hread, ?_, ?_⟩
  · cases new with
    | none => exact List.nodup_nil
    | some z => exact List.nodup_singleton _
  · rintro n hn m hm rfl
    obtain ⟨x, hx, rfl⟩ := List.mem_map.mp hn
    obtain ⟨z, hz, hname⟩ := List.mem_map.mp hm
    have hmade := hupdate.made z (Option.mem_toList.mp hz)
    exact h.owns_unseen i _ hmade.1 k x (h.read_seen k xs hread x hx) hname.symm

/-- An item of a list with an update is new, or has the fixed part of a version that was seen. -/
theorem Sound.item_update {y : α} (hy : y ∈ ys) :
    (new = some y ∧ c.owns i (R.nameOf y)) ∨ ∃ x, c.seen k x ∧ R.fixed y = R.fixed x := by
  rcases hupdate.items y hy with hnew | ⟨x, hx, hfixed, -⟩
  · exact .inl ⟨hnew, (hupdate.made y hnew).1⟩
  · exact .inr ⟨x, h.read_seen k xs hread x hx, hfixed⟩

/-- An item of a list with an update shares its fixed part with every version that has its name. -/
theorem Sound.fixed_update {y : α} (hy : y ∈ ys) {x : α} (hx : c.seen k x) (hname : R.nameOf x = R.nameOf y) :
    R.fixed x = R.fixed y := by
  rcases h.item_update hread hupdate hy with ⟨-, howns⟩ | ⟨x', hx', hfixed⟩
  · exact absurd hname (h.owns_unseen i _ howns k x hx)
  · rw [hfixed]
    refine h.seen_fixed k x x' hx hx' (hname.trans ?_)
    unfold ItemRules.nameOf
    rw [hfixed]

/-- What is put is in shape again, whatever is stored by then. -/
theorem Sound.put [DecidableEq κ] :
    Sound R
      { c with
        stored := Function.update c.stored k ys
        owns := fun j m => c.owns j m ∧ j ≠ i
        seen := fun k' y => c.seen k' y ∨ (k' = k ∧ y ∈ ys) } where
  stored_seen k' x hx := by
    dsimp only at hx
    rcases eq_or_ne k' k with rfl | hk
    · rw [Function.update_self] at hx
      exact .inr ⟨rfl, hx⟩
    · rw [Function.update_of_ne hk] at hx
      exact .inl (h.stored_seen k' x hx)
  stored_nodup k' := by
    dsimp only
    rcases eq_or_ne k' k with rfl | hk
    · rw [Function.update_self]
      exact h.nodup_update hread hupdate
    · rw [Function.update_of_ne hk]
      exact h.stored_nodup k'
  stored_length k' := by
    dsimp only
    rcases eq_or_ne k' k with rfl | hk
    · rw [Function.update_self]
      exact hupdate.length
    · rw [Function.update_of_ne hk]
      exact h.stored_length k'
  read_seen k' xs' hxs x hx := .inl (h.read_seen k' xs' hxs x hx)
  read_nodup := h.read_nodup
  seen_ok k' x := by
    rintro (hold | ⟨rfl, hx⟩)
    · exact h.seen_ok k' x hold
    · rcases hupdate.items x hx with hnew | ⟨x', hx', -, hok⟩
      · exact (hupdate.made x hnew).2
      · exact hok (h.seen_ok k' x' (h.read_seen k' xs hread x' hx'))
  seen_taken k' x := by
    rintro (hold | ⟨rfl, hx⟩)
    · exact h.seen_taken k' x hold
    · rcases h.item_update hread hupdate hx with ⟨-, hown⟩ | ⟨x', hx', hfixed⟩
      · exact h.owns_taken i _ hown
      · have htaken := h.seen_taken k' x' hx'
        unfold ItemRules.nameOf at htaken ⊢
        rwa [hfixed]
  seen_fixed k' x y := by
    rintro (hx | ⟨rfl, hx⟩) (hy | ⟨hk, hy⟩) hname
    · exact h.seen_fixed k' x y hx hy hname
    · exact h.fixed_update hread hupdate hy (hk ▸ hx) hname
    · exact (h.fixed_update hread hupdate hx hy hname.symm).symm
    · -- no name is twice in the list
      rw [List.inj_on_of_nodup_map (h.nodup_update hread hupdate) hx hy hname]
  owns_taken j m hm := h.owns_taken j m hm.1
  owns_unique j l m hj hl := h.owns_unique j l m hj.1 hl.1
  owns_unseen j m hm k' x := by
    obtain ⟨hold, hne⟩ := hm
    rintro (hx | ⟨rfl, hx⟩)
    · exact h.owns_unseen j m hold k' x hx
    · rcases h.item_update hread hupdate hx with ⟨-, hown⟩ | ⟨x', hx', hfixed⟩
      · rintro rfl
        exact hne (h.owns_unique j i _ hold hown)
      · have hunseen := h.owns_unseen j m hold k' x' hx'
        unfold ItemRules.nameOf at hunseen ⊢
        rwa [hfixed]

end Put

variable [DecidableEq κ]

/-- **One step** keeps the lists in shape. -/
theorem Step.sound (hstep : Step R c c') (h : c.Sound R) : c'.Sound R := by
  cases hstep with
  | name i hn => exact h.name hn
  | read k => exact h.read k
  | put i hread hupdate => exact h.put hread hupdate

/-- What was seen stays seen. -/
theorem Step.seen (hstep : Step R c c') {x : α} (hx : c.seen k x) : c'.seen k x := by
  cases hstep with
  | name _ _ => exact hx
  | read _ => exact hx
  | put _ _ _ => exact .inl hx

/-! ## A run -/

/-- **A run**, whatever the order of its steps, keeps the lists in shape. -/
theorem sound_of_reach (hreach : Relation.ReflTransGen (Step R) c c') (h : c.Sound R) : c'.Sound R := by
  induction hreach with
  | refl => exact h
  | tail _ hstep ih => exact hstep.sound ih

theorem seen_of_reach (hreach : Relation.ReflTransGen (Step R) c c') {x : α} (hx : c.seen k x) : c'.seen k x := by
  induction hreach with
  | refl => exact hx
  | tail _ hstep ih => exact hstep.seen ih

/-- The lists at the start: no copies are out, and no name has been made. -/
def start (stored : κ → List α) (taken : Set ν) : Copies ι κ ν α :=
  ⟨stored, taken, fun _ _ => False, fun _ _ => False, fun k x => x ∈ stored k⟩

omit [DecidableEq κ] in
theorem sound_start {stored : κ → List α} {taken : Set ν} (hnodup : ∀ k, ((stored k).map R.nameOf).Nodup)
    (hlength : ∀ k, (stored k).length ≤ R.cap) (hok : ∀ k, ∀ x ∈ stored k, R.ok k x)
    (htaken : ∀ k, ∀ x ∈ stored k, R.nameOf x ∈ taken) : Sound R (start (ι := ι) stored taken) where
  stored_seen _ _ hx := hx
  stored_nodup := hnodup
  stored_length := hlength
  read_seen _ _ h := h.elim
  read_nodup _ _ h := h.elim
  seen_ok := hok
  seen_taken := htaken
  seen_fixed k _ _ hx hy hname := by rw [List.inj_on_of_nodup_map (hnodup k) hx hy hname]
  owns_taken _ _ h := h.elim
  owns_unique _ _ _ h := h.elim
  owns_unseen _ _ h := h.elim

/-- Two versions of a name, stored at two times of a run, share their fixed part. -/
theorem fixed_of_reach (hreach : Relation.ReflTransGen (Step R) c c') (h : c.Sound R) {x y : α}
    (hx : x ∈ c.stored k) (hy : y ∈ c'.stored k) (hname : R.nameOf x = R.nameOf y) : R.fixed x = R.fixed y := by
  have hsound := sound_of_reach hreach h
  exact hsound.seen_fixed k x y (seen_of_reach hreach (h.stored_seen k x hx)) (hsound.stored_seen k y hy) hname

end Copies

end AiManager.Lib
