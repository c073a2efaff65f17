import Mathlib.Data.List.Sort

/-! # ORDER BY and LIMIT

A selection that is ordered and cut off. An order leaves open how rows come that it does not tell
apart, so `OrderLimit` is a relation: the rows in some order that is sorted, and the first `n` of
them. -/

namespace AiManager.Lib

variable {α β : Type}

/-- `answer` may be what `ORDER BY r LIMIT n` gives on these rows. -/
def OrderLimit (r : α → α → Prop) (n : ℕ) (rows answer : List α) : Prop :=
  ∃ sorted : List α, sorted.Perm rows ∧ sorted.Pairwise r ∧ answer = sorted.take n

namespace OrderLimit

variable {r : α → α → Prop} {n : ℕ} {rows rows' answer answer' : List α}

theorem insertionSort [DecidableRel r] [Std.Total r] [IsTrans α r] (n : ℕ) (rows : List α) :
    OrderLimit r n rows ((rows.insertionSort r).take n) :=
  ⟨_, List.perm_insertionSort r rows, List.pairwise_insertionSort r rows, rfl⟩

theorem exists_answer [Std.Total r] [IsTrans α r] (n : ℕ) (rows : List α) :
    ∃ answer, OrderLimit r n rows answer := by
  classical
  exact ⟨_, insertionSort n rows⟩

theorem congr_rows (h : OrderLimit r n rows answer) (hrows : rows.Perm rows') :
    OrderLimit r n rows' answer := by
  obtain ⟨sorted, hperm, hsorted, rfl⟩ := h
  exact ⟨sorted, hperm.trans hrows, hsorted, rfl⟩

theorem length (h : OrderLimit r n rows answer) : answer.length = min n rows.length := by
  obtain ⟨sorted, hperm, -, rfl⟩ := h
  rw [List.length_take, hperm.length_eq]

theorem subset (h : OrderLimit r n rows answer) : answer ⊆ rows := by
  obtain ⟨sorted, hperm, -, rfl⟩ := h
  intro a ha
  exact hperm.mem_iff.mp (List.mem_of_mem_take ha)

theorem pairwise (h : OrderLimit r n rows answer) : answer.Pairwise r := by
  obtain ⟨sorted, -, hsorted, rfl⟩ := h
  exact hsorted.sublist (List.take_sublist _ _)

theorem nodup_map (h : OrderLimit r n rows answer) {f : α → β} (hrows : (rows.map f).Nodup) :
    (answer.map f).Nodup := by
  obtain ⟨sorted, hperm, -, rfl⟩ := h
  exact ((hperm.map f).nodup_iff.mpr hrows).sublist ((List.take_sublist _ _).map f)

theorem nodup (h : OrderLimit r n rows answer) (hrows : rows.Nodup) : answer.Nodup := by
  have hmap := h.nodup_map (f := id) (by rwa [List.map_id])
  rwa [List.map_id] at hmap

/-- A row that is left out comes after every row that is given. -/
theorem left_out (h : OrderLimit r n rows answer) {a b : α} (ha : a ∈ answer) (hb : b ∈ rows)
    (hout : b ∉ answer) : r a b := by
  obtain ⟨sorted, hperm, hsorted, rfl⟩ := h
  rw [← List.take_append_drop n sorted] at hsorted
  have hb' : b ∈ sorted.take n ++ sorted.drop n := by
    rw [List.take_append_drop]
    exact hperm.mem_iff.mpr hb
  exact (List.pairwise_append.mp hsorted).2.2 a ha b ((List.mem_append.mp hb').resolve_left hout)

/-- Two answers show the same keys. -/
theorem map_eq [PartialOrder β] {f : α → β} (hr : ∀ a b, r a b → f b ≤ f a)
    (h : OrderLimit r n rows answer) (h' : OrderLimit r n rows answer') :
    answer.map f = answer'.map f := by
  obtain ⟨sorted, hperm, hsorted, rfl⟩ := h
  obtain ⟨sorted', hperm', hsorted', rfl⟩ := h'
  have hkeys : sorted.map f = sorted'.map f := by
    have hkeys_sorted : (sorted.map f).Pairwise fun x y => y ≤ x :=
      List.pairwise_map.mpr (hsorted.imp fun hab => hr _ _ hab)
    have hkeys_sorted' : (sorted'.map f).Pairwise fun x y => y ≤ x :=
      List.pairwise_map.mpr (hsorted'.imp fun hab => hr _ _ hab)
    refine List.Perm.eq_of_pairwise ?_ hkeys_sorted hkeys_sorted' ((hperm.trans hperm'.symm).map f)
    intro x y _ _ hxy hyx
    exact le_antisymm hyx hxy
  rw [List.map_take, List.map_take, hkeys]

/-- A row of one answer that the other lacks is tied with its last row. -/
theorem tied (h : OrderLimit r n rows answer) (h' : OrderLimit r n rows answer') {a : α}
    (ha : a ∈ answer) : a ∈ answer' ∨ ∀ x ∈ answer', r x a := by
  by_cases hmem : a ∈ answer'
  · exact .inl hmem
  · exact .inr fun x hx => h'.left_out hx (h.subset ha) hmem

/-- Rows that are decoded after they were ordered. -/
theorem map {r' : β → β → Prop} {f : α → β} (hf : ∀ a ∈ rows, ∀ b ∈ rows, r a b → r' (f a) (f b))
    (h : OrderLimit r n rows answer) : OrderLimit r' n (rows.map f) (answer.map f) := by
  obtain ⟨sorted, hperm, hsorted, rfl⟩ := h
  refine ⟨sorted.map f, hperm.map f, ?_, List.map_take⟩
  refine List.pairwise_map.mpr (hsorted.imp_of_mem ?_)
  intro a b ha hb hab
  exact hf a (hperm.mem_iff.mp ha) b (hperm.mem_iff.mp hb) hab

/-- Where the limit does not bite, the answer is the rows. -/
theorem perm (h : OrderLimit r n rows answer) (hn : rows.length ≤ n) : answer.Perm rows := by
  obtain ⟨sorted, hperm, -, rfl⟩ := h
  rwa [List.take_of_length_le (hperm.length_eq.trans_le hn)]

/-- **Which lists are an answer**, in any order: all of the rows, or as many as the limit that come before
every row that is left out. -/
theorem perm_iff (h : OrderLimit r n rows answer) (hrows : rows.Nodup)
    (hr : ∀ a ∈ rows, ∀ b ∈ rows, r a b → r b a → a = b) {c : List α} (hc : c.Nodup)
    (hlength : c.length ≤ n) : c.Perm answer ↔ c ⊆ rows ∧
      (rows ⊆ c ∨ c.length = n ∧ ∀ a ∈ c, ∀ b ∈ rows, b ∉ c → r a b) := by
  have hanswer : answer.Nodup := h.nodup hrows
  constructor
  · intro hperm
    refine ⟨fun a ha => h.subset (hperm.mem_iff.mp ha), ?_⟩
    by_cases hall : rows ⊆ c
    · exact .inl hall
    · obtain ⟨b, hb, hbc⟩ : ∃ b ∈ rows, b ∉ c := by
        by_contra hno
        exact hall fun b hb => by_contra fun hbc => hno ⟨b, hb, hbc⟩
      -- a row is left out, so the limit bites
      have hcut : ¬ rows.length ≤ n := by
        intro hn
        exact hbc (hperm.mem_iff.mpr ((h.perm hn).mem_iff.mpr hb))
      refine .inr ⟨?_, fun a ha b hb hbc => ?_⟩
      · rw [hperm.length_eq, h.length]
        omega
      · exact h.left_out (hperm.mem_iff.mp ha) hb fun hmem => hbc (hperm.mem_iff.mpr hmem)
  · rintro ⟨hsub, hall | ⟨hlen, hbefore⟩⟩
    · have hperm : c.Perm rows := (List.perm_ext_iff_of_nodup hc hrows).mpr fun a => ⟨@hsub a, @hall a⟩
      exact hperm.trans (h.perm (hperm.length_eq ▸ hlength)).symm
    · have hle : c.length ≤ rows.length := (List.subperm_of_subset hc hsub).length_le
      have hsame : answer.length = c.length := by
        rw [h.length]
        omega
      have hin : c ⊆ answer := by
        intro a ha
        by_contra hout
        obtain ⟨b, hb, hbc⟩ : ∃ b ∈ answer, b ∉ c := by
          by_contra hno
          have hback : answer ⊆ c := fun b hb => by_contra fun hbc => hno ⟨b, hb, hbc⟩
          have hperm := (List.subperm_of_subset hanswer hback).perm_of_length_le hsame.ge
          exact hout (hperm.mem_iff.mpr ha)
        have hba : r b a := h.left_out hb (hsub ha) hout
        have hab : r a b := hbefore a ha b (h.subset hb) hbc
        exact hbc (hr a (hsub ha) b (h.subset hb) hab hba ▸ ha)
      exact (List.subperm_of_subset hc hin).perm_of_length_le hsame.le

theorem length_eq_or_subset (h : OrderLimit r n rows answer) : answer.length = n ∨ rows ⊆ answer := by
  rcases Nat.le_total rows.length n with hn | hn
  · exact .inr fun a ha => (h.perm hn).mem_iff.mpr ha
  · exact .inl (h.length.trans (Nat.min_eq_left hn))

/-- **A limit before a filter, and a filter before the limit.** `first` is cut off and then filtered by
`p`; `answer` is cut off from rows that all pass `p`. -/
theorem filter_perm_iff {r₁ : α → α → Prop} {first : List α} {p : α → Bool}
    (hfirst : OrderLimit r₁ n rows first) (h : OrderLimit r n rows' answer) (hrows : rows.Nodup)
    (hrows' : rows'.Nodup) (hr : ∀ a ∈ rows', ∀ b ∈ rows', r a b → r b a → a = b)
    (hpass : ∀ a ∈ rows', a ∈ rows ∧ p a = true) : (first.filter p).Perm answer ↔
      (∀ a ∈ first, p a = true → a ∈ rows') ∧ (rows' ⊆ first ∨
        (∀ a ∈ first, p a = true) ∧ ∀ a ∈ first, ∀ b ∈ rows', b ∉ first → r a b) := by
  have hnodup : first.Nodup := hfirst.nodup hrows
  have hlength : first.length ≤ n := hfirst.length.trans_le (Nat.min_le_left _ _)
  have hfilter : ∀ a, a ∈ first.filter p ↔ a ∈ first ∧ p a = true := fun a => List.mem_filter
  rw [h.perm_iff hrows' hr (hnodup.filter _) ((List.length_filter_le _ _).trans hlength)]
  refine and_congr ?_ ?_
  · exact ⟨fun hsub a ha hpa => hsub ((hfilter a).mpr ⟨ha, hpa⟩),
      fun hsub a ha => hsub a ((hfilter a).mp ha).1 ((hfilter a).mp ha).2⟩
  · constructor
    · rintro (hall | ⟨hlen, hbefore⟩)
      · exact .inl fun a ha => ((hfilter a).mp (hall ha)).1
      · -- as many as the limit are left after the filter, so it removed nothing
        have hpassed : ∀ a ∈ first, p a = true := by
          refine List.length_filter_eq_length_iff.mp ?_
          exact le_antisymm (List.length_filter_le _ _) (hlength.trans_eq hlen.symm)
        refine .inr ⟨hpassed, fun a ha b hb hout => ?_⟩
        exact hbefore a ((hfilter a).mpr ⟨ha, hpassed a ha⟩) b hb fun hmem => hout ((hfilter b).mp hmem).1
    · rintro (hall | ⟨hpassed, hbefore⟩)
      · exact .inl fun a ha => (hfilter a).mpr ⟨hall ha, (hpass a ha).2⟩
      · have hsame : first.filter p = first := List.filter_eq_self.mpr hpassed
        rw [hsame]
        rcases hfirst.length_eq_or_subset with hlen | hall
        · exact .inr ⟨hlen, hbefore⟩
        · exact .inl fun a ha => hall (hpass a ha).1

/-- **One limit, two orders.** `first` is cut off from some of the rows by another order. -/
theorem first_perm_iff {r₁ : α → α → Prop} {first : List α} (hfirst : OrderLimit r₁ n rows first)
    (h : OrderLimit r n rows' answer) (hsub : rows ⊆ rows') (hrows : rows.Nodup) (hrows' : rows'.Nodup)
    (hr : ∀ a ∈ rows', ∀ b ∈ rows', r a b → r b a → a = b) : first.Perm answer ↔
      rows' ⊆ rows ∧ rows.length ≤ n ∨
        n ≤ rows.length ∧ ∀ a ∈ first, ∀ b ∈ rows', b ∉ first → r a b := by
  have hnodup : first.Nodup := hfirst.nodup hrows
  have hlength := hfirst.length
  have hsubset : first ⊆ rows' := fun a ha => hsub (hfirst.subset ha)
  rw [h.perm_iff hrows' hr hnodup (hlength.trans_le (Nat.min_le_left _ _)), and_iff_right hsubset]
  refine or_congr ⟨fun hall => ⟨fun a ha => hfirst.subset (hall ha), ?_⟩, fun hall a ha => ?_⟩
    (and_congr_left fun _ => by omega)
  · have hle : rows.length ≤ first.length :=
      (List.subperm_of_subset hrows fun a ha => hall (hsub ha)).length_le
    omega
  · exact (hfirst.perm hall.2).mem_iff.mpr (hall.1 ha)

end OrderLimit

/-! ## Stable sorting

A stable sort settles what its order leaves open: tied rows stay as they were. -/

section Stable
variable {r : α → α → Prop} {l : List α} {a b : α}

/-- `a` comes before `b` when `l` is sorted. -/
def StableBefore (r : α → α → Prop) (l : List α) (a b : α) : Prop := r a b ∧ (r b a → [a, b].Sublist l)

theorem pair_sublist_or (ha : a ∈ l) (hb : b ∈ l) (hne : a ≠ b) :
    [a, b].Sublist l ∨ [b, a].Sublist l := by
  induction l with
  | nil => cases ha
  | cons x xs ih =>
    rcases List.mem_cons.mp ha with rfl | hax
    · have hbx : b ∈ xs := (List.mem_cons.mp hb).resolve_left (Ne.symm hne)
      exact .inl (List.Sublist.cons_cons a (List.singleton_sublist.mpr hbx))
    · rcases List.mem_cons.mp hb with rfl | hbx
      · exact .inr (List.Sublist.cons_cons b (List.singleton_sublist.mpr hax))
      · exact (ih hax hbx).imp (List.Sublist.cons x) (List.Sublist.cons x)

theorem not_pair_sublist (hl : l.Nodup) (hab : [a, b].Sublist l) : ¬ [b, a].Sublist l := by
  induction l with
  | nil => cases hab
  | cons x xs ih =>
    obtain ⟨hx, hxs⟩ := List.nodup_cons.mp hl
    intro hba
    have hne : a ≠ b := by
      have hpair := hab.nodup hl
      simpa using hpair
    rcases List.sublist_cons_iff.mp hab with hab' | ⟨t, ht, htx⟩
    · rcases List.sublist_cons_iff.mp hba with hba' | ⟨u, hu, hux⟩
      · exact ih hxs hab' hba'
      · obtain ⟨rfl, rfl⟩ := List.cons.inj hu
        exact hx (hab'.subset (List.mem_cons_of_mem _ (List.mem_singleton_self b)))
    · obtain ⟨rfl, rfl⟩ := List.cons.inj ht
      rcases List.sublist_cons_iff.mp hba with hba' | ⟨u, hu, hux⟩
      · exact hx (hba'.subset (List.mem_cons_of_mem _ (List.mem_singleton_self a)))
      · exact hne (List.cons.inj hu).1.symm

theorem StableBefore.antisymm (hl : l.Nodup) (hab : StableBefore r l a b)
    (hba : StableBefore r l b a) : a = b :=
  absurd (hba.2 hab.1) (not_pair_sublist hl (hab.2 hba.1))

variable [DecidableRel r] [Std.Total r] [IsTrans α r]

/-- A stable sort and a limit. -/
theorem OrderLimit.stable (hl : l.Nodup) (n : ℕ) :
    OrderLimit (StableBefore r l) n l ((l.insertionSort r).take n) := by
  have hsorted : (l.insertionSort r).Nodup := (List.perm_insertionSort r l).nodup_iff.mpr hl
  refine ⟨_, List.perm_insertionSort r l, ?_, rfl⟩
  refine List.pairwise_iff_forall_sublist.mpr fun {a b} hab => ⟨?_, fun hba => ?_⟩
  · exact List.pairwise_iff_forall_sublist.mp (List.pairwise_insertionSort r l) hab
  · have ha : a ∈ l := (List.mem_insertionSort r).mp (hab.subset List.mem_cons_self)
    have hb : b ∈ l := (List.mem_insertionSort r).mp
      (hab.subset (List.mem_cons_of_mem _ (List.mem_singleton_self b)))
    have hne : a ≠ b := by
      have hpair := hab.nodup hsorted
      simpa using hpair
    refine (pair_sublist_or ha hb hne).resolve_right fun hsub => ?_
    exact not_pair_sublist hsorted hab (List.pair_sublist_insertionSort hba hsub)

end Stable

end AiManager.Lib
