import AiManager.Lib.KMap

/-! # Tables with a unique second key

A table whose rows are told apart by a second key, too. A row that is inserted has both keys to itself,
and one that is updated keeps both. -/

namespace AiManager.Lib

structure UniqueTable {K K' V : Type} [DecidableEq K] (key : V → K) (second : V → K') where
  rows : Table key
  unique : ∀ k k' v v', rows.get k = some v → rows.get k' = some v' → second v = second v' → k = k'

namespace UniqueTable
variable {K K' V : Type} [DecidableEq K] {key : V → K} {second : V → K'}
  (t : UniqueTable key second)

instance : EmptyCollection (UniqueTable key second) :=
  ⟨⟨∅, fun k _ _ _ h => by rw [Table.get_empty] at h; cases h⟩⟩

def get (k : K) : Option V := t.rows.get k

/-- A row in the place of one with its keys. -/
def replace (v v' : V) (hget : t.get (key v') = some v) (hsecond : second v' = second v) :
    UniqueTable key second where
  rows := t.rows.put v'
  unique := by
    intro k k' a b ha hb hab
    rw [Table.get_put] at ha hb
    split_ifs at ha hb with hk hk' hk'
    · rw [hk, hk']
    · rw [← Option.some.inj ha, hsecond] at hab
      rw [hk]
      exact t.unique _ _ v b hget hb hab
    · rw [← Option.some.inj hb, hsecond] at hab
      rw [hk']
      exact t.unique _ _ a v ha hget hab
    · exact t.unique k k' a b ha hb hab

variable {t} {v v' : V}

@[simp] theorem get_empty (k : K) : (∅ : UniqueTable key second).get k = none := Table.get_empty k

theorem key_of_get {k : K} (h : t.get k = some v) : key v = k := Table.key_of_get h

theorem get_replace (hget : t.get (key v') = some v) (hsecond : second v' = second v) (k : K) :
    (t.replace v v' hget hsecond).get k = if k = key v' then some v' else t.get k :=
  Table.get_put _ _ _

variable [DecidableEq K']

variable (t) in
def bySecond (k : K') : Option V := t.rows.values.find? fun v => second v = k

theorem bySecond_eq_some {k : K'} : t.bySecond k = some v ↔ t.get (key v) = some v ∧ second v = k := by
  unfold bySecond get
  constructor
  · intro h
    refine ⟨Table.mem_values.mp (List.mem_of_find?_eq_some h), ?_⟩
    exact of_decide_eq_true (List.find?_some (p := fun v => second v = k) h)
  · rintro ⟨hget, rfl⟩
    have hsome : (t.rows.values.find? fun x => second x = second v).isSome = true :=
      List.find?_isSome.mpr ⟨v, Table.mem_values.mpr hget, decide_eq_true rfl⟩
    obtain ⟨x, hx⟩ := Option.isSome_iff_exists.mp hsome
    have hxget := Table.mem_values.mp (List.mem_of_find?_eq_some hx)
    have hsecond := of_decide_eq_true (List.find?_some (p := fun x => second x = second v) hx)
    have hkey := t.unique _ _ x v hxget hget hsecond
    rw [hkey, hget] at hxget
    rw [hx, hxget]

theorem bySecond_eq_none {k : K'} :
    t.bySecond k = none ↔ ∀ k' v, t.get k' = some v → second v ≠ k := by
  constructor
  · intro h k' v hget hsecond
    rw [← key_of_get hget] at hget
    rw [bySecond_eq_some.mpr ⟨hget, hsecond⟩] at h
    cases h
  · intro h
    cases hfound : t.bySecond k with
    | none => rfl
    | some v =>
      obtain ⟨hget, hsecond⟩ := bySecond_eq_some.mp hfound
      exact absurd hsecond (h _ v hget)

variable (t)

/-- A row with new keys. -/
def insert (v : V) (hsecond : t.bySecond (second v) = none) : UniqueTable key second where
  rows := t.rows.put v
  unique := by
    intro k k' a b ha hb hab
    have hfree := bySecond_eq_none.mp hsecond
    rw [Table.get_put] at ha hb
    split_ifs at ha hb with hk hk'
    · rw [hk, hk']
    · rw [← Option.some.inj ha] at hab
      exact absurd hab.symm (hfree k' b hb)
    · rw [← Option.some.inj hb] at hab
      exact absurd hab (hfree k a ha)
    · exact t.unique k k' a b ha hb hab

variable {t}

theorem get_insert (hsecond : t.bySecond (second v) = none) (k : K) :
    (t.insert v hsecond).get k = if k = key v then some v else t.get k :=
  Table.get_put _ _ _

theorem bySecond_insert (hsecond : t.bySecond (second v) = none) (hkey : t.get (key v) = none) (k : K') :
    (t.insert v hsecond).bySecond k = if k = second v then some v else t.bySecond k := by
  ext x
  rw [bySecond_eq_some, get_insert]
  by_cases hx : key x = key v
  · rw [if_pos hx]
    split_ifs with hk
    · constructor
      · exact fun h => h.1
      · rintro ⟨⟩
        exact ⟨rfl, hk.symm⟩
    · rw [bySecond_eq_some, hx, hkey]
      refine iff_of_false ?_ fun h => nomatch h.1
      rintro ⟨hv, hsame⟩
      rw [← Option.some.inj hv] at hsame
      exact hk hsame.symm
  · rw [if_neg hx]
    split_ifs with hk
    · refine iff_of_false ?_ fun h => hx (congrArg key (Option.some.inj h)).symm
      rintro ⟨hget, hsame⟩
      exact bySecond_eq_none.mp hsecond _ x hget (hsame.trans hk)
    · exact bySecond_eq_some.symm

theorem bySecond_replace (hget : t.get (key v') = some v) (hsecond : second v' = second v) (k : K') :
    (t.replace v v' hget hsecond).bySecond k = if k = second v' then some v' else t.bySecond k := by
  ext x
  rw [bySecond_eq_some, get_replace]
  by_cases hx : key x = key v'
  · rw [if_pos hx]
    split_ifs with hk
    · constructor
      · exact fun h => h.1
      · rintro ⟨⟩
        exact ⟨rfl, hk.symm⟩
    · rw [bySecond_eq_some, hx, hget]
      constructor
      · rintro ⟨hv, hsame⟩
        rw [← Option.some.inj hv] at hsame
        exact absurd hsame.symm hk
      · rintro ⟨hv, hsame⟩
        rw [← Option.some.inj hv, ← hsecond] at hsame
        exact absurd hsame.symm hk
  · rw [if_neg hx]
    split_ifs with hk
    · refine iff_of_false ?_ fun h => hx (congrArg key (Option.some.inj h)).symm
      rintro ⟨hxget, hsame⟩
      refine hx (t.unique _ _ x v hxget hget ?_)
      rw [hsame, hk, hsecond]
    · exact bySecond_eq_some.symm

end UniqueTable

end AiManager.Lib
