import Mathlib.Data.List.AList

/-! # Finite maps and tables

Concurrent hash maps, read as plain maps. `KMap` is Mathlib's association list with distinct
keys, under the operations a map offers; the order of its entries stands for the (unspecified)
order in which such a map is iterated. `Table` is a map whose keys are a projection of the rows
it stores, the shape of a map that is only ever filled with `insert(key_of(row), row)`: the
agreement of keys and rows is a field, so a misfiled row cannot be built. -/

namespace AiManager.Lib

/-- A finite map: every key at most once. -/
abbrev KMap (K V : Type) := AList (fun _ : K => V)

namespace KMap
variable {K V : Type} [DecidableEq K]

def get (m : KMap K V) (k : K) : Option V := AList.lookup k m

def put (m : KMap K V) (k : K) (v : V) : KMap K V := AList.insert k v m

def del (m : KMap K V) (k : K) : KMap K V := AList.erase k m

def has (m : KMap K V) (k : K) : Bool := (m.get k).isSome

/-- The stored pairs, in iteration order. -/
def items (m : KMap K V) : List (K × V) := m.entries.map fun e => (e.1, e.2)

/-- The stored values, in iteration order. -/
def values (m : KMap K V) : List V := m.entries.map fun e => e.2

/-! ## Reads after writes -/

@[simp] theorem get_empty (k : K) : get (∅ : KMap K V) k = none := AList.lookup_empty k

@[simp] theorem get_put_self (m : KMap K V) (k : K) (v : V) : (m.put k v).get k = some v :=
  AList.lookup_insert m

theorem get_put_ne (m : KMap K V) {k k' : K} (v : V) (h : k' ≠ k) :
    (m.put k v).get k' = m.get k' :=
  AList.lookup_insert_ne h

theorem get_put (m : KMap K V) (k k' : K) (v : V) :
    (m.put k v).get k' = if k' = k then some v else m.get k' := by
  by_cases h : k' = k
  · subst h; simp
  · simp [h, get_put_ne]

@[simp] theorem get_del_self (m : KMap K V) (k : K) : (m.del k).get k = none :=
  AList.lookup_erase k m

theorem get_del_ne (m : KMap K V) {k k' : K} (h : k' ≠ k) : (m.del k).get k' = m.get k' :=
  AList.lookup_erase_ne h

theorem get_del (m : KMap K V) (k k' : K) :
    (m.del k).get k' = if k' = k then none else m.get k' := by
  by_cases h : k' = k
  · subst h; simp
  · simp [h, get_del_ne]

theorem has_iff {m : KMap K V} {k : K} : m.has k = true ↔ ∃ v, m.get k = some v := by
  simp [has, Option.isSome_iff_exists]

theorem has_eq_false_iff {m : KMap K V} {k : K} : m.has k = false ↔ m.get k = none := by
  simp [has]

/-! ## Iteration -/

theorem mem_items {m : KMap K V} {k : K} {v : V} : (k, v) ∈ m.items ↔ m.get k = some v := by
  have hl : m.get k = some v ↔ (⟨k, v⟩ : Sigma fun _ : K => V) ∈ m.entries :=
    (AList.mem_lookup_iff (β := fun _ : K => V) (b := v) (s := m))
  rw [hl, items, List.mem_map]
  constructor
  · rintro ⟨⟨k', v'⟩, he, heq⟩
    obtain ⟨rfl, rfl⟩ := Prod.mk.inj heq
    exact he
  · intro he
    exact ⟨_, he, rfl⟩

theorem mem_values {m : KMap K V} {v : V} : v ∈ m.values ↔ ∃ k, m.get k = some v := by
  have hv : m.values = m.items.map Prod.snd := by simp [values, items, Function.comp_def]
  rw [hv, List.mem_map]
  constructor
  · rintro ⟨⟨k, v'⟩, he, rfl⟩
    exact ⟨k, mem_items.mp he⟩
  · rintro ⟨k, hk⟩
    exact ⟨(k, v), mem_items.mpr hk, rfl⟩

/-- Values that know their key are listed once. -/
theorem values_map_nodup {m : KMap K V} {f : V → K} (h : ∀ k v, m.get k = some v → f v = k) :
    (m.values.map f).Nodup := by
  have hkeys : m.values.map f = m.entries.map Sigma.fst := by
    unfold values
    rw [List.map_map]
    refine List.map_congr_left fun e he => ?_
    exact h e.1 e.2 (mem_items.mp (List.mem_map.mpr ⟨e, he, rfl⟩))
  rw [hkeys]
  exact m.nodupKeys

private theorem filter_flatten_entries {α : Type} {p : α → K} {k : K} :
    ∀ {entries : List (Sigma fun _ : K => List α)}, entries.NodupKeys →
      (∀ e ∈ entries, ∀ a ∈ e.2, p a = e.1) →
      ((entries.map Sigma.snd).flatten.filter fun a => p a = k) = (entries.dlookup k).getD [] := by
  intro entries
  induction entries with
  | nil => intro _ _; rfl
  | cons e es ih =>
    obtain ⟨k', l⟩ := e
    intro hnodup hkeys
    obtain ⟨hk', hes⟩ := List.nodupKeys_cons.mp hnodup
    have hrest := ih hes fun e he => hkeys e (List.mem_cons_of_mem _ he)
    have hl : ∀ a ∈ l, p a = k' := hkeys ⟨k', l⟩ List.mem_cons_self
    rw [List.map_cons, List.flatten_cons, List.filter_append, hrest]
    -- the values of an entry all carry its key: they stay together or go together
    by_cases hkk : k' = k
    · subst hkk
      have hall : (l.filter fun a => p a = k') = l :=
        List.filter_eq_self.mpr fun a ha => decide_eq_true (hl a ha)
      rw [hall, List.dlookup_cons_eq, List.dlookup_eq_none.mpr hk']
      simp
    · have hnone : (l.filter fun a => p a = k) = [] := by
        refine List.filter_eq_nil_iff.mpr fun a ha => ?_
        rw [decide_eq_true_eq, hl a ha]
        exact hkk
      rw [hnone, List.dlookup_cons_ne _ _ (Ne.symm hkk)]
      rfl

/-- Lists whose members know the key of their list can be told apart when they are written one after
the other. -/
theorem filter_flatten_values {α : Type} {m : KMap K (List α)} {p : α → K}
    (h : ∀ k l, m.get k = some l → ∀ a ∈ l, p a = k) (k : K) :
    (m.values.flatten.filter fun a => p a = k) = (m.get k).getD [] := by
  refine filter_flatten_entries m.nodupKeys fun e he => ?_
  exact h e.1 e.2 (mem_items.mp (List.mem_map.mpr ⟨e, he, rfl⟩))

/-! ## New keys -/

section Rekey
variable {K' V' : Type} [DecidableEq K']

/-- One entry, under its new key if it has one. -/
def putRekeyed (f : K → Option K') (g : V → V') (acc : KMap K' V') (e : K × V) : KMap K' V' :=
  match f e.1 with
  | some k' => acc.put k' (g e.2)
  | none => acc

/-- Every entry is inserted under a new key, or left out. -/
def rekey (f : K → Option K') (g : V → V') (m : KMap K V) : KMap K' V' :=
  m.items.foldl (putRekeyed f g) ∅

variable {f : K → Option K'} {g : V → V'} {es : List (K × V)} {k' : K'}

omit [DecidableEq K] in
theorem get_foldl_putRekeyed_of_notMem (h : ∀ e ∈ es, f e.1 ≠ some k') :
    ∀ acc : KMap K' V', (es.foldl (putRekeyed f g) acc).get k' = acc.get k' := by
  induction es with
  | nil => intro acc; rfl
  | cons e es ih =>
    intro acc
    have he := h e List.mem_cons_self
    show (es.foldl (putRekeyed f g) (putRekeyed f g acc e)).get k' = _
    rw [ih fun e he => h e (List.mem_cons_of_mem _ he), putRekeyed]
    cases hf : f e.1 with
    | none => rfl
    | some k =>
      refine get_put_ne acc (g e.2) ?_
      rintro rfl
      exact he hf

theorem get_foldl_putRekeyed_of_mem {e : K × V} (he : e ∈ es) (hf : f e.1 = some k')
    (huniq : ∀ e' ∈ es, f e'.1 = some k' → e' = e) :
    ∀ acc : KMap K' V', (es.foldl (putRekeyed f g) acc).get k' = some (g e.2) := by
  induction es with
  | nil => cases he
  | cons d ds ih =>
    intro acc
    show (ds.foldl (putRekeyed f g) (putRekeyed f g acc d)).get k' = _
    by_cases hmem : e ∈ ds
    · exact ih hmem (fun e' he' => huniq e' (List.mem_cons_of_mem _ he')) _
    · obtain rfl : e = d := (List.mem_cons.mp he).resolve_right hmem
      have hrest : ∀ e' ∈ ds, f e'.1 ≠ some k' := by
        intro e' he' hfe
        rw [huniq e' (List.mem_cons_of_mem _ he') hfe] at he'
        exact hmem he'
      rw [get_foldl_putRekeyed_of_notMem hrest]
      simp [putRekeyed, hf]

/-- Where no two entries get one key, each is found under its new one. -/
theorem get_rekey {m : KMap K V} {k : K} (hf : f k = some k')
    (hinj : ∀ k₁, m.has k₁ = true → f k₁ = some k' → k₁ = k) :
    (m.rekey f g).get k' = (m.get k).map g := by
  have hkeys : ∀ e ∈ m.items, f e.1 = some k' → e.1 = k := by
    intro e he hfe
    exact hinj e.1 (has_iff.mpr ⟨e.2, mem_items.mp he⟩) hfe
  unfold rekey
  cases hget : m.get k with
  | none =>
    rw [get_foldl_putRekeyed_of_notMem, get_empty]
    · rfl
    · intro e he hfe
      have hitem : m.get e.1 = some e.2 := mem_items.mp he
      rw [hkeys e he hfe, hget] at hitem
      cases hitem
  | some v =>
    refine get_foldl_putRekeyed_of_mem (mem_items.mpr hget) hf ?_ ∅
    intro e he hfe
    have hitem : m.get e.1 = some e.2 := mem_items.mp he
    rw [hkeys e he hfe, hget] at hitem
    exact Prod.ext (hkeys e he hfe) (Option.some.inj hitem).symm

/-- A key that nothing is moved to is not there. -/
theorem get_rekey_eq_none {m : KMap K V} (h : ∀ k, m.has k = true → f k ≠ some k') :
    (m.rekey f g).get k' = none := by
  unfold rekey
  rw [get_foldl_putRekeyed_of_notMem, get_empty]
  intro e he
  exact h e.1 (has_iff.mpr ⟨e.2, mem_items.mp he⟩)

theorem exists_of_has_rekey {m : KMap K V} (h : (m.rekey f g).has k' = true) :
    ∃ k, m.has k = true ∧ f k = some k' := by
  by_contra hno
  obtain ⟨v, hv⟩ := has_iff.mp h
  rw [get_rekey_eq_none fun k hk hf => hno ⟨k, hk, hf⟩] at hv
  cases hv

/-- Rows that are put one after the other, where each came from one entry of a map. -/
theorem get_foldl_put_items {R : Type} (m : KMap K V) (row : K × V → R) (key : R → K) (val : R → V)
    (h : ∀ k v, m.get k = some v → key (row (k, v)) = k ∧ val (row (k, v)) = v) (k : K) :
    ((m.items.map row).foldl (fun acc r => acc.put (key r) (val r)) ∅ : KMap K V).get k = m.get k := by
  have hrekey : ∀ es : List (K × V), (∀ e ∈ es, key (row e) = e.1 ∧ val (row e) = e.2) → ∀ acc : KMap K V,
      (es.map row).foldl (fun acc r => acc.put (key r) (val r)) acc = es.foldl (putRekeyed some id) acc := by
    intro es
    induction es with
    | nil => exact fun _ _ => rfl
    | cons e es ih =>
      intro hes acc
      obtain ⟨hkey, hval⟩ := hes e List.mem_cons_self
      rw [List.map_cons, List.foldl_cons, List.foldl_cons, hkey, hval]
      exact ih (fun e' he' => hes e' (List.mem_cons_of_mem _ he')) _
  rw [hrekey m.items fun e he => h e.1 e.2 (mem_items.mp he)]
  have hget := get_rekey (m := m) (f := some) (g := id) (k := k) rfl fun k₁ _ heq => Option.some.inj heq
  rw [Option.map_id_fun, id] at hget
  exact hget

end Rekey

end KMap

/-! ## Tables -/

/-- A finite map whose rows know their key. -/
structure Table {K V : Type} [DecidableEq K] (key : V → K) where
  map : KMap K V
  keyed : ∀ k v, map.get k = some v → key v = k

namespace Table
variable {K V : Type} [DecidableEq K] {key : V → K}

instance : EmptyCollection (Table key) := ⟨⟨∅, by simp⟩⟩

instance : Inhabited (Table key) := ⟨∅⟩

def get (t : Table key) (k : K) : Option V := t.map.get k

def has (t : Table key) (k : K) : Bool := t.map.has k

/-- `insert(key_of(row), row)`. -/
def put (t : Table key) (v : V) : Table key :=
  ⟨t.map.put (key v) v, by
    intro k w h
    rw [KMap.get_put] at h
    split at h
    · next hk => cases h; exact hk.symm
    · exact t.keyed k w h⟩

def del (t : Table key) (k : K) : Table key :=
  ⟨t.map.del k, by
    intro k' w h
    rw [KMap.get_del] at h
    split at h
    · cases h
    · exact t.keyed k' w h⟩

def values (t : Table key) : List V := t.map.values

/-- Insert the rows one after the other; a later row replaces an earlier one of its key. -/
def putAll (t : Table key) (rows : List V) : Table key := rows.foldl put t

theorem key_of_get {t : Table key} {k : K} {v : V} (h : t.get k = some v) : key v = k :=
  t.keyed k v h

@[simp] theorem get_empty (k : K) : get (∅ : Table key) k = none := KMap.get_empty k

@[simp] theorem get_put_self (t : Table key) (v : V) : (t.put v).get (key v) = some v :=
  KMap.get_put_self _ _ _

theorem get_put_ne (t : Table key) {v : V} {k : K} (h : k ≠ key v) : (t.put v).get k = t.get k :=
  KMap.get_put_ne _ _ h

theorem get_put (t : Table key) (v : V) (k : K) :
    (t.put v).get k = if k = key v then some v else t.get k :=
  KMap.get_put _ _ _ _

@[simp] theorem get_del_self (t : Table key) (k : K) : (t.del k).get k = none :=
  KMap.get_del_self _ _

theorem get_del_ne (t : Table key) {k k' : K} (h : k' ≠ k) : (t.del k).get k' = t.get k' :=
  KMap.get_del_ne _ h

theorem has_iff {t : Table key} {k : K} : t.has k = true ↔ ∃ v, t.get k = some v := KMap.has_iff

theorem has_eq_false_iff {t : Table key} {k : K} : t.has k = false ↔ t.get k = none :=
  KMap.has_eq_false_iff

theorem mem_values {t : Table key} {v : V} : v ∈ t.values ↔ t.get (key v) = some v := by
  constructor
  · intro h
    obtain ⟨k, hk⟩ := KMap.mem_values.mp h
    have hkey : key v = k := t.keyed k v hk
    rw [hkey]; exact hk
  · intro h
    exact KMap.mem_values.mpr ⟨_, h⟩

theorem values_nodup (t : Table key) : t.values.Nodup :=
  (KMap.values_map_nodup t.keyed).of_map key

/-- Tables with the same rows list the same rows. -/
theorem values_perm {t t' : Table key} (h : ∀ k, t.get k = t'.get k) : t.values.Perm t'.values := by
  refine (List.perm_ext_iff_of_nodup t.values_nodup t'.values_nodup).mpr fun v => ?_
  rw [mem_values, mem_values, h]

/-! ### Bulk insertion -/

theorem get_putAll_of_notMem {rows : List V} {k : K} (h : ∀ v ∈ rows, key v ≠ k) :
    ∀ t : Table key, (t.putAll rows).get k = t.get k := by
  induction rows with
  | nil => intro t; rfl
  | cons v vs ih =>
    intro t
    have hv : k ≠ key v := fun hk => h v List.mem_cons_self hk.symm
    have hvs := ih (fun w hw => h w (List.mem_cons_of_mem _ hw)) (t.put v)
    calc (t.putAll (v :: vs)).get k
        = ((t.put v).putAll vs).get k := rfl
      _ = (t.put v).get k := hvs
      _ = t.get k := get_put_ne t hv

/-- A row whose key no other row of the list shares is the one that is kept. -/
theorem get_putAll_of_mem {rows : List V} {v : V} (hv : v ∈ rows)
    (huniq : ∀ w ∈ rows, key w = key v → w = v) :
    ∀ t : Table key, (t.putAll rows).get (key v) = some v := by
  induction rows with
  | nil => cases hv
  | cons w ws ih =>
    intro t
    show ((t.put w).putAll ws).get (key v) = some v
    by_cases hmem : v ∈ ws
    · exact ih hmem (fun u hu => huniq u (List.mem_cons_of_mem _ hu)) _
    · have hwv : v = w := (List.mem_cons.mp hv).resolve_right hmem
      have hrest : ∀ u ∈ ws, key u ≠ key v := by
        intro u hu hk
        have : u = v := huniq u (List.mem_cons_of_mem _ hu) hk
        exact hmem (this ▸ hu)
      rw [get_putAll_of_notMem hrest, ← hwv]
      exact get_put_self t v

/-- **Export and import**: filling an empty table with the rows of `t`, in whatever order they
were listed, gives a table with the content of `t`. -/
theorem get_putAll_values (t : Table key) {rows : List V} (h : rows.Perm t.values) (k : K) :
    ((∅ : Table key).putAll rows).get k = t.get k := by
  have hrow : ∀ v, v ∈ rows ↔ t.get (key v) = some v := fun v => h.mem_iff.trans mem_values
  cases hk : t.get k with
  | none =>
    have hno : ∀ v ∈ rows, key v ≠ k := by
      intro v hv hkey
      have := (hrow v).mp hv
      rw [hkey, hk] at this
      cases this
    rw [get_putAll_of_notMem hno, get_empty]
  | some v =>
    have hkey : key v = k := key_of_get hk
    have hv : v ∈ rows := (hrow v).mpr (hkey ▸ hk)
    rw [← hkey]
    apply get_putAll_of_mem hv
    intro w hw hwk
    have := (hrow w).mp hw
    rw [hwk, hkey, hk] at this
    exact (Option.some.inj this).symm

end Table

end AiManager.Lib
