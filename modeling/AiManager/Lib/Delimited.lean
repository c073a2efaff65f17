import Mathlib.Data.List.Basic

/-! # Fields between delimiters

Fields written one after the other with a delimiter in between. A field may contain the delimiter itself, and then what
was written does not say where a field ends: it says what pieces there are between delimiters, and nothing more. -/

namespace AiManager.Lib

section Delimited
variable {α : Type} [DecidableEq α] {d : α} {fields fields' : List (List α)}

/-- What there is between delimiters, field by field. -/
def pieces (d : α) (fields : List (List α)) : List (List α) := fields.flatMap fun f => f.splitOn d

theorem splitOn_intercalate_pieces (h : fields ≠ []) : ([d].intercalate fields).splitOn d = pieces d fields := by
  induction fields with
  | nil => exact absurd rfl h
  | cons f fs ih =>
    cases fs with
    | nil => simp [pieces]
    | cons g gs =>
      rw [List.intercalate_cons_cons, List.append_assoc, List.singleton_append, List.splitOn_append_cons_self,
        ih (List.cons_ne_nil g gs)]
      rfl

/-- Rows of fields are written alike exactly if their pieces are the same. -/
theorem intercalate_eq_iff (h : fields ≠ []) (h' : fields' ≠ []) :
    [d].intercalate fields = [d].intercalate fields' ↔ pieces d fields = pieces d fields' := by
  rw [← splitOn_intercalate_pieces h, ← splitOn_intercalate_pieces h']
  constructor
  · exact congrArg _
  · intro heq
    have hback : ∀ l : List α, [d].intercalate (l.splitOn d) = l := fun l => List.intercalate_splitOn d
    rw [← hback ([d].intercalate fields), heq, hback]

omit [DecidableEq α] in
/-- Where the delimiter first comes, or the end, is where a field without it ends. -/
theorem append_inj_of_notMem {a a' b b' : List α} (ha : d ∉ a) (ha' : d ∉ a') (hb : ∀ c ∈ b.head?, c = d)
    (hb' : ∀ c ∈ b'.head?, c = d) (h : a ++ b = a' ++ b') : a = a' ∧ b = b' := by
  induction a generalizing a' with
  | nil =>
    cases a' with
    | nil => exact ⟨rfl, h⟩
    | cons c a' =>
      have hc : c = d := hb c (by rw [← List.nil_append b, h]; rfl)
      exact absurd (hc ▸ List.mem_cons_self) ha'
  | cons c a ih =>
    cases a' with
    | nil =>
      have hc : c = d := hb' c (by rw [← List.nil_append b', ← h]; rfl)
      exact absurd (hc ▸ List.mem_cons_self) ha
    | cons c' a' =>
      obtain ⟨rfl, htail⟩ := List.cons.inj h
      obtain ⟨rfl, hbb⟩ := ih (fun hd => ha (List.mem_cons_of_mem _ hd)) (fun hd => ha' (List.mem_cons_of_mem _ hd)) htail
      exact ⟨rfl, hbb⟩

end Delimited

end AiManager.Lib
