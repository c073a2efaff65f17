import AiManager.Lib.DateTime
import Mathlib.Data.String.Basic
import Mathlib.Tactic.Linarith

/-! # Numbers of a fixed width

A number that is padded with zeros to a fixed width is read back from its digits, and texts that begin with such numbers
are in the order of the numbers. -/

namespace AiManager.Lib

/-- The last `width` decimal digits of a number. -/
def digits : ℕ → ℕ → List Char
  | 0, _ => []
  | width + 1, n => (n / 10 ^ width % 10).digitChar :: digits width n

/-- Reads a number of `width` digits; also what comes after it. -/
def readDigits : ℕ → List Char → Option (ℕ × List Char)
  | 0, cs => some (0, cs)
  | _ + 1, [] => none
  | width + 1, c :: cs =>
    if c.isDigit then (readDigits width cs).map fun (n, rest) => ((c.toNat - 48) * 10 ^ width + n, rest) else none

/-! ## Digits -/

theorem digitChar_facts : ∀ d < 10, (Nat.digitChar d).isDigit = true ∧ (Nat.digitChar d).toNat - 48 = d ∧
    '0' ≤ Nat.digitChar d ∧ '+' < Nat.digitChar d ∧ ∀ e < d, Nat.digitChar e < Nat.digitChar d := by
  decide

section Digits
variable {width n a b : ℕ}

theorem length_digits (width n : ℕ) : (digits width n).length = width := by
  induction width with
  | zero => rfl
  | succ width ih => rw [digits, List.length_cons, ih]

theorem exists_of_mem_digits {c : Char} (h : c ∈ digits width n) : ∃ d < 10, Nat.digitChar d = c := by
  induction width with
  | zero => cases h
  | succ width ih =>
    rcases List.mem_cons.mp h with rfl | h
    · exact ⟨_, Nat.mod_lt _ (by decide), rfl⟩
    · exact ih h

theorem isDigit_of_mem_digits {c : Char} (h : c ∈ digits width n) : c.isDigit = true := by
  obtain ⟨d, hd, rfl⟩ := exists_of_mem_digits h
  exact (digitChar_facts d hd).1

theorem zero_le_of_mem_digits {c : Char} (h : c ∈ digits width n) : '0' ≤ c := by
  obtain ⟨d, hd, rfl⟩ := exists_of_mem_digits h
  exact (digitChar_facts d hd).2.2.1

theorem plus_lt_of_mem_digits {c : Char} (h : c ∈ digits width n) : '+' < c := by
  obtain ⟨d, hd, rfl⟩ := exists_of_mem_digits h
  exact (digitChar_facts d hd).2.2.2.1

theorem digits_zero (width : ℕ) : digits width 0 = List.replicate width '0' := by
  induction width with
  | zero => rfl
  | succ width ih =>
    rw [digits, ih, Nat.zero_div]
    rfl

/-- The last digit. -/
theorem digits_succ (width n : ℕ) : digits (width + 1) n = digits width (n / 10) ++ [(n % 10).digitChar] := by
  induction width with
  | zero => exact congrArg (fun k => [(k % 10).digitChar]) (Nat.div_one n)
  | succ width ih =>
    rw [digits, ih, digits, List.cons_append, Nat.div_div_eq_div_mul, ← Nat.pow_succ']

theorem digits_mul_pow (i j n : ℕ) : digits (i + j) (n * 10 ^ j) = digits i n ++ List.replicate j '0' := by
  induction j with
  | zero => rw [Nat.pow_zero, Nat.mul_one, List.replicate_zero, List.append_nil, Nat.add_zero]
  | succ j ih =>
    rw [Nat.pow_succ, ← Nat.mul_assoc, ← Nat.add_assoc, digits_succ, Nat.mul_div_cancel _ (by decide), ih,
      Nat.mul_mod_left, List.replicate_succ', List.append_assoc]
    rfl

theorem readDigits_digits (width n : ℕ) (cs : List Char) :
    readDigits width (digits width n ++ cs) = some (n % 10 ^ width, cs) := by
  induction width with
  | zero => rw [Nat.pow_zero, Nat.mod_one]; rfl
  | succ width ih =>
    obtain ⟨hdigit, hvalue, -⟩ := digitChar_facts (n / 10 ^ width % 10) (Nat.mod_lt _ (by decide))
    rw [digits, List.cons_append, readDigits, if_pos hdigit, ih, Option.map_some, hvalue, Nat.mod_pow_succ,
      Nat.mul_comm, Nat.add_comm]

/-- A number is padded with zeros. -/
theorem toList_padded (h : n < 10 ^ (width + 1)) : (DateTime.padded (width + 1) n).toList = digits (width + 1) n := by
  unfold DateTime.padded
  rw [Nat.toString_eq_ofList_toDigits, String.toList_append, String.toList_ofList, String.toList_ofList,
    String.length_ofList]
  induction width generalizing n with
  | zero =>
    have hsmall : n < 10 := h
    rw [Nat.toDigits_of_lt_base hsmall, digits_succ, Nat.mod_eq_of_lt hsmall]
    rfl
  | succ width ih =>
    rw [digits_succ]
    rcases Nat.lt_or_ge n 10 with hsmall | hlarge
    · rw [Nat.toDigits_of_lt_base hsmall, Nat.div_eq_of_lt hsmall, Nat.mod_eq_of_lt hsmall, digits_zero]
      rfl
    · have hrest : n / 10 < 10 ^ (width + 1) := by
        rw [Nat.div_lt_iff_lt_mul (by decide), ← Nat.pow_succ]
        exact h
      rw [Nat.toDigits_of_base_le (by decide) hlarge, List.length_append, List.length_singleton,
        Nat.add_sub_add_right, ← List.append_assoc, ih hrest]

/-! ## Order -/

theorem lt_of_digits {r r' m q q' : ℕ} (hr' : r' < m) (h : r + m * q < r' + m * q') :
    q < q' ∨ q = q' ∧ r < r' := by
  rcases lt_trichotomy q q' with hq | rfl | hq
  · exact .inl hq
  · exact .inr ⟨rfl, by omega⟩
  · have hm : m * (q' + 1) ≤ m * q := Nat.mul_le_mul_left m hq
    rw [Nat.mul_succ] at hm
    omega

theorem digits_lt {xs ys : List Char} (h : a % 10 ^ width < b % 10 ^ width) :
    digits width a ++ xs < digits width b ++ ys := by
  induction width with
  | zero => rw [Nat.pow_zero, Nat.mod_one, Nat.mod_one] at h; cases h
  | succ width ih =>
    rw [Nat.mod_pow_succ, Nat.mod_pow_succ] at h
    have hpos : 0 < 10 ^ width := Nat.pow_pos (by decide)
    rw [digits, digits, List.cons_append, List.cons_append, List.cons_lt_cons_iff]
    rcases lt_of_digits (Nat.mod_lt _ hpos) h with hdigit | ⟨hdigit, hrest⟩
    · exact .inl ((digitChar_facts _ (Nat.mod_lt _ (by decide))).2.2.2.2 _ hdigit)
    · rw [hdigit]
      exact .inr ⟨rfl, ih hrest⟩

/-- Texts that begin with numbers. -/
theorem digits_append_lt {xs ys : List Char} (hb : b < 10 ^ width) (h : a < b ∨ a = b ∧ xs < ys) :
    digits width a ++ xs < digits width b ++ ys := by
  rcases h with hlt | ⟨rfl, hlt⟩
  · apply digits_lt
    rwa [Nat.mod_eq_of_lt hb, Nat.mod_eq_of_lt (hlt.trans hb)]
  · exact List.append_left_lt hlt

/-- The same behind a separator. -/
theorem cons_digits_lt {xs ys : List Char} (c : Char) (hb : b < 10 ^ width) (h : a < b ∨ a = b ∧ xs < ys) :
    c :: (digits width a ++ xs) < c :: (digits width b ++ ys) :=
  List.cons_lt_cons_iff.mpr (.inr ⟨rfl, digits_append_lt hb h⟩)

end Digits

/-! ### Trailing zeros -/

section Zeros
variable {xs ys zs : List Char} {c : Char}

theorem not_lt_zeros (h : ∀ c ∈ xs, '0' ≤ c) : ¬ xs < List.replicate xs.length '0' := by
  induction xs with
  | nil => exact List.not_lt_nil []
  | cons x xs ih =>
    obtain ⟨hx, hxs⟩ := List.forall_mem_cons.mp h
    rw [List.length_cons, List.replicate_succ, List.cons_lt_cons_iff]
    rintro (hlt | ⟨-, hlt⟩)
    · exact not_lt.mpr hx hlt
    · exact ih hxs hlt

/-- Trailing zeros may be left out if what follows is less than any digit. -/
theorem lt_of_append_zeros {i j : ℕ} (hlength : xs.length + i = ys.length + j) (hxs : ∀ d ∈ xs, '0' ≤ d)
    (hys : ∀ d ∈ ys, c < d) (h : xs ++ List.replicate i '0' < ys ++ List.replicate j '0') :
    xs ++ c :: zs < ys ++ c :: zs := by
  induction xs generalizing ys with
  | nil =>
    cases ys with
    | nil =>
      obtain rfl : i = j := by simpa using hlength
      exact absurd h (lt_irrefl _)
    | cons y ys => exact List.cons_lt_cons_iff.mpr (.inl (hys y List.mem_cons_self))
  | cons x xs ih =>
    cases ys with
    | nil =>
      have hzeros : ∀ d ∈ x :: xs ++ List.replicate i '0', '0' ≤ d := by
        intro d hd
        rcases List.mem_append.mp hd with hd | hd
        · exact hxs d hd
        · exact (List.eq_of_mem_replicate hd).ge
      have hj : j = (x :: xs ++ List.replicate i '0').length := by
        rw [List.length_append, List.length_replicate, hlength]
        exact (Nat.zero_add j).symm
      rw [List.nil_append, hj] at h
      exact absurd h (not_lt_zeros hzeros)
    | cons y ys =>
      rw [List.cons_append, List.cons_append, List.cons_lt_cons_iff] at h ⊢
      refine h.imp_right fun ⟨hxy, hrest⟩ => ⟨hxy, ?_⟩
      rw [List.length_cons, List.length_cons] at hlength
      exact ih (by omega) (List.forall_mem_cons.mp hxs).2 (List.forall_mem_cons.mp hys).2 hrest

end Zeros

end AiManager.Lib
