import AiManager.Lib.Calendar
import AiManager.Lib.Digits
import Mathlib.Data.Prod.Lex

/-! # Instants with leap seconds

A timestamp may name the 61st second of a minute. Such an instant lies between the last nanosecond of the minute and
the first of the next. Its text at UTC+05:30 is read back, and the texts are in the order of the instants. -/

namespace AiManager.Lib

open DateTime

/-- Seconds since 1970-01-01T00:00:00Z, and nanoseconds: another 10⁹ of them in a leap second, which continues the last
second of its minute. -/
@[ext]
structure Instant where
  secs : Int
  nanos : ℕ
  lt : nanos < 2000000000
  leap : 1000000000 ≤ nanos → secs % 60 = 59
  deriving DecidableEq

namespace Instant

/-- Later seconds are later, and within a second, later nanoseconds. -/
def toKey (t : Instant) : Int ×ₗ ℕ := toLex (t.secs, t.nanos)

theorem toKey_injective : Function.Injective toKey := by
  intro t t' h
  obtain ⟨hsecs, hnanos⟩ := Prod.mk.inj (toLex.injective h)
  exact Instant.ext hsecs hnanos

instance : LinearOrder Instant := LinearOrder.lift' toKey toKey_injective

theorem lt_iff {t t' : Instant} : t < t' ↔ t.secs < t'.secs ∨ t.secs = t'.secs ∧ t.nanos < t'.nanos :=
  Prod.Lex.toLex_lt_toLex

/-- The instant of that many seconds and nanoseconds. -/
def ofSeconds (secs : Int) (nanos : ℕ) : Option Instant :=
  if h : nanos < 2000000000 ∧ (1000000000 ≤ nanos → secs % 60 = 59) then some ⟨secs, nanos, h.1, h.2⟩ else none

theorem ofSeconds_eq (t : Instant) : ofSeconds t.secs t.nanos = some t := dif_pos ⟨t.lt, t.leap⟩

/-- The instant of a number of nanoseconds, which is in no leap second. -/
def ofDateTime (t : DateTime) : Instant where
  secs := t / nanosPerSecond
  nanos := (t % nanosPerSecond).toNat
  lt := by
    unfold nanosPerSecond
    omega
  leap h := by
    unfold nanosPerSecond at h
    omega

/-! ## India Standard Time -/

section Ist
variable (t : Instant)

/-- The day at UTC+05:30, as a number of days since the epoch. -/
def istDay : Int := (t.secs + 19800) / 86400

def istSecondOfDay : ℕ := ((t.secs + 19800) % 86400).toNat

/-- The second of the minute, 60 in a leap second. -/
def istSecond : ℕ := t.istSecondOfDay % 60 + t.nanos / 1000000000

/-- `2026-08-13T17:30:00+05:30` -/
def formatIstRfc3339 : String :=
  let (y, m, d) := civil t.istDay
  yearText y ++ "-" ++ padded 2 m ++ "-" ++ padded 2 d ++ "T" ++ padded 2 (t.istSecondOfDay / 3600) ++ ":" ++
    padded 2 (t.istSecondOfDay / 60 % 60) ++ ":" ++ padded 2 t.istSecond ++ fractionText (t.nanos % 1000000000) ++
    "+05:30"

/-- The year needs four digits. -/
def IstYear : Prop := 0 ≤ (civil t.istDay).1 ∧ (civil t.istDay).1 ≤ 9999

instance : Decidable t.IstYear := inferInstanceAs (Decidable (_ ∧ _))

end Ist

/-! ## Reading -/

def skip (c : Char) : List Char → Option (List Char)
  | [] => none
  | d :: cs => if d = c then some cs else none

theorem skip_cons (c : Char) (cs : List Char) : skip c (c :: cs) = some cs := if_pos rfl

/-- A fraction of a second, of up to nine digits, in nanoseconds. -/
def readFraction : List Char → Option (ℕ × List Char)
  | '.' :: cs =>
    let width := (cs.takeWhile Char.isDigit).length
    if width = 0 ∨ 9 < width then none
    else (readDigits width cs).map fun (n, rest) => (n * 10 ^ (9 - width), rest)
  | cs => some (0, cs)

/-- The offset from UTC, in seconds. -/
def readOffset : List Char → Option Int
  | ['Z'] => some 0
  | sign :: cs => do
    let (h, cs) ← readDigits 2 cs
    let cs ← skip ':' cs
    let (m, cs) ← readDigits 2 cs
    if cs ≠ [] ∨ 24 ≤ h ∨ 60 ≤ m then none
    else if sign = '+' then some (3600 * h + 60 * m)
    else if sign = '-' then some (-(3600 * h + 60 * m))
    else none
  | [] => none

/-- The day of a date. -/
def readDate (cs : List Char) : Option (Int × List Char) := do
  let (y, cs) ← readDigits 4 cs
  let cs ← skip '-' cs
  let (m, cs) ← readDigits 2 cs
  let cs ← skip '-' cs
  let (d, cs) ← readDigits 2 cs
  if civil (daysOf y m d) = ((y : Int), m, d) then some (daysOf y m d, cs) else none

/-- The second of the day, and whether it is followed by a leap second that is meant. -/
def readClock (cs : List Char) : Option ((ℕ × ℕ) × List Char) := do
  let (h, cs) ← readDigits 2 cs
  let cs ← skip ':' cs
  let (min, cs) ← readDigits 2 cs
  let cs ← skip ':' cs
  let (s, cs) ← readDigits 2 cs
  if h < 24 ∧ min < 60 ∧ s < 61 then some ((3600 * h + 60 * min + (s - s / 60), s / 60), cs) else none

/-- The instant that an RFC 3339 text names. -/
def readRfc3339 (text : String) : Option Instant := do
  let (day, cs) ← readDate text.toList
  let cs ← skip 'T' cs
  let ((second, leap), cs) ← readClock cs
  let (nanos, cs) ← readFraction cs
  let offset ← readOffset cs
  ofSeconds (86400 * day + second - offset) (1000000000 * leap + nanos)

example : readRfc3339 "2026-08-13T17:30:00.5+05:30" = ofSeconds 1786622400 500000000 := by decide

/-- What is written of a fraction: nothing, or digits without the zeros at the end. -/
theorem fractionText_cases {nanos : ℕ} (h : nanos < 1000000000) : nanos = 0 ∧ fractionText nanos = "" ∨
    ∃ i j n, 0 < i ∧ i + j = 9 ∧ n < 10 ^ i ∧ nanos = n * 10 ^ j ∧
      (fractionText nanos).toList = '.' :: digits i n := by
  unfold fractionText
  split
  · exact .inl ⟨‹_›, rfl⟩
  · right
    split
    · have hn : nanos / 1000000 < 10 ^ 3 := by omega
      refine ⟨3, 6, nanos / 1000000, by decide, rfl, hn, by omega, ?_⟩
      rw [String.toList_append, toList_padded hn]
      rfl
    · split
      · have hn : nanos / 1000 < 10 ^ 6 := by omega
        refine ⟨6, 3, nanos / 1000, by decide, rfl, hn, by omega, ?_⟩
        rw [String.toList_append, toList_padded hn]
        rfl
      · have hn : nanos < 10 ^ 9 := h
        refine ⟨9, 0, nanos, by decide, rfl, hn, by omega, ?_⟩
        rw [String.toList_append, toList_padded hn]
        rfl

theorem readFraction_fractionText {nanos : ℕ} (h : nanos < 1000000000) {c : Char} (hc : c.isDigit = false)
    (hdot : c ≠ '.') (cs : List Char) : readFraction ((fractionText nanos).toList ++ c :: cs) = some (nanos, c :: cs) := by
  rcases fractionText_cases h with ⟨rfl, htext⟩ | ⟨i, j, n, hi, hij, hn, rfl, htext⟩
  · rw [htext]
    unfold readFraction
    split
    · next heq => exact absurd (List.cons.inj heq).1 hdot
    · rfl
  · have hwidth : ((digits i n ++ c :: cs).takeWhile Char.isDigit).length = i := by
      rw [List.takeWhile_append_of_pos fun d hd => isDigit_of_mem_digits hd,
        List.takeWhile_cons_of_neg (by rw [hc]; decide), List.append_nil, length_digits]
    rw [htext, List.cons_append, readFraction, hwidth, if_neg (by omega), readDigits_digits, Nat.mod_eq_of_lt hn,
      show 9 - i = j by omega]
    rfl

/-! ## The text at UTC+05:30 -/

section Text
variable {t t' : Instant}

theorem istSecondOfDay_lt (t : Instant) : t.istSecondOfDay < 86400 := by
  unfold istSecondOfDay
  omega

theorem secs_eq (t : Instant) : t.secs + 19800 = 86400 * t.istDay + t.istSecondOfDay := by
  unfold istDay istSecondOfDay
  omega

/-- Only the last second of a minute can be a leap second. -/
theorem istSecond_cases (t : Instant) : t.istSecond = t.istSecondOfDay % 60 ∧ t.nanos < 1000000000 ∨
    t.istSecond = 60 ∧ t.istSecondOfDay % 60 = 59 ∧ 1000000000 ≤ t.nanos := by
  have hlt := t.lt
  have hleap := t.leap
  have hsecs := t.secs_eq
  unfold istSecond
  omega

theorem readDate_digits {days : Int} (hy : 0 ≤ (civil days).1) (hy' : (civil days).1 ≤ 9999) (cs : List Char) :
    readDate (digits 4 (civil days).1.toNat ++ '-' :: (digits 2 (civil days).2.1 ++ '-' ::
      (digits 2 (civil days).2.2 ++ cs))) = some (days, cs) := by
  have hdays := daysOf_civil days
  have hbounds := civil_bounds days
  generalize hcivil : civil days = date at hy hy' hdays hbounds ⊢
  obtain ⟨y, m, d⟩ := date
  dsimp only at hy hy' hdays hbounds ⊢
  unfold readDate
  rw [readDigits_digits, Nat.mod_eq_of_lt (by omega)]
  dsimp only [Option.bind_eq_bind, Option.bind_some]
  rw [skip_cons]
  dsimp only [Option.bind_some]
  rw [readDigits_digits, Nat.mod_eq_of_lt (by omega)]
  dsimp only [Option.bind_some]
  rw [skip_cons]
  dsimp only [Option.bind_some]
  rw [readDigits_digits, Nat.mod_eq_of_lt (by omega)]
  dsimp only [Option.bind_some]
  rw [Int.toNat_of_nonneg hy, hdays, if_pos hcivil]

theorem readClock_digits (t : Instant) (cs : List Char) :
    readClock (digits 2 (t.istSecondOfDay / 3600) ++ ':' :: (digits 2 (t.istSecondOfDay / 60 % 60) ++ ':' ::
      (digits 2 t.istSecond ++ cs))) = some ((t.istSecondOfDay, t.nanos / 1000000000), cs) := by
  have hday := t.istSecondOfDay_lt
  have hcases := t.istSecond_cases
  have hlt := t.lt
  unfold readClock
  rw [readDigits_digits, Nat.mod_eq_of_lt (by omega)]
  dsimp only [Option.bind_eq_bind, Option.bind_some]
  rw [skip_cons]
  dsimp only [Option.bind_some]
  rw [readDigits_digits, Nat.mod_eq_of_lt (by omega)]
  dsimp only [Option.bind_some]
  rw [skip_cons]
  dsimp only [Option.bind_some]
  rw [readDigits_digits, Nat.mod_eq_of_lt (by omega)]
  dsimp only [Option.bind_some]
  rw [if_pos (by omega)]
  have hleap : t.istSecond / 60 = t.nanos / 1000000000 := by omega
  have hsecond : 3600 * (t.istSecondOfDay / 3600) + 60 * (t.istSecondOfDay / 60 % 60) +
      (t.istSecond - t.istSecond / 60) = t.istSecondOfDay := by omega
  rw [hsecond, hleap]

/-- The characters of the text. -/
theorem toList_formatIst (h : t.IstYear) : t.formatIstRfc3339.toList =
    digits 4 (civil t.istDay).1.toNat ++ '-' :: (digits 2 (civil t.istDay).2.1 ++ '-' ::
      (digits 2 (civil t.istDay).2.2 ++ 'T' :: (digits 2 (t.istSecondOfDay / 3600) ++ ':' ::
        (digits 2 (t.istSecondOfDay / 60 % 60) ++ ':' :: (digits 2 t.istSecond ++
          ((fractionText (t.nanos % 1000000000)).toList ++ "+05:30".toList)))))) := by
  have hday := t.istSecondOfDay_lt
  have hsecond := t.istSecond_cases
  have hbounds := civil_bounds t.istDay
  unfold IstYear at h
  unfold formatIstRfc3339
  generalize civil t.istDay = date at h hbounds ⊢
  obtain ⟨y, m, d⟩ := date
  dsimp only at h hbounds ⊢
  rw [yearText, if_pos h]
  simp only [String.toList_append]
  rw [toList_padded (by omega), toList_padded (by omega), toList_padded (by omega), toList_padded (by omega),
    toList_padded (by omega), toList_padded (by omega)]
  simp only [List.append_assoc]
  rfl

/-- The text names the instant. -/
theorem readRfc3339_formatIst (h : t.IstYear) : readRfc3339 t.formatIstRfc3339 = some t := by
  obtain ⟨hy, hy'⟩ := h
  have hread := readFraction_fractionText (Nat.mod_lt t.nanos (by decide)) (c := '+') rfl (by decide) "05:30".toList
  have hoffset : readOffset ('+' :: "05:30".toList) = some 19800 := by decide
  have hsecs := t.secs_eq
  have hnanos := Nat.div_add_mod t.nanos 1000000000
  have hleap : t.istSecond - t.istSecondOfDay % 60 = t.nanos / 1000000000 := Nat.add_sub_cancel_left _ _
  unfold readRfc3339
  rw [toList_formatIst ⟨hy, hy'⟩, readDate_digits hy hy']
  dsimp only [Option.bind_eq_bind, Option.bind_some]
  rw [skip_cons]
  dsimp only [Option.bind_some]
  rw [readClock_digits t]
  dsimp only [Option.bind_some]
  rw [show "+05:30".toList = '+' :: "05:30".toList from rfl, hread]
  dsimp only [Option.bind_some]
  rw [hoffset]
  dsimp only [Option.bind_some]
  rw [hnanos, show 86400 * t.istDay + t.istSecondOfDay - 19800 = t.secs by omega, ofSeconds_eq]

/-- A longer fraction comes later, as a digit is greater than the sign of the offset. -/
theorem fraction_lt {a b : ℕ} (h : a < b) (hb : b < 1000000000) (cs : List Char) :
    (fractionText a).toList ++ '+' :: cs < (fractionText b).toList ++ '+' :: cs := by
  rcases fractionText_cases hb with ⟨rfl, -⟩ | ⟨i', j', n', hi', hij', hn', hb', htext'⟩
  · cases h
  rw [htext', List.cons_append]
  rcases fractionText_cases (h.trans hb) with ⟨rfl, htext⟩ | ⟨i, j, n, hi, hij, hn, ha, htext⟩
  · rw [htext]
    exact List.cons_lt_cons_iff.mpr (.inl (by decide))
  · rw [htext, List.cons_append]
    refine List.cons_lt_cons_iff.mpr (.inr ⟨rfl, ?_⟩)
    have hall : digits i n ++ List.replicate j '0' < digits i' n' ++ List.replicate j' '0' := by
      rw [← digits_mul_pow, ← digits_mul_pow, hij, hij', ← ha, ← hb']
      have hlt : digits 9 a ++ [] < digits 9 b ++ [] := digits_append_lt hb (.inl h)
      rwa [List.append_nil, List.append_nil] at hlt
    refine lt_of_append_zeros (by rw [length_digits, length_digits, hij, hij']) ?_ ?_ hall
    · exact fun d hd => zero_le_of_mem_digits hd
    · exact fun d hd => plus_lt_of_mem_digits hd

/-- The fields that the texts differ in first. -/
theorem fields_lt (h : t < t') : t.istDay < t'.istDay ∨ t.istDay = t'.istDay ∧
    (t.istSecondOfDay / 3600 < t'.istSecondOfDay / 3600 ∨ t.istSecondOfDay / 3600 = t'.istSecondOfDay / 3600 ∧
      (t.istSecondOfDay / 60 % 60 < t'.istSecondOfDay / 60 % 60 ∨
        t.istSecondOfDay / 60 % 60 = t'.istSecondOfDay / 60 % 60 ∧ (t.istSecond < t'.istSecond ∨
          t.istSecond = t'.istSecond ∧ t.nanos % 1000000000 < t'.nanos % 1000000000))) := by
  have hlt := lt_iff.mp h
  have hsecs := t.secs_eq
  have hsecs' := t'.secs_eq
  have hday := t.istSecondOfDay_lt
  have hday' := t'.istSecondOfDay_lt
  have hsecond := t.istSecond_cases
  have hsecond' := t'.istSecond_cases
  have hnanos := t.lt
  have hnanos' := t'.lt
  omega

/-- Later instants have later texts. -/
theorem formatIst_lt (h : t.IstYear) (h' : t'.IstYear) (hlt : t < t') :
    t.formatIstRfc3339 < t'.formatIstRfc3339 := by
  obtain ⟨hy, -⟩ := id h
  obtain ⟨hy', hyear'⟩ := id h'
  obtain ⟨-, hmonth', -, hdom'⟩ := civil_bounds t'.istDay
  have hday' := t'.istSecondOfDay_lt
  have hsecond' := t'.istSecond_cases
  rw [String.lt_iff_toList_lt, toList_formatIst h, toList_formatIst h']
  -- the texts agree up to the first field that differs, and that has the same width in both
  rcases fields_lt hlt with hday | ⟨hday, htime⟩
  · refine digits_append_lt (by omega) ((civil_lt hday).imp (by omega) fun ⟨hy, hrest⟩ => ⟨congrArg Int.toNat hy, ?_⟩)
    refine cons_digits_lt '-' (by omega) (hrest.imp_right fun ⟨hm, hd⟩ => ⟨hm, ?_⟩)
    exact cons_digits_lt '-' (by omega) (.inl hd)
  · rw [hday]
    refine digits_append_lt (by omega) (.inr ⟨rfl, cons_digits_lt '-' (by omega) (.inr ⟨rfl, ?_⟩)⟩)
    refine cons_digits_lt '-' (by omega) (.inr ⟨rfl, ?_⟩)
    refine cons_digits_lt 'T' (by omega) (htime.imp_right fun ⟨hh, hrest⟩ => ⟨hh, ?_⟩)
    refine cons_digits_lt ':' (by omega) (hrest.imp_right fun ⟨hmin, hrest⟩ => ⟨hmin, ?_⟩)
    refine cons_digits_lt ':' (by omega) (hrest.imp_right fun ⟨hs, hfraction⟩ => ⟨hs, ?_⟩)
    exact fraction_lt hfraction (Nat.mod_lt _ (by decide)) _

/-- The texts are in the order of the instants. -/
theorem formatIst_le_iff (h : t.IstYear) (h' : t'.IstYear) :
    t.formatIstRfc3339 ≤ t'.formatIstRfc3339 ↔ t ≤ t' := by
  constructor
  · exact fun hle => not_lt.mp fun hlt => not_lt.mpr hle (formatIst_lt h' h hlt)
  · intro hle
    rcases hle.lt_or_eq with hlt | rfl
    · exact (formatIst_lt h h' hlt).le
    · exact le_rfl

end Text

end Instant

end AiManager.Lib
